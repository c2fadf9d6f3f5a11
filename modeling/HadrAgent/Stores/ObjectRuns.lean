import HadrAgent.Stores.IncidentIds
import HadrAgent.Stores.ObjectRefinement

/-!
# Runs on objects

Calls that hand in their lists apart (`ObjectCall.Apart`) keep the objects apart, and to who looks at the store they are
the calls on values (`refinement`).

- `step_cases`: the four things a call may do;
- `objects_of_run`: the run answers and ends as the one on values, and an object that a call returned shows its incident
  ever after.
-/

namespace HadrAgent

variable {F : Type}

/-! ## What a call hands in -/

/-- Keyword arguments, by the fields they name. -/
def named (fields : OrdDict String (Ref F)) : List (Field × Ref F) :=
  fields.items.filterMap fun p => (Field.ofName? p.1).map fun f => (f, p.2)

theorem mem_named {fields : OrdDict String (Ref F)} {f : Field} {r : Ref F} (h : fields.get? f.name = some r) :
    (f, r) ∈ named fields := by
  refine List.mem_filterMap.mpr ⟨(f.name, r), OrdDict.get?_eq_some.mp h, ?_⟩
  rw [Field.ofName?_name]
  rfl

/-- The fields a call may write, with what it writes there. -/
def ObjectCall.given : ObjectCall F → List (Field × Ref F)
  | openIncident incidentType coords tick buildingId fields =>
    [(.incidentType, incidentType), (.coords, coords), (.createdTick, tick), (.updatedTick, tick),
      (.buildingId, buildingId)] ++ named fields
  | update _ tick fields => (.updatedTick, tick) :: named fields
  | link _ _ tick => [(.updatedTick, tick)]
  | close _ reason tick => [(.closeReason, reason), (.updatedTick, tick)]

/-- The lists of a call are apart from those on file: one that is to be the reports of an incident is in no field and
in no other argument, and the others are not the reports of an incident. -/
structure ObjectCall.Apart (s : ObjectStore F) (c : ObjectCall F) : Prop where
  allocated : ∀ f x, (f, .list x) ∈ c.given → x < s.memory.listCount
  reports : ∀ x, (.reportIds, .list x) ∈ c.given →
    (∀ a f, s.OnFile a → s.memory.incidents a f ≠ .list x) ∧ ∀ f, (f, .list x) ∈ c.given → f = .reportIds
  others : ∀ f x, (f, .list x) ∈ c.given → f ≠ .reportIds →
    ∀ a, s.OnFile a → s.memory.incidents a .reportIds ≠ .list x

/-- A write of what is handed in to one object: no list gets into another field. -/
structure Memory.Rewrites (m : Memory F) (a : Nat) (given : List (Field × Ref F)) (m' : Memory F) : Prop where
  incidentCount : m'.incidentCount = m.incidentCount
  listCount : m'.listCount = m.listCount
  holds : ∀ {b f x}, m'.incidents b f = .list x → m.incidents b f = .list x ∨ b = a ∧ (f, .list x) ∈ given

namespace ObjectStore

/-- Where a list in a field comes from: it was there, or the call handed it in, or it is new. -/
inductive Source (s s' : ObjectStore F) (c : ObjectCall F) (a b : Nat) (f : Field) (x : Nat) : Prop
  | kept (h : s.OnFile b) (hx : s.memory.incidents b f = .list x)
  | handed (h : b = a) (hx : (f, .list x) ∈ c.given)
  | fresh (h : b = a) (hf : f = .reportIds) (hx : x = s.memory.listCount) (hlt : x < s'.memory.listCount)

/-- **Objects stay apart** where the lists in their fields come from a call that is apart. -/
theorem Separate.keeps {s s' : ObjectStore F} (hs : s.Separate) {c : ObjectCall F} (hc : c.Apart s) {a : Nat}
    (hdistinct : ∀ {id id' b}, s'.byId.get? id = some b → s'.byId.get? id' = some b → id = id')
    (hplaced : ∀ {b}, s'.OnFile b → b < s'.memory.incidentCount)
    (hcount : s.memory.listCount ≤ s'.memory.listCount)
    (hsource : ∀ {b f x}, s'.OnFile b → s'.memory.incidents b f = .list x → Source s s' c a b f x) :
    s'.Separate := by
  refine ⟨hdistinct, hplaced, fun hb hx => ?_, fun {b b' f x} hb hb' hx hx' => ?_⟩
  · cases hsource hb hx with
    | kept h hx => exact lt_of_lt_of_le (hs.allocated h hx) hcount
    | handed h hx => exact lt_of_lt_of_le (hc.allocated _ _ hx) hcount
    | fresh h hf hx hlt => exact hlt
  · cases hsource hb hx with
    | kept h hx =>
      cases hsource hb' hx' with
      | kept h' hx' => exact hs.unshared h h' hx hx'
      | handed h' hx' =>
        by_cases hf : f = .reportIds
        · subst hf
          exact absurd hx ((hc.reports x hx').1 b .reportIds h)
        · exact absurd hx (hc.others f x hx' hf b h)
      | fresh h' hf' hx' hlt => exact absurd (hs.allocated h hx) (by omega)
    | handed h hx =>
      cases hsource hb' hx' with
      | kept h' hx' => exact absurd hx' ((hc.reports x hx).1 b' f h')
      | handed h' hx' => exact ⟨h'.trans h.symm, (hc.reports x hx).2 f hx'⟩
      | fresh h' hf' hx' hlt => exact absurd (hc.allocated _ _ hx) (by omega)
    | fresh h hf hx hlt =>
      cases hsource hb' hx' with
      | kept h' hx' => exact absurd (hs.allocated h' hx') (by omega)
      | handed h' hx' => exact absurd (hc.allocated _ _ hx') (by omega)
      | fresh h' hf' hx' hlt => exact ⟨h'.trans h.symm, hf'⟩

/-- A call that writes what it hands in to one object on file. -/
theorem Separate.rewrite {s : ObjectStore F} (hs : s.Separate) {c : ObjectCall F} (hc : c.Apart s) {a : Nat}
    {m : Memory F} (hm : s.memory.Rewrites a c.given m) : ({ s with memory := m } : ObjectStore F).Separate := by
  refine hs.keeps hc (a := a) hs.distinct (fun hb => ?_) hm.listCount.ge fun hb hx => ?_
  · exact lt_of_lt_of_eq (hs.placed hb) hm.incidentCount.symm
  · rcases hm.holds hx with hx | ⟨h, hx⟩
    · exact .kept hb hx
    · exact .handed h hx

end ObjectStore

/-! ## Lists in the fields after a write -/

theorem Attributes.bump_holds {o : Attributes F} {tick : Ref F} {f : Field} {x : Nat} (h : o.bump tick f = .list x) :
    o f = .list x ∨ (f, Ref.list x) = (.updatedTick, tick) := by
  rw [Attributes.bump_apply] at h
  split at h
  · next hf => exact .inr (by rw [hf.1, h])
  · exact .inl h

theorem Attributes.setAll_holds {o : Attributes F} {fields : OrdDict String (Ref F)} {f : Field} {x : Nat}
    (h : o.setAll fields f = .list x) : o f = .list x ∨ (f, .list x) ∈ named fields := by
  rw [Attributes.setAll_apply] at h
  cases hg : fields.get? f.name with
  | none =>
    rw [hg] at h
    exact .inl h
  | some r =>
    rw [hg] at h
    obtain rfl : r = .list x := h
    exact .inr (mem_named hg)

namespace Memory

theorem rewrites_write {m : Memory F} {a : Nat} {o : Attributes F} {given : List (Field × Ref F)}
    (ho : ∀ f x, o f = .list x → m.incidents a f = .list x ∨ (f, .list x) ∈ given) :
    m.Rewrites a given (m.write a o) := by
  refine ⟨rfl, rfl, fun {b f x} h => ?_⟩
  by_cases hb : b = a
  · subst hb
    have hself : (m.write b o).incidents b f = o f := congrFun (Function.update_self ..) f
    exact (ho f x (hself.symm.trans h)).imp_right fun h => ⟨rfl, h⟩
  · have hother : (m.write a o).incidents b f = m.incidents b f := congrFun (Function.update_of_ne hb ..) f
    exact .inl (hother.symm.trans h)

theorem rewrites_closed (m : Memory F) (a : Nat) (reason tick : Ref F) :
    m.Rewrites a [(.closeReason, reason), (.updatedTick, tick)] (m.closed reason tick a) := by
  refine rewrites_write fun f x ho => ?_
  rcases Attributes.bump_holds ho with ho | ho
  · rw [Function.update_apply, Function.update_apply] at ho
    split at ho
    · next hf => exact .inr (by rw [hf, ho]; exact List.mem_cons_self)
    · split at ho
      · cases ho
      · exact .inl ho
  · exact .inr (by rw [ho]; exact List.mem_cons_of_mem _ List.mem_cons_self)

variable [Runtime F]

theorem rewrites_updated {m m' : Memory F} {a : Nat} {tick : Ref F} {fields : OrdDict String (Ref F)}
    (h : m.updated tick fields a = .ok m') : m.Rewrites a ((.updatedTick, tick) :: named fields) m' := by
  have hm' : m' = m.write a (((m.incidents a).setAll fields).bump tick) := by
    unfold updated at h
    simp only [] at h
    split at h
    · cases h
    · cases hs : fields.get? "status" with
      | none =>
        rw [hs] at h
        exact (Except.ok.inj h).symm
      | some status =>
        rw [hs] at h
        obtain ⟨_, _, h⟩ := Except.bind_eq_ok.mp h
        exact (Except.ok.inj h).symm
  rw [hm']
  refine rewrites_write fun f x ho => ?_
  rcases Attributes.bump_holds ho with ho | ho
  · exact (Attributes.setAll_holds ho).imp_right (List.mem_cons_of_mem _)
  · exact .inr (by rw [ho]; exact List.mem_cons_self)

/-- `link` appends to a list that is in its field already. -/
theorem rewrites_linked {m m' : Memory F} {a : Nat} {reportId : Val F} {tick : Ref F}
    (h : m.linked reportId tick a = .ok m') : m.Rewrites a [(.updatedTick, tick)] m' := by
  obtain ⟨lists, rfl⟩ : ∃ lists, m' = { m.write a ((m.incidents a).bump tick) with lists := lists } := by
    unfold linked at h
    obtain ⟨known, _, h⟩ := Except.bind_eq_ok.mp h
    cases known with
    | true => exact ⟨m.lists, (Except.ok.inj h).symm⟩
    | false =>
      obtain ⟨m₁, happend, h⟩ := Except.bind_eq_ok.mp h
      obtain rfl := Except.ok.inj h
      unfold append at happend
      split at happend
      · obtain rfl := Except.ok.inj happend
        exact ⟨_, rfl⟩
      · cases happend
  have hwrite : m.Rewrites a [(.updatedTick, tick)] (m.write a ((m.incidents a).bump tick)) :=
    rewrites_write fun f x ho =>
      (Attributes.bump_holds ho).imp_right fun ho => by rw [ho]; exact List.mem_singleton_self _
  exact ⟨hwrite.incidentCount, hwrite.listCount, hwrite.holds⟩

end Memory

/-! ## New objects -/

namespace Memory

/-- The list of an argument is one there is. -/
def Allocated (m : Memory F) (r : Ref F) : Prop := ∀ x, r = .list x → x < m.listCount

theorem listCount_reportIds (m : Memory F) (fields : OrdDict String (Ref F)) :
    m.listCount ≤ (m.reportIds fields).2.listCount := by
  unfold reportIds
  split
  · exact Nat.le_refl _
  · exact Nat.le_succ _

/-- What there was is seen as before. -/
theorem read_reportIds {m : Memory F} {r : Ref F} (h : m.Allocated r) (fields : OrdDict String (Ref F)) :
    (m.reportIds fields).2.read r = m.read r := by
  unfold reportIds
  split
  · rfl
  · cases r with
    | value v hv => rfl
    | list x =>
      have hlt := h x rfl
      have hne : x ≠ m.listCount := by omega
      exact congrArg Val.list (Function.update_of_ne hne ..)

/-- Without an argument for it, a new list is in the field. -/
theorem reportIds_of_none {m : Memory F} {fields : OrdDict String (Ref F)} (h : fields.get? "report_ids" = none) :
    (m.reportIds fields).1 = .list m.listCount ∧ m.listCount < (m.reportIds fields).2.listCount ∧
      (m.reportIds fields).2.read (m.reportIds fields).1 = .list [] := by
  unfold reportIds
  rw [h]
  exact ⟨rfl, Nat.lt_succ_self _, congrArg Val.list (Function.update_self ..)⟩

section New

variable (m : Memory F) (id : String) (incidentType coords tick buildingId : Ref F) (fields : OrdDict String (Ref F))

theorem incidents_newIncident (b : Nat) :
    (m.newIncident id incidentType coords tick buildingId fields).2.incidents b =
      if b = m.incidentCount then
        (Attributes.fresh id incidentType coords tick buildingId (m.reportIds fields).1).setAll fields
      else m.incidents b := by
  have hincidents : (m.reportIds fields).2.incidents = m.incidents := by
    unfold reportIds
    split <;> rfl
  show Function.update (m.reportIds fields).2.incidents m.incidentCount _ b = _
  rw [hincidents, Function.update_apply]

variable {m}

/-- **The new object** is the record that `Incident(…)` makes of the values. -/
theorem look_newIncident
    (h : ∀ f r, (f, r) ∈ (ObjectCall.openIncident incidentType coords tick buildingId fields).given → m.Allocated r) :
    (m.newIncident id incidentType coords tick buildingId fields).2.look m.incidentCount =
      (Incident.fresh id (m.read incidentType) (m.read coords) (m.read tick) (m.read buildingId)).setAll
        (fields.map m.read) := by
  refine Incident.ext_get fun g => ?_
  rw [get_look, incidents_newIncident, if_pos rfl, Attributes.setAll_apply, Incident.get_setAll, OrdDict.get?_map]
  show (m.reportIds fields).2.read _ = _
  cases hg : fields.get? g.name with
  | some r => exact read_reportIds (h g r (List.mem_append_right _ (mem_named hg))) fields
  | none =>
    have harg : ∀ {f r}, (f, r) ∈ [(Field.incidentType, incidentType), (.coords, coords), (.createdTick, tick),
        (.updatedTick, tick), (.buildingId, buildingId)] → (m.reportIds fields).2.read r = m.read r :=
      fun hr => read_reportIds (h _ _ (List.mem_append_left _ hr)) fields
    cases g with
    | incidentType => exact harg (f := .incidentType) (r := incidentType) (by simp)
    | coords => exact harg (f := .coords) (r := coords) (by simp)
    | createdTick => exact harg (f := .createdTick) (r := tick) (by simp)
    | updatedTick => exact harg (f := .updatedTick) (r := tick) (by simp)
    | buildingId => exact harg (f := .buildingId) (r := buildingId) (by simp)
    | reportIds => exact (reportIds_of_none hg).2.2
    | incidentId => rfl
    | status => rfl
    | severity => rfl
    | closeReason => rfl
    | notes => rfl

/-- Other objects are seen as before. -/
theorem look_newIncident_of_ne {b : Nat} (hb : b ≠ m.incidentCount)
    (h : ∀ f, m.Allocated (m.incidents b f)) :
    (m.newIncident id incidentType coords tick buildingId fields).2.look b = m.look b := by
  refine Incident.ext_get fun g => ?_
  rw [get_look, get_look, incidents_newIncident, if_neg hb]
  exact read_reportIds (h g) fields

/-- The lists it holds were handed in, or made for it. -/
theorem newIncident_holds {f : Field} {x : Nat}
    (h : (m.newIncident id incidentType coords tick buildingId fields).2.incidents m.incidentCount f = .list x) :
    (f, .list x) ∈ (ObjectCall.openIncident incidentType coords tick buildingId fields).given ∨
      f = .reportIds ∧ x = m.listCount ∧ x < (m.reportIds fields).2.listCount := by
  rw [incidents_newIncident, if_pos rfl, Attributes.setAll_apply] at h
  cases hg : fields.get? f.name with
  | some r =>
    rw [hg] at h
    obtain rfl : r = .list x := h
    exact .inl (List.mem_append_right _ (mem_named hg))
  | none =>
    rw [hg] at h
    cases f with
    | incidentType =>
      obtain rfl : incidentType = .list x := h
      exact .inl (by simp [ObjectCall.given])
    | coords =>
      obtain rfl : coords = .list x := h
      exact .inl (by simp [ObjectCall.given])
    | createdTick =>
      obtain rfl : tick = .list x := h
      exact .inl (by simp [ObjectCall.given])
    | updatedTick =>
      obtain rfl : tick = .list x := h
      exact .inl (by simp [ObjectCall.given])
    | buildingId =>
      obtain rfl : buildingId = .list x := h
      exact .inl (by simp [ObjectCall.given])
    | reportIds =>
      obtain ⟨hlist, hlt, -⟩ := reportIds_of_none hg
      obtain rfl := Ref.list.inj (hlist.symm.trans h)
      exact .inr ⟨rfl, rfl, hlt⟩
    | incidentId => cases h
    | status => cases h
    | severity => cases h
    | closeReason => cases h
    | notes => cases h

end New

end Memory

/-! ## Calls on an object -/

namespace ObjectStore

variable [Runtime F]

/-- A mutator raises and changes nothing, or operates on an object on file. -/
theorem act_cases (s : ObjectStore F) (incidentId : Ref F) (f : Nat → Except Exc (Memory F)) :
    (∃ e, s.act incidentId f = (.error e, s)) ∨
      ∃ id a m, s.byId.get? id = some a ∧ f a = .ok m ∧ s.act incidentId f = (.ok a, { s with memory := m }) := by
  unfold act
  cases (s.memory.read incidentId).requireHash with
  | error e => exact .inl ⟨e, rfl⟩
  | ok u =>
    cases ha : s.addressOf (s.memory.read incidentId) with
    | none => exact .inl ⟨_, rfl⟩
    | some a =>
      obtain ⟨id, -, hid⟩ := exists_str_of_addressOf ha
      simp only []
      cases hf : f a with
      | error e => exact .inl ⟨e, rfl⟩
      | ok m => exact .inr ⟨id, a, m, hid, hf, rfl⟩

/-- An `open` whose arguments bind. -/
def opened (s : ObjectStore F) (incidentType coords tick buildingId : Ref F) (fields : OrdDict String (Ref F)) :
    ObjectStore F :=
  let p := s.memory.newIncident (incId (s.seq + 1)) incidentType coords tick buildingId fields
  { byId := s.byId.insert (incId (s.seq + 1)) p.1, seq := s.seq + 1, memory := p.2 }

omit [Runtime F] in
theorem exec_openIncident (incidentType coords tick buildingId : Ref F) (fields : OrdDict String (Ref F))
    (s : ObjectStore F) :
    (openIncident incidentType coords tick buildingId fields).exec s =
      match bindOwn "IncidentStore.open" openParams (fields.map s.memory.read) with
      | .error e => (.error e, s)
      | .ok () =>
        if "status" ∈ fields.keys then
          (.error ⟨.valueError, "open() always creates an open incident; use close() to retire one"⟩, s)
        else match newIncident (incId (s.seq + 1)) .none .none .none .none (fields.map s.memory.read) with
          | .error e => (.error e, { s with seq := s.seq + 1 })
          | .ok _ => (.ok s.memory.incidentCount, s.opened incidentType coords tick buildingId fields) := by
  simp only [openIncident, Py.exec_bind, Py.exec_lift, Py.exec_get]
  cases bindOwn "IncidentStore.open" openParams (fields.map s.memory.read) with
  | error e => rfl
  | ok u =>
    by_cases hs : "status" ∈ fields.keys
    · simp only [if_pos hs]
      rfl
    · simp only [if_neg hs, Py.exec_bind, Py.exec_modify, Py.exec_get, Py.exec_lift]
      cases newIncident (incId (s.seq + 1)) .none .none .none .none (fields.map s.memory.read) <;> rfl

omit [Runtime F] in
/-- Whether the arguments of `Incident(…)` bind depends on their names. -/
theorem newIncident_eq_map (id : String) (incidentType coords tick buildingId : Val F) (fields : Dict F) :
    newIncident id incidentType coords tick buildingId fields =
      (newIncident id .none .none .none .none fields).map fun _ =>
        (Incident.fresh id incidentType coords tick buildingId).setAll fields := by
  unfold newIncident
  split
  · rfl
  · split <;> rfl

omit [Runtime F] in
theorem get?_opened (s : ObjectStore F) (incidentType coords tick buildingId : Ref F)
    (fields : OrdDict String (Ref F)) (id : String) :
    (s.opened incidentType coords tick buildingId fields).byId.get? id =
      if id = incId (s.seq + 1) then some s.memory.incidentCount else s.byId.get? id := OrdDict.get?_insert ..

omit [Runtime F] in
/-- The objects on file after `open`: those before, at other addresses, and the new one. -/
theorem onFile_opened {s : ObjectStore F} {incidentType coords tick buildingId : Ref F}
    {fields : OrdDict String (Ref F)} {b : Nat}
    (h : (s.opened incidentType coords tick buildingId fields).OnFile b) :
    b = s.memory.incidentCount ∨ s.OnFile b := by
  obtain ⟨id, hid⟩ := h
  rw [get?_opened] at hid
  split at hid
  · exact .inl (Option.some.inj hid).symm
  · exact .inr ⟨id, hid⟩

omit [Runtime F] in
/-- **`open` keeps the objects apart.** -/
theorem Separate.opened {s : ObjectStore F} (hs : s.Separate) {incidentType coords tick buildingId : Ref F}
    {fields : OrdDict String (Ref F)}
    (hc : (ObjectCall.openIncident incidentType coords tick buildingId fields).Apart s) :
    (s.opened incidentType coords tick buildingId fields).Separate := by
  have hnew : ∀ {id}, s.byId.get? id ≠ some s.memory.incidentCount :=
    fun {id} h => Nat.lt_irrefl _ (hs.placed ⟨id, h⟩)
  refine hs.keeps hc (a := s.memory.incidentCount) (fun {id id' b} hb hb' => ?_) (fun {b} hb => ?_)
    (Memory.listCount_reportIds ..) fun {b f x} hb hx => ?_
  · rw [get?_opened] at hb hb'
    split at hb
    · next hid =>
      split at hb'
      · next hid' => rw [hid, hid']
      · exact absurd (hb'.trans hb.symm) hnew
    · split at hb'
      · exact absurd (hb.trans hb'.symm) hnew
      · exact hs.distinct hb hb'
  · show b < s.memory.incidentCount + 1
    rcases onFile_opened hb with rfl | hb
    · exact Nat.lt_succ_self _
    · exact Nat.lt_succ_of_lt (hs.placed hb)
  · rcases onFile_opened hb with rfl | hb
    · rcases Memory.newIncident_holds _ _ _ _ _ _ hx with hx | ⟨hf, hx, hlt⟩
      · exact .handed rfl hx
      · exact .fresh rfl hf hx hlt
    · refine .kept hb (Eq.trans ?_ hx)
      show _ = (s.memory.newIncident (incId (s.seq + 1)) incidentType coords tick buildingId fields).2.incidents b f
      rw [Memory.incidents_newIncident, if_neg (hs.placed hb).ne]

omit [Runtime F] in
/-- What one sees of `open`: a record is appended. -/
theorem abs_opened {s : ObjectStore F} (hs : s.Separate) {incidentType coords tick buildingId : Ref F}
    {fields : OrdDict String (Ref F)}
    (hc : (ObjectCall.openIncident incidentType coords tick buildingId fields).Apart s) :
    (s.opened incidentType coords tick buildingId fields).memory.look s.memory.incidentCount =
        (Incident.fresh (incId (s.seq + 1)) (s.memory.read incidentType) (s.memory.read coords) (s.memory.read tick)
          (s.memory.read buildingId)).setAll (fields.map s.memory.read) ∧
      (s.opened incidentType coords tick buildingId fields).abs =
        { byId := s.abs.byId.insert (incId (s.seq + 1))
            ((s.opened incidentType coords tick buildingId fields).memory.look s.memory.incidentCount),
          seq := s.seq + 1 } := by
  have hallocated : ∀ f r, (f, r) ∈ (ObjectCall.openIncident incidentType coords tick buildingId fields).given →
      s.memory.Allocated r := by
    rintro f _ hr x rfl
    exact hc.allocated f x hr
  refine ⟨Memory.look_newIncident _ _ _ _ _ _ hallocated, congrArg (IncidentStore.mk · (s.seq + 1)) ?_⟩
  refine OrdDict.map_insert _ fun id b _ hb => ?_
  have hfile : s.OnFile b := ⟨id, hb⟩
  exact Memory.look_newIncident_of_ne _ _ _ _ _ _ (hs.placed hfile).ne fun f x hx => hs.allocated hfile hx

/-! ## Runs -/

/-- **What a call does**, in four cases: nothing; the counter advances; an object is made; what the call hands in is
written to one object. -/
theorem step_cases (s : ObjectStore F) (c : ObjectCall F) :
    (∃ e, s.step c = (.error e, s)) ∨
    (∃ e, s.step c = (.error e, { s with seq := s.seq + 1 })) ∨
    (∃ incidentType coords tick buildingId fields, c = .openIncident incidentType coords tick buildingId fields ∧
      s.step c = (.ok s.memory.incidentCount, s.opened incidentType coords tick buildingId fields)) ∨
    ∃ id a m, s.byId.get? id = some a ∧ s.memory.Rewrites a c.given m ∧
      s.step c = (.ok a, { s with memory := m }) := by
  have hact : ∀ incidentId f, (∀ a m, f a = .ok m → s.memory.Rewrites a c.given m) →
      (∃ e, s.act incidentId f = (.error e, s)) ∨ ∃ id a m, s.byId.get? id = some a ∧
        s.memory.Rewrites a c.given m ∧ s.act incidentId f = (.ok a, { s with memory := m }) := by
    intro incidentId f hf
    refine (s.act_cases incidentId f).imp_right ?_
    rintro ⟨id, a, m, hid, hm, hexec⟩
    exact ⟨id, a, m, hid, hf a m hm, hexec⟩
  unfold step ObjectCall.method
  cases c with
  | openIncident incidentType coords tick buildingId fields =>
    simp only []
    rw [exec_openIncident]
    cases bindOwn "IncidentStore.open" openParams (fields.map s.memory.read) with
    | error e => exact .inl ⟨e, rfl⟩
    | ok u =>
      by_cases hstatus : "status" ∈ fields.keys
      · exact .inl ⟨_, if_pos hstatus⟩
      · simp only [if_neg hstatus]
        cases newIncident (incId (s.seq + 1)) .none .none .none .none (fields.map s.memory.read) with
        | error e => exact .inr (.inl ⟨e, rfl⟩)
        | ok i => exact .inr (.inr (.inl ⟨_, _, _, _, _, rfl, rfl⟩))
  | update incidentId tick fields =>
    simp only []
    rw [exec_update]
    cases bindOwn "IncidentStore.update" updateParams (fields.map s.memory.read) with
    | error e => exact .inl ⟨e, rfl⟩
    | ok u =>
      exact (hact incidentId _ fun a m hm => Memory.rewrites_updated hm).imp_right fun h => .inr (.inr h)
  | link incidentId reportId tick =>
    simp only []
    rw [exec_link]
    exact (hact incidentId _ fun a m hm => Memory.rewrites_linked hm).imp_right fun h => .inr (.inr h)
  | close incidentId reason tick =>
    simp only []
    rw [exec_close]
    refine (hact incidentId _ fun a m hm => ?_).imp_right fun h => .inr (.inr h)
    obtain rfl := Except.ok.inj hm
    exact Memory.rewrites_closed ..

/-- **A call keeps the objects apart.** -/
theorem separate_step {s : ObjectStore F} (hs : s.Separate) {c : ObjectCall F} (hc : c.Apart s) :
    (s.step c).2.Separate := by
  rcases s.step_cases c with ⟨e, he⟩ | ⟨e, he⟩ | ⟨_, _, _, _, _, rfl, he⟩ | ⟨id, a, m, -, hm, he⟩
  · rw [he]
    exact hs
  · rw [he]
    exact ⟨hs.distinct, hs.placed, hs.allocated, hs.unshared⟩
  · rw [he]
    exact hs.opened hc
  · rw [he]
    exact hs.rewrite hc hm

/-- **A call on objects is a call on values** to who looks at the store. -/
theorem abs_step {s : ObjectStore F} (hs : s.Separate) {c : ObjectCall F} (hc : c.Apart s) :
    s.abs.step (c.seen s.memory) = ((s.step c).1.map (s.step c).2.memory.look, (s.step c).2.abs) := by
  unfold step IncidentStore.step ObjectCall.method ObjectCall.seen IncidentCall.method
  cases c with
  | openIncident incidentType coords tick buildingId fields =>
    simp only []
    rw [exec_openIncident, IncidentStore.exec_openIncident, OrdDict.keys_map, newIncident_eq_map]
    have hseq : s.abs.seq = s.seq := rfl
    rw [hseq]
    cases bindOwn "IncidentStore.open" openParams (fields.map s.memory.read) with
    | error e => rfl
    | ok u =>
      by_cases hstatus : "status" ∈ fields.keys
      · simp only [if_pos hstatus]
        rfl
      · simp only [if_neg hstatus]
        cases newIncident (incId (s.seq + 1)) .none .none .none .none (fields.map s.memory.read) with
        | error e => rfl
        | ok i =>
          obtain ⟨hlook, habs⟩ := abs_opened hs hc
          simp only [Except.map]
          rw [habs, hlook]
  | update incidentId tick fields =>
    simp only []
    rw [exec_update, IncidentStore.exec_update]
    cases bindOwn "IncidentStore.update" updateParams (fields.map s.memory.read) with
    | error e => rfl
    | ok u => exact abs_act hs incidentId fun a _ => follows_update s a tick fields
  | link incidentId reportId tick =>
    simp only []
    rw [exec_link, IncidentStore.exec_link]
    refine abs_act hs incidentId fun a ha => follows_link hs ha reportId ?_
    rintro x rfl
    exact hc.others .updatedTick x List.mem_cons_self (by decide) a ha
  | close incidentId reason tick =>
    simp only []
    rw [exec_close, IncidentStore.exec_close]
    exact abs_act hs incidentId fun a _ => follows_close s a reason tick

/-- The store over values, as a specification of the store with its objects. -/
def refinement : Runs.Refines (step (F := F)) (IncidentStore.step (F := F)) where
  abs := abs
  input s c := c.seen s.memory
  answer s r := r.map s.memory.look
  Inv s := s.Separate ∧ s.abs.Minted
  Good s c := c.Apart s
  keeps {s c} hs hc := by
    refine ⟨separate_step hs.1 hc, ?_⟩
    have hminted := IncidentStore.minted_step hs.2 (c.seen s.memory)
    rw [abs_step hs.1 hc] at hminted
    exact hminted
  commutes hs hc := abs_step hs.1 hc

/-! ## References -/

/-- The address of an incident does not change. -/
theorem get?_step {s : ObjectStore F} (hs : s.abs.Minted) (c : ObjectCall F) {id : String} {a : Nat}
    (ha : s.byId.get? id = some a) : (s.step c).2.byId.get? id = some a := by
  rcases s.step_cases c with ⟨e, he⟩ | ⟨e, he⟩ | ⟨_, _, _, _, _, -, he⟩ | ⟨id', b, m, -, -, he⟩
  · rw [he]
    exact ha
  · rw [he]
    exact ha
  · have hnext : (s.byId.get? (incId (s.seq + 1))).map s.memory.look = none :=
      (OrdDict.get?_map ..).symm.trans hs.get?_next
    have hne : id ≠ incId (s.seq + 1) := by
      rintro rfl
      rw [ha] at hnext
      cases hnext
    rw [he, get?_opened, if_neg hne]
    exact ha
  · rw [he]
    exact ha

/-- The object that a call returns is on file. -/
theorem onFile_of_step {s : ObjectStore F} {c : ObjectCall F} {a : Nat} (h : (s.step c).1 = .ok a) :
    (s.step c).2.OnFile a := by
  rcases s.step_cases c with ⟨e, he⟩ | ⟨e, he⟩ | ⟨_, _, _, _, _, -, he⟩ | ⟨id, b, m, hid, -, he⟩
  · rw [he] at h
    cases h
  · rw [he] at h
    cases h
  · rw [he] at h ⊢
    obtain rfl := Except.ok.inj h
    exact ⟨incId (s.seq + 1), by rw [get?_opened, if_pos rfl]⟩
  · rw [he] at h ⊢
    obtain rfl := Except.ok.inj h
    exact ⟨id, hid⟩

theorem get?_final (calls : List (ObjectCall F)) : ∀ {s : ObjectStore F}, refinement.Inv s →
    refinement.GoodAlong s calls → ∀ {id : String} {a : Nat}, s.byId.get? id = some a →
      (Runs.final step s calls).byId.get? id = some a := by
  induction calls with
  | nil => exact fun _ _ _ _ ha => ha
  | cons c calls ih =>
    intro s hs hc id a ha
    obtain ⟨hgood, hrest⟩ := hc
    exact ih (refinement.keeps hs hgood) hrest (get?_step hs.2 c ha)

theorem inv_new (m : Memory F) : refinement.Inv (new m) := by
  have hempty : ∀ {a}, ¬ (new m).OnFile a := by
    rintro a ⟨id, hid⟩
    cases hid
  refine ⟨⟨nofun, ?_, ?_, ?_⟩, IncidentStore.Minted.empty⟩
  · exact fun h => absurd h hempty
  · exact fun h => absurd h hempty
  · exact fun h => absurd h hempty

/-- **Objects are values**, over every run of calls that hand in their lists apart, in any memory. To who looks at it,
the store answers as the one over values does and ends in what that one ends in; and an object that a call returned is,
at the end of the run, the record of its incident. -/
theorem objects_of_run (m : Memory F) {calls : List (ObjectCall F)} (h : refinement.GoodAlong (new m) calls) :
    let s := Runs.final step (new m) calls
    let seen := refinement.inputs (new m) calls
    Runs.run IncidentStore.step .empty seen = (refinement.outputs (new m) calls, s.abs) ∧
      ∀ pre c post a, calls = pre ++ c :: post → ((Runs.final step (new m) pre).step c).1 = .ok a →
        ∃ id, ((Runs.final step (new m) (pre ++ [c])).memory.look a).incidentId = .str id ∧
          (Runs.final IncidentStore.step .empty seen).byId.get? id = some (s.memory.look a) := by
  have hrun := (refinement.run calls (inv_new m) h).2
  refine ⟨hrun, ?_⟩
  rintro pre c post a rfl ha
  obtain ⟨hpre, hgood, hpost⟩ := refinement.goodAlong_append.mp h
  have hinv := (refinement.run pre (inv_new m) hpre).1
  have hnext := refinement.keeps hinv hgood
  obtain ⟨id, hid⟩ := onFile_of_step ha
  rw [Runs.final_append]
  refine ⟨id, hnext.2.keyed ?_, ?_⟩
  · exact (OrdDict.get?_map ..).trans (congrArg (Option.map _) hid)
  · have hend := get?_final post hnext hpost hid
    have hfinal := congrArg Prod.snd hrun
    rw [Runs.final_append] at hfinal
    refine (congrArg (fun s : IncidentStore F => s.byId.get? id) hfinal).trans ?_
    rw [Runs.final_append]
    exact (OrdDict.get?_map ..).trans (congrArg (Option.map _) hend)

omit [Runtime F] in
/-- A call without lists is apart. -/
theorem apart_of_values {s : ObjectStore F} {c : ObjectCall F} (h : ∀ f x, (f, .list x) ∉ c.given) : c.Apart s where
  allocated f x hx := absurd hx (h f x)
  reports x hx := absurd hx (h _ x)
  others f x hx := absurd hx (h f x)

/-- A memory with one list of reports. -/
def oneList : Memory Whole where
  incidents _ _ := .value .none rfl
  lists _ := [.str "c9"]
  incidentCount := 0
  listCount := 1

/-- A fire with the list for its reports. -/
def openListed : ObjectCall Whole :=
  .openIncident (.str "fire") (.value (.tuple [.int 3, .int 4]) rfl) (.value (.int 1) rfl)
    (.value .none rfl) (.ofList [("report_ids", .list 0)])

/-- A report linked to the first incident. -/
def linkFirst : ObjectCall Whole := .link (.str "inc-1") (.str "c10") (.value (.int 2) rfl)

theorem objects_of_run_linked :
    (Runs.final IncidentStore.step .empty (refinement.inputs (new oneList) [openListed, linkFirst])).byId.get? "inc-1" =
      some ((Runs.final step (new oneList) [openListed, linkFirst]).memory.look 0) := by
  have hgiven : openListed.given = [(.incidentType, .str "fire"),
      (.coords, .value (.tuple [.int 3, .int 4]) rfl), (.createdTick, .value (.int 1) rfl),
      (.updatedTick, .value (.int 1) rfl), (.buildingId, .value .none rfl), (.reportIds, .list 0)] := rfl
  have hlist : ∀ f x, (f, Ref.list x) ∈ openListed.given → f = .reportIds ∧ x = 0 := by
    intro f x hx
    simpa [hgiven, Ref.str] using hx
  have hempty : ∀ a, ¬ (new oneList).OnFile a := by
    rintro a ⟨id, hid⟩
    cases hid
  have hopen : openListed.Apart (new oneList) := by
    refine ⟨fun f x hx => ?_, fun x hx => ⟨fun a f ha => absurd ha (hempty a), fun f hf => (hlist f x hf).1⟩,
      fun f x hx hf => absurd (hlist f x hx).1 hf⟩
    rw [(hlist f x hx).2]
    exact Nat.zero_lt_one
  have hlink : linkFirst.Apart ((new oneList).step openListed).2 := by
    refine apart_of_values fun f x hx => ?_
    simp [linkFirst, ObjectCall.given] at hx
  have hgood : refinement.GoodAlong (new oneList) [openListed, linkFirst] := ⟨hopen, hlink, trivial⟩
  obtain ⟨id, hid, hfinal⟩ := (objects_of_run oneList hgood).2 [] openListed [linkFirst] 0 rfl rfl
  obtain rfl : "inc-1" = id := Val.str.inj hid
  exact hfinal

/-- A list that is handed in twice is the reports of both incidents. -/
example : ((Runs.final step (new oneList) [openListed, openListed, linkFirst]).memory.look 1).reportIds =
    .list [.str "c9", .str "c10"] := rfl

end ObjectStore

end HadrAgent
