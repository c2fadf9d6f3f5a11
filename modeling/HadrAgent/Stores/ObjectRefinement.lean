import HadrAgent.Stores.Objects

/-!
# Objects and values

To who looks at the store, a mutator on objects is the one on values (`abs_act`), if what it changes is seen in one
record only. For `link`, which changes a list, this takes objects that are apart (`Separate`).
-/

namespace HadrAgent

variable {F : Type}

theorem Incident.get_ofFields (v : Field → Val F) (g : Field) : (Incident.ofFields v).get g = v g := by
  cases g <;> rfl

theorem Incident.ext_get {i j : Incident F} (h : ∀ g, i.get g = j.get g) : i = j := by
  cases i
  cases j
  simp only [Incident.mk.injEq]
  exact ⟨h .incidentId, h .incidentType, h .coords, h .status, h .reportIds, h .createdTick, h .updatedTick,
    h .buildingId, h .severity, h .closeReason, h .notes⟩

/-! ## Attributes after writes -/

namespace Attributes

theorem setattr_apply (o : Attributes F) (name : String) (r : Ref F) (g : Field) :
    o.setattr name r g = if g.name = name then r else o g := by
  unfold setattr
  cases h : Field.ofName? name with
  | none =>
    have hne : g.name ≠ name := fun e => by
      rw [← e, Field.ofName?_name] at h
      cases h
    rw [if_neg hne]
  | some f =>
    obtain rfl := Field.name_of_ofName? h
    simp only [Function.update_apply, Field.name_injective.eq_iff]

theorem foldl_setattr_apply (g : Field) : ∀ (l : List (String × Ref F)) (o : Attributes F), (l.map Prod.fst).Nodup →
    l.foldl (fun o p => setattr o p.1 p.2) o g = (l.lookup g.name).getD (o g)
  | [], _, _ => rfl
  | (k, r) :: l, o, hn => by
    obtain ⟨hk, hl⟩ := List.nodup_cons.mp hn
    rw [List.foldl_cons, foldl_setattr_apply g l _ hl, setattr_apply, OrdDict.lookup_cons_ite]
    by_cases e : g.name = k
    · rw [if_pos e, if_pos e, OrdDict.lookup_eq_none_iff_notMem.mpr (e ▸ hk)]
      rfl
    · rw [if_neg e, if_neg e]

theorem setAll_apply (o : Attributes F) (fields : OrdDict String (Ref F)) (g : Field) :
    o.setAll fields g = (fields.get? g.name).getD (o g) := foldl_setattr_apply g fields.items o fields.nodup

theorem bump_apply (o : Attributes F) (tick : Ref F) (g : Field) :
    o.bump tick g = if g = .updatedTick ∧ tick.isNone = false then tick else o g := by
  unfold bump
  cases tick.isNone with
  | true => simp
  | false => simp [Function.update_apply]

end Attributes

/-! ## What one sees of a write -/

namespace Memory

theorem isNone_read (m : Memory F) (r : Ref F) : (m.read r).isNone = r.isNone := by
  cases r <;> rfl

theorem get_look (m : Memory F) (a : Nat) (g : Field) : (m.look a).get g = m.read (m.incidents a g) :=
  Incident.get_ofFields ..

theorem look_write_self (m : Memory F) (a : Nat) (o : Attributes F) :
    (m.write a o).look a = Incident.ofFields fun g => m.read (o g) := by
  refine Incident.ext_get fun g => ?_
  rw [get_look, Incident.get_ofFields]
  show m.read (Function.update m.incidents a o a g) = _
  rw [Function.update_self]

theorem look_write_of_ne (m : Memory F) {a b : Nat} (o : Attributes F) (h : b ≠ a) :
    (m.write a o).look b = m.look b := by
  refine Incident.ext_get fun g => ?_
  rw [get_look, get_look]
  show m.read (Function.update m.incidents a o b g) = _
  rw [Function.update_of_ne h]

/-- A tick that is written to the attributes is written to the record. -/
theorem look_bump (m : Memory F) (o : Attributes F) (tick : Ref F) :
    (Incident.ofFields fun g => m.read (o.bump tick g)) =
      (Incident.ofFields fun g => m.read (o g)).bump (m.read tick) := by
  refine Incident.ext_get fun g => ?_
  rw [Incident.get_bump, Incident.get_ofFields, Incident.get_ofFields, Attributes.bump_apply, isNone_read]
  split <;> rfl

theorem look_setAll (m : Memory F) (o : Attributes F) (fields : OrdDict String (Ref F)) :
    (Incident.ofFields fun g => m.read (o.setAll fields g)) =
      (Incident.ofFields fun g => m.read (o g)).setAll (fields.map m.read) := by
  refine Incident.ext_get fun g => ?_
  rw [Incident.get_setAll, Incident.get_ofFields, Incident.get_ofFields, Attributes.setAll_apply, OrdDict.get?_map]
  cases fields.get? g.name <;> rfl

theorem look_update (m : Memory F) (a : Nat) (fields : OrdDict String (Ref F)) (tick : Ref F) :
    (m.write a (((m.incidents a).setAll fields).bump tick)).look a =
      ((m.look a).setAll (fields.map m.read)).bump (m.read tick) := by
  rw [look_write_self, look_bump, look_setAll]
  rfl

/-- `close`, after `_require`. -/
def closed (reason tick : Ref F) (m : Memory F) (a : Nat) : Memory F :=
  let o : Attributes F := Function.update (m.incidents a) .status (.str statusClosed)
  let o : Attributes F := Function.update o .closeReason reason
  m.write a (o.bump tick)

theorem look_closed (m : Memory F) (a : Nat) (reason tick : Ref F) :
    (m.closed reason tick a).look a = (m.look a).closed (m.read reason) (m.read tick) := by
  unfold closed
  rw [look_write_self, look_bump]
  refine congrArg (Incident.bump · _) (Incident.ext_get fun g => ?_)
  rw [Incident.get_ofFields]
  cases g <;> rfl

/-- A list that an object does not hold. -/
theorem look_append_of_notMem (m : Memory F) {a x : Nat} (l : List (Val F)) (h : ∀ g, m.incidents a g ≠ .list x) :
    ({ m with lists := Function.update m.lists x l } : Memory F).look a = m.look a := by
  refine Incident.ext_get fun g => ?_
  rw [get_look, get_look]
  show read _ (m.incidents a g) = _
  cases hr : m.incidents a g with
  | value v hv => rfl
  | list y =>
    have hne : y ≠ x := fun e => h g (e ▸ hr)
    exact congrArg Val.list (Function.update_of_ne hne ..)

/-- A list that an object holds in one field only. -/
theorem look_append_self (m : Memory F) {a x : Nat} (l : List (Val F)) (hx : m.incidents a .reportIds = .list x)
    (h : ∀ g, m.incidents a g = .list x → g = .reportIds) :
    ({ m with lists := Function.update m.lists x l } : Memory F).look a =
      { m.look a with reportIds := .list l } := by
  refine Incident.ext_get fun g => ?_
  rw [get_look]
  show read _ (m.incidents a g) = _
  by_cases hg : g = .reportIds
  · subst hg
    rw [hx]
    exact congrArg Val.list (Function.update_self ..)
  · have hsame : ({ m.look a with reportIds := Val.list l } : Incident F).get g = (m.look a).get g := by
      cases g <;> first | rfl | exact absurd rfl hg
    rw [hsame, get_look]
    cases hr : m.incidents a g with
    | value v hv => rfl
    | list y =>
      have hne : y ≠ x := fun e => hg (h g (e ▸ hr))
      exact congrArg Val.list (Function.update_of_ne hne ..)

/-- An argument that is not the list. -/
theorem read_append_of_ne (m : Memory F) {r : Ref F} {x : Nat} (l : List (Val F)) (h : r ≠ .list x) :
    ({ m with lists := Function.update m.lists x l } : Memory F).read r = m.read r := by
  cases r with
  | value v hv => rfl
  | list y =>
    have hne : y ≠ x := fun e => h (congrArg Ref.list e)
    exact congrArg Val.list (Function.update_of_ne hne ..)

variable [Runtime F]

/-- `update`, after `_require`. -/
def updated (tick : Ref F) (fields : OrdDict String (Ref F)) (m : Memory F) (a : Nat) : Except Exc (Memory F) :=
  let unknown := (fields.keys.filter (· ∉ fieldNames)).insertionSort (· ≤ ·)
  if unknown ≠ [] then
    .error ⟨.valueError, "unknown incident field(s): " ++ ", ".intercalate (unknown.map (Val.reprStr F))⟩
  else do
    match fields.get? "status" with
    | some status => checkStatus (m.read status)
    | none => .ok ()
    return m.write a (((m.incidents a).setAll fields).bump tick)

/-- `link`, after `_require`. -/
def linked (reportId : Val F) (tick : Ref F) (m : Memory F) (a : Nat) : Except Exc (Memory F) := do
  let reportIds := m.incidents a .reportIds
  let m ← if ← reportId.isIn (m.read reportIds) then .ok m else m.append reportIds reportId
  return m.write a ((m.incidents a).bump tick)

end Memory

namespace ObjectStore

/-! ## Objects apart -/

/-- The address of an object on file. -/
def OnFile (s : ObjectStore F) (a : Nat) : Prop := ∃ id, s.byId.get? id = some a

/-- The objects on file are apart: each has one key and an address of its own, and the list of its reports is in no
other field. -/
structure Separate (s : ObjectStore F) : Prop where
  distinct : ∀ {id id' a}, s.byId.get? id = some a → s.byId.get? id' = some a → id = id'
  placed : ∀ {a}, s.OnFile a → a < s.memory.incidentCount
  allocated : ∀ {a f x}, s.OnFile a → s.memory.incidents a f = .list x → x < s.memory.listCount
  unshared : ∀ {a b f x}, s.OnFile a → s.OnFile b → s.memory.incidents a .reportIds = .list x →
    s.memory.incidents b f = .list x → b = a ∧ f = .reportIds

/-- An operation on the object at `a` is one on the record to who looks at it, and he sees no other change. -/
def Follows (s : ObjectStore F) (a : Nat) : Except Exc (Memory F) → Except Exc (Incident F) → Prop
  | .ok m, .ok i => m.look a = i ∧ ∀ b, s.OnFile b → b ≠ a → m.look b = s.memory.look b
  | .error e, .error e' => e = e'
  | _, _ => False

theorem lookup_abs (s : ObjectStore F) (v : Val F) : s.abs.lookup v = (s.addressOf v).map s.memory.look := by
  cases v with
  | str id => exact OrdDict.get?_map ..
  | _ => rfl

theorem exists_str_of_addressOf {s : ObjectStore F} {v : Val F} {a : Nat} (h : s.addressOf v = some a) :
    ∃ id, v = .str id ∧ s.byId.get? id = some a := by
  cases v with
  | str id => exact ⟨id, rfl, h⟩
  | _ => cases h

/-- A write to one object on file, to who looks at the store. -/
theorem abs_write {s : ObjectStore F} (hs : s.Separate) {id : String} {a : Nat} (ha : s.byId.get? id = some a)
    {m : Memory F} (hm : ∀ b, s.OnFile b → b ≠ a → m.look b = s.memory.look b) :
    ({ s with memory := m } : ObjectStore F).abs =
      { s.abs with byId := s.abs.byId.insert id (m.look a) } := by
  have hmap : s.byId.map m.look = (s.byId.map s.memory.look).insert id (m.look a) := by
    rw [← OrdDict.map_insert (g := m.look) a, OrdDict.insert_eq_self ha]
    intro id' b hne hb
    exact hm b ⟨id', hb⟩ fun e => hne (hs.distinct hb (e ▸ ha))
  exact congrArg (IncidentStore.mk · s.seq) hmap

theorem follows_close (s : ObjectStore F) (a : Nat) (reason tick : Ref F) :
    s.Follows a (.ok (s.memory.closed reason tick a))
      (.ok ((s.memory.look a).closed (s.memory.read reason) (s.memory.read tick))) :=
  ⟨Memory.look_closed .., fun _ _ hne => Memory.look_write_of_ne _ _ hne⟩

variable [Runtime F]

/-! ## Calls -/

/-- A mutator on the object an id addresses. -/
def act (incidentId : Ref F) (f : Nat → Except Exc (Memory F)) (s : ObjectStore F) :
    Except Exc Nat × ObjectStore F :=
  match (s.memory.read incidentId).requireHash with
  | .error e => (.error e, s)
  | .ok () => match s.addressOf (s.memory.read incidentId) with
    | none => (.error ⟨.unknownIncidentError, (s.memory.read incidentId).toStr⟩, s)
    | some a => match f a with
      | .error e => (.error e, s)
      | .ok m => (.ok a, { s with memory := m })

theorem exec_require (incidentId : Ref F) (s : ObjectStore F) :
    (require incidentId).exec s = (match (s.memory.read incidentId).requireHash with
      | .error e => .error e
      | .ok () => match s.addressOf (s.memory.read incidentId) with
        | none => .error ⟨.unknownIncidentError, (s.memory.read incidentId).toStr⟩
        | some a => .ok a, s) := by
  simp only [require, Py.exec_bind, Py.exec_get, Py.exec_lift, ObjectStore.get]
  cases (s.memory.read incidentId).requireHash with
  | error e => rfl
  | ok u =>
    simp only [bind, Except.bind, pure, Except.pure]
    cases s.addressOf (s.memory.read incidentId) <;> rfl

theorem exec_close (incidentId reason tick : Ref F) (s : ObjectStore F) :
    (close incidentId reason tick).exec s = s.act incidentId fun a => .ok (s.memory.closed reason tick a) := by
  simp only [close, Py.exec_bind, exec_require, act, Py.exec_get, Py.exec_modify, Py.exec_pure]
  cases (s.memory.read incidentId).requireHash with
  | error e => rfl
  | ok u => cases s.addressOf (s.memory.read incidentId) <;> rfl

theorem exec_link (incidentId : Ref F) (reportId : Val F) (tick : Ref F) (s : ObjectStore F) :
    (link incidentId reportId tick).exec s = s.act incidentId (s.memory.linked reportId tick) := by
  simp only [link, Py.exec_bind, exec_require, act, Py.exec_get, Py.exec_lift, Memory.linked]
  cases (s.memory.read incidentId).requireHash with
  | error e => rfl
  | ok u =>
    cases s.addressOf (s.memory.read incidentId) with
    | none => rfl
    | some a =>
      simp only [bind, Except.bind]
      cases reportId.isIn (s.memory.read (s.memory.incidents a .reportIds)) with
      | error e => rfl
      | ok b =>
        cases b with
        | true => rfl
        | false =>
          simp only [Bool.false_eq_true, ↓reduceIte]
          cases s.memory.append (s.memory.incidents a .reportIds) reportId <;> rfl

theorem exec_update (incidentId tick : Ref F) (fields : OrdDict String (Ref F)) (s : ObjectStore F) :
    (update incidentId tick fields).exec s =
      match bindOwn "IncidentStore.update" updateParams (fields.map s.memory.read) with
      | .error e => (.error e, s)
      | .ok () => s.act incidentId (s.memory.updated tick fields) := by
  simp only [update, Py.exec_bind, Py.exec_get, Py.exec_lift, exec_require, act, Memory.updated]
  cases bindOwn "IncidentStore.update" updateParams (fields.map s.memory.read) with
  | error e => rfl
  | ok u =>
    simp only []
    cases (s.memory.read incidentId).requireHash with
    | error e => rfl
    | ok u =>
      cases s.addressOf (s.memory.read incidentId) with
      | none => rfl
      | some a =>
        simp only []
        by_cases hu : (fields.keys.filter (· ∉ fieldNames)).insertionSort (· ≤ ·) ≠ []
        · simp only [if_pos hu]
          rfl
        · simp only [if_neg hu]
          cases fields.get? "status" with
          | none => rfl
          | some status =>
            simp only [Py.exec_bind, Py.exec_lift, Py.exec_get]
            cases checkStatus (s.memory.read status) <;> rfl

/-- **A mutator on objects is one on values.** -/
theorem abs_act {s : ObjectStore F} (hs : s.Separate) (incidentId : Ref F) {f : Nat → Except Exc (Memory F)}
    {g : Incident F → Except Exc (Incident F)} (hfg : ∀ a, s.OnFile a → s.Follows a (f a) (g (s.memory.look a))) :
    s.abs.act (s.memory.read incidentId) g =
      ((s.act incidentId f).1.map (s.act incidentId f).2.memory.look, (s.act incidentId f).2.abs) := by
  unfold act IncidentStore.act
  cases (s.memory.read incidentId).requireHash with
  | error e => rfl
  | ok u =>
    simp only [lookup_abs]
    cases ha : s.addressOf (s.memory.read incidentId) with
    | none => rfl
    | some a =>
      obtain ⟨id, hid, hfile⟩ := exists_str_of_addressOf ha
      have hfollows := hfg a ⟨id, hfile⟩
      simp only [Option.map_some]
      cases hf : f a with
      | error e =>
        cases hg : g (s.memory.look a) with
        | error e' =>
          rw [hf, hg] at hfollows
          exact congrArg (fun e => (Except.error e, s.abs)) hfollows.symm
        | ok i =>
          rw [hf, hg] at hfollows
          exact hfollows.elim
      | ok m =>
        cases hg : g (s.memory.look a) with
        | error e' =>
          rw [hf, hg] at hfollows
          exact hfollows.elim
        | ok i =>
          rw [hf, hg] at hfollows
          obtain ⟨rfl, hframe⟩ := hfollows
          rw [hid]
          exact congrArg (Prod.mk _) (abs_write hs hfile hframe).symm

theorem follows_update (s : ObjectStore F) (a : Nat) (tick : Ref F) (fields : OrdDict String (Ref F)) :
    s.Follows a (s.memory.updated tick fields a)
      ((s.memory.look a).updated (s.memory.read tick) (fields.map s.memory.read)) := by
  unfold Memory.updated Incident.updated
  rw [OrdDict.keys_map, OrdDict.get?_map]
  by_cases hu : (fields.keys.filter (· ∉ fieldNames)).insertionSort (· ≤ ·) ≠ []
  · simp only [if_pos hu]
    rfl
  · simp only [if_neg hu]
    have hwrite : s.Follows a (.ok (s.memory.write a (((s.memory.incidents a).setAll fields).bump tick)))
        (.ok (((s.memory.look a).setAll (fields.map s.memory.read)).bump (s.memory.read tick))) :=
      ⟨Memory.look_update .., fun _ _ hne => Memory.look_write_of_ne _ _ hne⟩
    cases fields.get? "status" with
    | none => exact hwrite
    | some status =>
      simp only [Option.map_some]
      cases checkStatus (s.memory.read status) with
      | error e => exact (rfl : e = e)
      | ok u => exact hwrite

/-- `link` writes to a list that is in no other field, and is not its own argument. -/
theorem follows_link {s : ObjectStore F} (hs : s.Separate) {a : Nat} (ha : s.OnFile a) (reportId : Val F)
    {tick : Ref F} (htick : ∀ x, tick = .list x → s.memory.incidents a .reportIds ≠ .list x) :
    s.Follows a (s.memory.linked reportId tick a) ((s.memory.look a).linked reportId (s.memory.read tick)) := by
  have hreports : (s.memory.look a).reportIds = s.memory.read (s.memory.incidents a .reportIds) := rfl
  unfold Memory.linked Incident.linked
  rw [hreports]
  simp only [bind, Except.bind]
  cases reportId.isIn (s.memory.read (s.memory.incidents a .reportIds)) with
  | error e => exact (rfl : e = e)
  | ok linked =>
    cases linked with
    | true =>
      refine ⟨?_, fun _ _ hne => Memory.look_write_of_ne _ _ hne⟩
      rw [Memory.look_write_self, Memory.look_bump]
      rfl
    | false =>
      simp only [Bool.false_eq_true, ↓reduceIte]
      cases hr : s.memory.incidents a .reportIds with
      | value v hv =>
        have happend : IncidentStore.append v reportId =
            .error ⟨.attributeError, "'" ++ v.typeName ++ "' object has no attribute 'append'"⟩ := by
          cases v <;> first | rfl | cases hv
        simp only [Memory.append, Memory.read, happend]
        exact (rfl : Exc.mk _ _ = _)
      | list x =>
        have hself := Memory.look_append_self s.memory (s.memory.lists x ++ [reportId]) hr
          fun g hg => (hs.unshared ha ha hr hg).2
        have htick' := Memory.read_append_of_ne s.memory (s.memory.lists x ++ [reportId])
          fun e => htick x e hr
        refine ⟨?_, fun b hb hne => ?_⟩
        · rw [Memory.look_write_self, Memory.look_bump, htick']
          exact congrArg (Incident.bump · _) hself
        · rw [Memory.look_write_of_ne _ _ hne]
          exact Memory.look_append_of_notMem _ _ fun g hg => hne (hs.unshared ha hb hr hg).1

end ObjectStore

end HadrAgent
