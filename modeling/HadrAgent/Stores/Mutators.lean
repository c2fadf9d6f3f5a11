import HadrAgent.Stores.Incidents

/-!
# What the mutators do

- `exec_update`, `exec_link`, `exec_close`: after its arguments are bound, such a call is an operation on one record
  (`Incident.updated`, `linked`, `closed`), which fails before it writes;
- `exec_openIncident`: `open` appends a record under the next id, or raises;
- `newIncident_eq_ok`, `updated_eq_ok`, `linked_eq_ok`: the records they write.
-/

namespace HadrAgent

variable {F : Type}

/-- The lifecycle vocabulary. -/
def Val.LegalStatus (v : Val F) : Prop := v = .str statusOpen ∨ v = .str statusClosed

namespace Incident

/-- `close`, after `_require`. -/
def closed (reason tick : Val F) (i : Incident F) : Incident F :=
  { i with status := .str statusClosed, closeReason := reason }.bump tick

/-- A field after `close`. -/
theorem get_closed (reason tick : Val F) (i : Incident F) {g : Field} (hg : g ≠ .updatedTick) :
    (i.closed reason tick).get g =
      if g = .status then .str statusClosed else if g = .closeReason then reason else i.get g := by
  unfold closed
  rw [get_bump_of_ne _ tick hg]
  cases g <;> rfl

variable [Runtime F]

/-- `link`, after `_require`. -/
def linked (reportId tick : Val F) (i : Incident F) : Except Exc (Incident F) := do
  let reportIds ← if ← reportId.isIn i.reportIds then .ok i.reportIds else IncidentStore.append i.reportIds reportId
  return { i with reportIds := reportIds }.bump tick

/-- `update`, after `_require`. -/
def updated (tick : Val F) (fields : Dict F) (i : Incident F) : Except Exc (Incident F) :=
  let unknown := (fields.keys.filter (· ∉ fieldNames)).insertionSort (· ≤ ·)
  if unknown ≠ [] then
    .error ⟨.valueError, "unknown incident field(s): " ++ ", ".intercalate (unknown.map (Val.reprStr F))⟩
  else do
    match fields.get? "status" with
    | some status => checkStatus status
    | none => .ok ()
    return (i.setAll fields).bump tick

end Incident

section Checks

/-- A name that was searched for and not found. -/
theorem get?_eq_none_of_find? {fields : Dict F} {names : List String}
    (h : fields.keys.find? (· ∈ names) = none) {name : String} (hn : name ∈ names) : fields.get? name = none := by
  refine OrdDict.get?_eq_none.mpr ?_
  intro hm
  exact List.find?_eq_none.mp h name hm (by simpa using hn)

theorem bindOwn_eq_ok {callee : String} {own : List String} {fields : Dict F}
    (h : bindOwn callee own fields = .ok ()) {name : String} (hn : name ∈ own) : fields.get? name = none := by
  unfold bindOwn at h
  split at h
  · cases h
  · next hf => exact get?_eq_none_of_find? hf hn

theorem bindOwn_of_notMem {callee : String} {own : List String} {fields : Dict F}
    (h : ∀ name ∈ fields.keys, name ∉ own) : bindOwn callee own fields = .ok () := by
  have hf : fields.keys.find? (· ∈ own) = none := List.find?_eq_none.mpr fun name hn => by simpa using h name hn
  unfold bindOwn
  rw [hf]

variable [Runtime F]

/-- `_check_status` accepts the vocabulary. -/
theorem checkStatus_eq_ok {status : Val F} : checkStatus status = .ok () ↔ status.LegalStatus := by
  constructor
  · intro h
    obtain ⟨_, _, h⟩ := Except.bind_eq_ok.mp h
    split at h
    · exact .inl rfl
    · exact .inr rfl
    · cases h
  · rintro (rfl | rfl) <;> rfl

end Checks

/-- What `Incident(…)` builds: the defaults, overwritten by fields that name none of the arguments of `open`. -/
theorem newIncident_eq_ok {id : String} {incidentType coords tick buildingId : Val F} {fields : Dict F} {i : Incident F}
    (h : newIncident id incidentType coords tick buildingId fields = .ok i) :
    (∀ name ∈ openFills, fields.get? name = none) ∧
      i = (Incident.fresh id incidentType coords tick buildingId).setAll fields := by
  unfold newIncident at h
  split at h
  · cases h
  · next hf =>
    split at h
    · cases h
    · exact ⟨fun name hn => get?_eq_none_of_find? hf hn, (Except.ok.inj h).symm⟩

namespace Incident

variable [Runtime F]

/-- What `update` makes of a record when it does not raise. -/
theorem updated_eq_ok {tick : Val F} {fields : Dict F} {i i' : Incident F} (h : i.updated tick fields = .ok i') :
    (∀ status, fields.get? "status" = some status → status.LegalStatus) ∧
      i' = (i.setAll fields).bump tick := by
  unfold updated at h
  simp only [] at h
  split at h
  · cases h
  · cases hs : fields.get? "status" with
    | none =>
      rw [hs] at h
      refine ⟨?_, (Except.ok.inj h).symm⟩
      intro status h'
      cases h'
    | some status =>
      rw [hs] at h
      obtain ⟨_, hc, h⟩ := Except.bind_eq_ok.mp h
      refine ⟨?_, (Except.ok.inj h).symm⟩
      intro status' h'
      cases h'
      exact checkStatus_eq_ok.mp hc

/-- `update` does not raise on names of fields and a legal status. -/
theorem updated_of_known {fields : Dict F} (hn : ∀ name ∈ fields.keys, name ∈ fieldNames)
    (hs : ∀ status, fields.get? "status" = some status → status.LegalStatus) (tick : Val F) (i : Incident F) :
    i.updated tick fields = .ok ((i.setAll fields).bump tick) := by
  have hu : (fields.keys.filter (· ∉ fieldNames)).insertionSort (· ≤ ·) = [] := by
    rw [List.filter_eq_nil_iff.mpr fun name h => by simpa using hn name h]
    rfl
  unfold updated
  rw [hu]
  cases hf : fields.get? "status" with
  | none => rfl
  | some status =>
    simp only [checkStatus_eq_ok.mpr (hs status hf)]
    rfl

/-- A field after `update`. -/
theorem get_updated {tick : Val F} {fields : Dict F} {i i' : Incident F} (h : i.updated tick fields = .ok i')
    {g : Field} (hg : g ≠ .updatedTick) : i'.get g = (fields.get? g.name).getD (i.get g) := by
  obtain ⟨_, rfl⟩ := updated_eq_ok h
  rw [get_bump_of_ne _ tick hg, get_setAll]

/-- What `link` makes of a record when it does not raise. -/
theorem linked_eq_ok {reportId tick : Val F} {i i' : Incident F} (h : i.linked reportId tick = .ok i') :
    ∃ reportIds, i' = { i with reportIds := reportIds }.bump tick := by
  unfold linked at h
  obtain ⟨known, _, h⟩ := Except.bind_eq_ok.mp h
  cases known with
  | true => exact ⟨_, (Except.ok.inj h).symm⟩
  | false =>
    obtain ⟨reportIds, _, h⟩ := Except.bind_eq_ok.mp h
    exact ⟨reportIds, (Except.ok.inj h).symm⟩

/-- The frame of `link`: the list of reports and the tick. -/
theorem get_linked {reportId tick : Val F} {i i' : Incident F} (h : i.linked reportId tick = .ok i') {g : Field}
    (hg : g ≠ .updatedTick) (hr : g ≠ .reportIds) : i'.get g = i.get g := by
  obtain ⟨reportIds, rfl⟩ := linked_eq_ok h
  rw [get_bump_of_ne _ tick hg]
  cases g <;> first | rfl | exact absurd rfl hr

end Incident

namespace IncidentStore

theorem get_of_get? {s : IncidentStore F} {id : String} {i : Incident F} (h : s.byId.get? id = some i) :
    s.get (.str id) = .ok (some i) := congrArg Except.ok h

/-- The keys are strings. -/
theorem exists_str_of_lookup {s : IncidentStore F} {v : Val F} {i : Incident F} (h : s.lookup v = some i) :
    ∃ id, v = .str id ∧ s.byId.get? id = some i := by
  cases v with
  | str id => exact ⟨id, rfl, h⟩
  | _ => cases h

theorem lookup_of_unhashable {v : Val F} {e : Exc} (h : v.requireHash = .error e) (s : IncidentStore F) :
    s.lookup v = none := by
  cases v with
  | str id => cases h
  | _ => rfl

theorem get_of_hashable {incidentId : Val F} (h : incidentId.requireHash = .ok ()) (s : IncidentStore F) :
    s.get incidentId = .ok (s.lookup incidentId) := by
  unfold IncidentStore.get
  rw [h]
  rfl

theorem get_of_unhashable {incidentId : Val F} {e : Exc} (h : incidentId.requireHash = .error e)
    (s : IncidentStore F) : s.get incidentId = .error e := by
  unfold IncidentStore.get
  rw [h]
  rfl

theorem exists_str_of_get {s : IncidentStore F} {v : Val F} {i : Incident F} (h : s.get v = .ok (some i)) :
    ∃ id, v = .str id ∧ s.byId.get? id = some i := by
  cases hh : v.requireHash with
  | error e => rw [get_of_unhashable hh] at h; cases h
  | ok u =>
    rw [get_of_hashable hh] at h
    exact exists_str_of_lookup (Except.ok.inj h)

/-- `open` raises, with the counter as it was or advanced, or appends the record it returns under the next id. -/
theorem exec_openIncident (incidentType coords tick buildingId : Val F) (fields : Dict F) (s : IncidentStore F) :
    (openIncident incidentType coords tick buildingId fields).exec s =
      match bindOwn "IncidentStore.open" openParams fields with
      | .error e => (.error e, s)
      | .ok () =>
        if "status" ∈ fields.keys then
          (.error ⟨.valueError, "open() always creates an open incident; use close() to retire one"⟩, s)
        else match newIncident (incId (s.seq + 1)) incidentType coords tick buildingId fields with
          | .error e => (.error e, { s with seq := s.seq + 1 })
          | .ok i => (.ok i, { byId := s.byId.insert (incId (s.seq + 1)) i, seq := s.seq + 1 }) := by
  simp only [openIncident, Py.exec_bind, Py.exec_lift]
  cases bindOwn "IncidentStore.open" openParams fields with
  | error e => rfl
  | ok u =>
    by_cases hs : "status" ∈ fields.keys
    · simp only [if_pos hs]
      rfl
    · simp only [if_neg hs, Py.exec_bind, Py.exec_modify, Py.exec_get, Py.exec_lift]
      cases newIncident (incId (s.seq + 1)) incidentType coords tick buildingId fields <;> rfl

/-- The record a call of `open` returns: the defaults, overwritten by fields that name no argument and no status. -/
structure Opens (incidentType coords tick buildingId : Val F) (fields : Dict F) (id : String) (i : Incident F) :
    Prop where
  status : fields.get? "status" = none
  fills : ∀ name ∈ openFills, fields.get? name = none
  eq : i = (Incident.fresh id incidentType coords tick buildingId).setAll fields

/-- A field no keyword argument names is as `open` fills it. -/
theorem Opens.get_eq {incidentType coords tick buildingId : Val F} {fields : Dict F} {id : String} {i : Incident F}
    (h : Opens incidentType coords tick buildingId fields id i) {g : Field} (hg : fields.get? g.name = none) :
    i.get g = (Incident.fresh id incidentType coords tick buildingId).get g := by
  rw [h.eq, Incident.get_setAll, hg]
  rfl

theorem Opens.incidentId {incidentType coords tick buildingId : Val F} {fields : Dict F} {id : String} {i : Incident F}
    (h : Opens incidentType coords tick buildingId fields id i) : i.incidentId = .str id :=
  h.get_eq (g := .incidentId) (h.fills _ (by decide))

theorem Opens.status_eq {incidentType coords tick buildingId : Val F} {fields : Dict F} {id : String} {i : Incident F}
    (h : Opens incidentType coords tick buildingId fields id i) : i.status = .str statusOpen :=
  h.get_eq (g := .status) h.status

/-- **What `open` does**, in three cases: it raises at once; it raises after the counter advanced; it appends the record
it returns. -/
theorem openIncident_cases (incidentType coords tick buildingId : Val F) (fields : Dict F) (s : IncidentStore F) :
    (∃ e, (openIncident incidentType coords tick buildingId fields).exec s = (.error e, s)) ∨
    (∃ e, (openIncident incidentType coords tick buildingId fields).exec s = (.error e, { s with seq := s.seq + 1 })) ∨
    ∃ i, Opens incidentType coords tick buildingId fields (incId (s.seq + 1)) i ∧
      (openIncident incidentType coords tick buildingId fields).exec s =
        (.ok i, { byId := s.byId.insert (incId (s.seq + 1)) i, seq := s.seq + 1 }) := by
  rw [exec_openIncident]
  cases bindOwn "IncidentStore.open" openParams fields with
  | error e => exact .inl ⟨e, rfl⟩
  | ok u =>
    by_cases hs : "status" ∈ fields.keys
    · exact .inl ⟨_, if_pos hs⟩
    · simp only [if_neg hs]
      cases hi : newIncident (incId (s.seq + 1)) incidentType coords tick buildingId fields with
      | error e => exact .inr (.inl ⟨e, rfl⟩)
      | ok i =>
        obtain ⟨hf, he⟩ := newIncident_eq_ok hi
        exact .inr (.inr ⟨i, ⟨OrdDict.get?_eq_none.mpr hs, hf, he⟩, rfl⟩)

variable [Runtime F]

theorem exec_require (incidentId : Val F) (s : IncidentStore F) :
    (require incidentId).exec s = (match incidentId.requireHash with
      | .error e => .error e
      | .ok () => match s.lookup incidentId with
        | none => .error ⟨.unknownIncidentError, incidentId.toStr⟩
        | some i => .ok i, s) := by
  simp only [require, Py.exec_bind, Py.exec_get, Py.exec_lift, IncidentStore.get]
  cases incidentId.requireHash with
  | error e => rfl
  | ok u =>
    simp only [bind, Except.bind, pure, Except.pure]
    cases s.lookup incidentId <;> rfl

/-- A mutator on the record an id addresses: look it up, compute its new contents, write them back. -/
def act (incidentId : Val F) (f : Incident F → Except Exc (Incident F)) (s : IncidentStore F) :
    Except Exc (Incident F) × IncidentStore F :=
  match incidentId.requireHash with
  | .error e => (.error e, s)
  | .ok () => match s.lookup incidentId with
    | none => (.error ⟨.unknownIncidentError, incidentId.toStr⟩, s)
    | some i => match f i with
      | .error e => (.error e, s)
      | .ok i' => (.ok i', s.put incidentId i')

/-- An id that is no key: the call raises. -/
theorem act_of_lookup_eq_none {s : IncidentStore F} {incidentId : Val F} (h : s.lookup incidentId = none)
    (f : Incident F → Except Exc (Incident F)) :
    ∃ e, s.act incidentId f = (.error e, s) ∧
      (incidentId.requireHash = .ok () → e = ⟨.unknownIncidentError, incidentId.toStr⟩) := by
  unfold act
  cases hh : incidentId.requireHash with
  | error e => exact ⟨e, rfl, nofun⟩
  | ok u => exact ⟨_, by simp only [h], fun _ => rfl⟩

/-- A key: the call operates on its record. -/
theorem act_of_lookup {s : IncidentStore F} {id : String} {i : Incident F} (h : s.byId.get? id = some i)
    (f : Incident F → Except Exc (Incident F)) :
    s.act (.str id) f = (f i, match f i with
      | .ok i' => { s with byId := s.byId.insert id i' }
      | .error _ => s) := by
  have hl : s.lookup (.str id) = some i := h
  have hh : (Val.str id : Val F).requireHash = .ok () := rfl
  simp only [act, hl, hh]
  cases f i <;> rfl

theorem exec_close (incidentId reason tick : Val F) (s : IncidentStore F) :
    (close incidentId reason tick).exec s = s.act incidentId fun i => .ok (i.closed reason tick) := by
  simp only [close, Py.exec_bind, exec_require, act, Py.exec_modify, Py.exec_pure]
  cases incidentId.requireHash with
  | error e => rfl
  | ok u => cases s.lookup incidentId <;> rfl

theorem exec_link (incidentId reportId tick : Val F) (s : IncidentStore F) :
    (link incidentId reportId tick).exec s = s.act incidentId (Incident.linked reportId tick) := by
  simp only [link, Py.exec_bind, exec_require, act, Py.exec_lift, Incident.linked]
  cases incidentId.requireHash with
  | error e => rfl
  | ok u =>
    cases s.lookup incidentId with
    | none => rfl
    | some i =>
      simp only [bind, Except.bind]
      cases reportId.isIn i.reportIds with
      | error e => rfl
      | ok b =>
        cases b with
        | true => rfl
        | false =>
          simp only [Bool.false_eq_true, ↓reduceIte]
          cases append i.reportIds reportId <;> rfl

theorem exec_update (incidentId tick : Val F) (fields : Dict F) (s : IncidentStore F) :
    (update incidentId tick fields).exec s = match bindOwn "IncidentStore.update" updateParams fields with
      | .error e => (.error e, s)
      | .ok () => s.act incidentId (Incident.updated tick fields) := by
  simp only [update, Py.exec_bind, exec_require, act, Py.exec_lift, Incident.updated]
  cases bindOwn "IncidentStore.update" updateParams fields with
  | error e => rfl
  | ok u =>
    cases incidentId.requireHash with
    | error e => rfl
    | ok u =>
      cases s.lookup incidentId with
      | none => rfl
      | some i =>
        by_cases hu : (fields.keys.filter (· ∉ fieldNames)).insertionSort (· ≤ ·) ≠ []
        · simp only [if_pos hu]
          rfl
        · simp only [if_neg hu]
          cases fields.get? "status" with
          | none => rfl
          | some v =>
            simp only [Py.exec_bind, Py.exec_lift]
            cases checkStatus v <;> rfl

end IncidentStore

end HadrAgent
