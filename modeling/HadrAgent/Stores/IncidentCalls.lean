import HadrAgent.Lib.Runs
import HadrAgent.Stores.Mutators

/-!
# Calls of the incident store's mutators

The store as a machine fed with calls (`step`).

- `step_of_key`, `step_of_key_eq_none`: every call but `open` operates on the one record it addresses (`OrdDict.act`),
  or on none;
- `step_cases`: the four things a call may do;
- `records_final`: what `open` gives a record and every call on it keeps holds of every record along a run.
-/

namespace HadrAgent

/-- A call of a mutator, with any arguments. -/
inductive IncidentCall (F : Type) where
  | openIncident (incidentType coords tick buildingId : Val F) (fields : Dict F)
  | update (incidentId tick : Val F) (fields : Dict F)
  | link (incidentId reportId tick : Val F)
  | close (incidentId reason tick : Val F)

namespace IncidentCall

variable {F : Type}

/-- The id a call addresses. -/
def addressee : IncidentCall F → Option (Val F)
  | openIncident .. => none
  | update incidentId .. => some incidentId
  | link incidentId .. => some incidentId
  | close incidentId .. => some incidentId

/-- The key of the record a call addresses: keys are strings. -/
def key (c : IncidentCall F) : Option String :=
  match c.addressee with
  | some (.str id) => some id
  | _ => none

theorem addressee_of_key {c : IncidentCall F} {id : String} (hc : c.key = some id) : c.addressee = some (.str id) := by
  unfold key at hc
  split at hc
  · next h => rw [h, Option.some.inj hc]
  · cases hc

/-- Whether the call is one of `open`. -/
def opens (c : IncidentCall F) : Bool := c.addressee.isNone

theorem opens_of_key {c : IncidentCall F} {id : String} (hc : c.key = some id) : c.opens = false := by
  unfold opens
  rw [addressee_of_key hc]
  rfl

/-- The record a call of `open` makes under an id. -/
def OpenedAs (c : IncidentCall F) (id : String) (i : Incident F) : Prop :=
  match c with
  | openIncident incidentType coords tick buildingId fields =>
    IncidentStore.Opens incidentType coords tick buildingId fields id i
  | _ => False

theorem OpenedAs.exists_openIncident {c : IncidentCall F} {id : String} {i : Incident F} (h : c.OpenedAs id i) :
    ∃ incidentType coords tick buildingId fields, c = openIncident incidentType coords tick buildingId fields ∧
      IncidentStore.Opens incidentType coords tick buildingId fields id i := by
  cases c with
  | openIncident incidentType coords tick buildingId fields => exact ⟨_, _, _, _, _, rfl, h⟩
  | update incidentId tick fields => exact h.elim
  | link incidentId reportId tick => exact h.elim
  | close incidentId reason tick => exact h.elim

theorem OpenedAs.incidentId {c : IncidentCall F} {id : String} {i : Incident F} (h : c.OpenedAs id i) :
    i.incidentId = .str id := by
  obtain ⟨_, _, _, _, _, _, h⟩ := h.exists_openIncident
  exact h.incidentId

theorem OpenedAs.status_eq {c : IncidentCall F} {id : String} {i : Incident F} (h : c.OpenedAs id i) :
    i.status = .str statusOpen := by
  obtain ⟨_, _, _, _, _, _, h⟩ := h.exists_openIncident
  exact h.status_eq

variable [Runtime F]

/-- The method called. -/
def method : IncidentCall F → Py (IncidentStore F) (Incident F)
  | openIncident incidentType coords tick buildingId fields =>
    IncidentStore.openIncident incidentType coords tick buildingId fields
  | update incidentId tick fields => IncidentStore.update incidentId tick fields
  | link incidentId reportId tick => IncidentStore.link incidentId reportId tick
  | close incidentId reason tick => IncidentStore.close incidentId reason tick

/-- What a call makes of the record it addresses. -/
def onRecord (c : IncidentCall F) (i : Incident F) : Except Exc (Incident F) :=
  match c with
  | openIncident .. => .ok i
  | update _ tick fields => match bindOwn "IncidentStore.update" updateParams fields with
    | .error e => .error e
    | .ok () => i.updated tick fields
  | link _ reportId tick => i.linked reportId tick
  | close _ reason tick => .ok (i.closed reason tick)

/-- What a call raises when the id is not in the store. -/
def refusal (c : IncidentCall F) : Exc :=
  let unknown (incidentId : Val F) : Exc := match incidentId.requireHash with
    | .error e => e
    | .ok () => ⟨.unknownIncidentError, incidentId.toStr⟩
  match c with
  | openIncident .. => unknown .none
  | update incidentId _ fields => match bindOwn "IncidentStore.update" updateParams fields with
    | .error e => e
    | .ok () => unknown incidentId
  | link incidentId .. => unknown incidentId
  | close incidentId .. => unknown incidentId

/-- The outcome of a call on a record, and the record after it. -/
def onCell (c : IncidentCall F) (i : Incident F) : Except Exc (Incident F) × Incident F :=
  match c.onRecord i with
  | .ok i' => (.ok i', i')
  | .error e => (.error e, i)

/-- An `update` that does not raise: its keyword arguments bound, and the fields were written. -/
theorem onRecord_update {incidentId tick : Val F} {fields : Dict F} {i i' : Incident F}
    (h : (update incidentId tick fields).onRecord i = .ok i') :
    (∀ name ∈ updateParams, fields.get? name = none) ∧ i.updated tick fields = .ok i' := by
  simp only [onRecord] at h
  cases hb : bindOwn "IncidentStore.update" updateParams fields with
  | error e => rw [hb] at h; cases h
  | ok u => rw [hb] at h; exact ⟨fun _ hn => bindOwn_eq_ok hb hn, h⟩

/-- No call rewrites the id of a record. -/
theorem onRecord_incidentId {c : IncidentCall F} {i i' : Incident F} (h : c.onRecord i = .ok i') :
    i'.incidentId = i.incidentId := by
  cases c with
  | openIncident incidentType coords tick buildingId fields => rw [← Except.ok.inj h]
  | update incidentId tick fields =>
    obtain ⟨hown, h⟩ := onRecord_update h
    have hname : fields.get? Field.incidentId.name = none := hown _ (by decide)
    exact (Incident.get_updated h (g := .incidentId) nofun).trans (by rw [hname]; rfl)
  | link incidentId reportId tick => exact Incident.get_linked h (g := .incidentId) nofun nofun
  | close incidentId reason tick =>
    obtain rfl := Except.ok.inj h
    exact Incident.get_closed reason tick i (g := .incidentId) nofun

end IncidentCall

namespace IncidentStore

variable {F : Type} [Runtime F]

/-- One call: its outcome and the store after it. -/
def step (s : IncidentStore F) (c : IncidentCall F) : Except Exc (Incident F) × IncidentStore F := c.method.exec s

/-- A call on an id that is no key raises and changes nothing. -/
theorem step_of_lookup_eq_none {s : IncidentStore F} {c : IncidentCall F} {v : Val F} (hc : c.addressee = some v)
    (hv : s.lookup v = none) : s.step c = (.error c.refusal, s) := by
  have hact : ∀ f, s.act v f = (.error (match v.requireHash with
      | .error e => e
      | .ok () => ⟨.unknownIncidentError, v.toStr⟩), s) := fun f => by
    unfold act
    cases v.requireHash with
    | error e => rfl
    | ok u => simp only [hv]
  cases c with
  | openIncident incidentType coords tick buildingId fields => cases hc
  | update incidentId tick fields =>
    obtain rfl : incidentId = v := Option.some.inj hc
    show (update incidentId tick fields).exec s = _
    rw [exec_update, IncidentCall.refusal]
    cases bindOwn "IncidentStore.update" updateParams fields with
    | error e => rfl
    | ok u => exact hact _
  | link incidentId reportId tick =>
    obtain rfl : incidentId = v := Option.some.inj hc
    exact (exec_link ..).trans (hact _)
  | close incidentId reason tick =>
    obtain rfl : incidentId = v := Option.some.inj hc
    exact (exec_close ..).trans (hact _)

/-- A call on a key of the store operates on its record. -/
theorem step_of_get? {s : IncidentStore F} {c : IncidentCall F} {id : String} {i : Incident F} (hc : c.key = some id)
    (hi : s.byId.get? id = some i) :
    s.step c = ((c.onCell i).1, { s with byId := s.byId.insert id (c.onCell i).2 }) := by
  have hv := IncidentCall.addressee_of_key hc
  have hself : { s with byId := s.byId.insert id i } = s := by rw [OrdDict.insert_eq_self hi]
  have hcell : ∀ f : Incident F → Except Exc (Incident F), c.onRecord i = f i → s.act (.str id) f =
      ((c.onCell i).1, { s with byId := s.byId.insert id (c.onCell i).2 }) := fun f hf => by
    rw [act_of_lookup hi, IncidentCall.onCell, hf]
    cases f i with
    | error e => simp only [hself]
    | ok i' => rfl
  cases c with
  | openIncident incidentType coords tick buildingId fields => cases hc
  | update incidentId tick fields =>
    obtain rfl : incidentId = .str id := Option.some.inj hv
    show (update (.str id) tick fields).exec s = _
    rw [exec_update]
    cases hb : bindOwn "IncidentStore.update" updateParams fields with
    | error e => simp only [IncidentCall.onCell, IncidentCall.onRecord, hb, hself]
    | ok u => exact hcell _ (by simp only [IncidentCall.onRecord, hb])
  | link incidentId reportId tick =>
    obtain rfl : incidentId = .str id := Option.some.inj hv
    exact (exec_link ..).trans (hcell _ rfl)
  | close incidentId reason tick =>
    obtain rfl : incidentId = .str id := Option.some.inj hv
    exact (exec_close ..).trans (hcell _ rfl)

/-- **A call that addresses a key is an operation on its cell.** -/
theorem step_of_key {c : IncidentCall F} {id : String} (hc : c.key = some id) (s : IncidentStore F) :
    s.step c = ((s.byId.act id (.error c.refusal) c.onCell).1,
      { s with byId := (s.byId.act id (.error c.refusal) c.onCell).2 }) := by
  cases hi : s.byId.get? id with
  | none =>
    rw [step_of_lookup_eq_none (IncidentCall.addressee_of_key hc) (show s.lookup (.str id) = none from hi)]
    simp only [OrdDict.act, hi]
  | some i =>
    rw [step_of_get? hc hi]
    simp only [OrdDict.act, hi]

/-- A call with an id that is no string changes nothing. -/
theorem step_of_key_eq_none {c : IncidentCall F} (hc : c.key = none) (ho : c.opens = false) (s : IncidentStore F) :
    s.step c = (.error c.refusal, s) := by
  unfold IncidentCall.opens at ho
  obtain ⟨v, hv⟩ := Option.isSome_iff_exists.mp (by simpa using ho : c.addressee.isSome)
  refine step_of_lookup_eq_none hv ?_
  unfold IncidentCall.key at hc
  rw [hv] at hc
  cases v <;> first | rfl | cases hc

/-- What a call of `open` does, in three cases. -/
theorem step_opens {c : IncidentCall F} (hc : c.opens = true) (s : IncidentStore F) :
    (∃ e, s.step c = (.error e, s)) ∨ (∃ e, s.step c = (.error e, { s with seq := s.seq + 1 })) ∨
      ∃ i, c.OpenedAs (incId (s.seq + 1)) i ∧
        s.step c = (.ok i, { byId := s.byId.insert (incId (s.seq + 1)) i, seq := s.seq + 1 }) := by
  cases c with
  | openIncident incidentType coords tick buildingId fields =>
    exact openIncident_cases incidentType coords tick buildingId fields s
  | update incidentId tick fields => cases hc
  | link incidentId reportId tick => cases hc
  | close incidentId reason tick => cases hc

/-- The record a call of `open` returned. -/
theorem openedAs_of_step {c : IncidentCall F} (hc : c.opens = true) {s : IncidentStore F} {i : Incident F}
    (h : (s.step c).1 = .ok i) : c.OpenedAs (incId (s.seq + 1)) i := by
  rcases step_opens hc s with ⟨e, he⟩ | ⟨e, he⟩ | ⟨j, hj, he⟩
  · rw [he] at h; cases h
  · rw [he] at h; cases h
  · rw [he] at h
    exact Except.ok.inj h ▸ hj

/-- **What a call does**, in four cases: nothing; the counter advances; a record is appended; one record is
rewritten. -/
theorem step_cases (s : IncidentStore F) (c : IncidentCall F) :
    (∃ e, s.step c = (.error e, s)) ∨
    (c.opens = true ∧ ∃ e, s.step c = (.error e, { s with seq := s.seq + 1 })) ∨
    (c.opens = true ∧ ∃ i, c.OpenedAs (incId (s.seq + 1)) i ∧
      s.step c = (.ok i, { byId := s.byId.insert (incId (s.seq + 1)) i, seq := s.seq + 1 })) ∨
    ∃ id i i', c.key = some id ∧ s.byId.get? id = some i ∧ c.onRecord i = .ok i' ∧
      s.step c = (.ok i', { s with byId := s.byId.insert id i' }) := by
  cases ho : c.opens with
  | true =>
    rcases step_opens ho s with h | h | h
    · exact .inl h
    · exact .inr (.inl ⟨rfl, h⟩)
    · exact .inr (.inr (.inl ⟨rfl, h⟩))
  | false =>
    cases hk : c.key with
    | none => exact .inl ⟨_, step_of_key_eq_none hk ho s⟩
    | some id =>
      cases hi : s.byId.get? id with
      | none => exact .inl ⟨_, step_of_lookup_eq_none (IncidentCall.addressee_of_key hk) hi⟩
      | some i =>
        have hstep := step_of_get? hk hi
        unfold IncidentCall.onCell at hstep
        cases hr : c.onRecord i with
        | error e =>
          rw [hr] at hstep
          exact .inl ⟨e, hstep.trans (by simp only [OrdDict.insert_eq_self hi])⟩
        | ok i' =>
          rw [hr] at hstep
          exact .inr (.inr (.inr ⟨id, i, i', rfl, hi, hr, hstep⟩))

/-- **Records along a run**: what `open` gives a record and every call on it keeps holds of every record. -/
theorem records_final {P : Incident F → Prop} {calls : List (IncidentCall F)}
    (hopen : ∀ c ∈ calls, ∀ id i, c.OpenedAs id i → P i)
    (hcall : ∀ c ∈ calls, ∀ i i', c.onRecord i = .ok i' → P i → P i') {s : IncidentStore F}
    (hs : ∀ id i, s.byId.get? id = some i → P i) :
    ∀ id i, (Runs.final step s calls).byId.get? id = some i → P i := by
  refine Runs.final_induction (I := fun s : IncidentStore F => ∀ id i, s.byId.get? id = some i → P i) ?_ hs
  intro s c hc hs id i hi
  rcases s.step_cases c with ⟨e, he⟩ | ⟨_, e, he⟩ | ⟨_, j, hj, he⟩ | ⟨id', j, j', _, hj, hr, he⟩
  · rw [he] at hi
    exact hs id i hi
  · rw [he] at hi
    exact hs id i hi
  · rw [he] at hi
    simp only [OrdDict.get?_insert] at hi
    split at hi
    · exact Option.some.inj hi ▸ hopen c hc _ j hj
    · exact hs id i hi
  · rw [he] at hi
    simp only [OrdDict.get?_insert] at hi
    split at hi
    · exact Option.some.inj hi ▸ hcall c hc j j' hr (hs id' j hj)
    · exact hs id i hi

end IncidentStore

end HadrAgent
