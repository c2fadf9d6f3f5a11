import HadrAgent.Stores.IncidentIds

/-!
# Incidents are independent

Calls on different incidents do not see each other. Values are not shared here: a list handed in by a caller belongs to
the record it was given to.

- `get?_final`: along a run a record goes through the calls addressed to it, whatever stands between them;
- `step_comm`: calls addressed to different incidents commute;
- `independence`: both, for every reachable store.
-/

namespace HadrAgent

namespace IncidentStore

variable {F : Type}

/-- The calls addressed to an incident, in their order. -/
def callsOn (id : String) (calls : List (IncidentCall F)) : List (IncidentCall F) :=
  calls.filter fun c => c.key = some id

theorem callsOn_cons_of_key {id : String} {c : IncidentCall F} (h : c.key = some id) (calls : List (IncidentCall F)) :
    callsOn id (c :: calls) = c :: callsOn id calls := List.filter_cons_of_pos (by simpa using h)

theorem callsOn_cons_of_ne {id : String} {c : IncidentCall F} (h : c.key ≠ some id) (calls : List (IncidentCall F)) :
    callsOn id (c :: calls) = callsOn id calls := List.filter_cons_of_neg (by simpa using h)

variable [Runtime F]

/-- The record after the calls addressed to it. -/
def fold (id : String) (calls : List (IncidentCall F)) (i : Incident F) : Incident F :=
  (callsOn id calls).foldl (fun i c => (c.onCell i).2) i

theorem fold_cons_of_key {id : String} {c : IncidentCall F} (h : c.key = some id) (calls : List (IncidentCall F))
    (i : Incident F) : fold id (c :: calls) i = fold id calls (c.onCell i).2 := by
  rw [fold, callsOn_cons_of_key h]
  rfl

theorem fold_cons_of_ne {id : String} {c : IncidentCall F} (h : c.key ≠ some id) (calls : List (IncidentCall F))
    (i : Incident F) : fold id (c :: calls) i = fold id calls i := by
  rw [fold, callsOn_cons_of_ne h]
  rfl

/-- The incidents as cells: what a call that does not open does. -/
def cell (d : OrdDict String (Incident F)) (c : IncidentCall F) :
    Except Exc (Incident F) × OrdDict String (Incident F) :=
  Runs.cellStep IncidentCall.key (fun c => .error c.refusal) IncidentCall.onCell d c

theorem step_eq_cell {c : IncidentCall F} (ho : c.opens = false) (s : IncidentStore F) :
    s.step c = ((cell s.byId c).1, { s with byId := (cell s.byId c).2 }) := by
  unfold cell
  cases hk : c.key with
  | none => rw [step_of_key_eq_none hk ho, Runs.cellStep_of_target_eq_none hk]
  | some id => rw [step_of_key hk, Runs.cellStep_of_target hk]

theorem run_eq_cell : ∀ {calls : List (IncidentCall F)}, (∀ c ∈ calls, c.opens = false) → ∀ s : IncidentStore F,
    Runs.answers step s calls = Runs.answers cell s.byId calls ∧
      Runs.final step s calls = { s with byId := Runs.final cell s.byId calls }
  | [], _, _ => ⟨rfl, rfl⟩
  | c :: calls, h, s => by
    obtain ⟨ha, hf⟩ := run_eq_cell (fun b hb => h b (List.mem_cons_of_mem _ hb)) (s.step c).2
    rw [Runs.answers_cons, Runs.final_cons, ha, hf, step_eq_cell (h c List.mem_cons_self)]
    exact ⟨rfl, rfl⟩

/-! ## One record along a run -/

/-- A record after a call addressed to it. -/
theorem get?_step_of_key {c : IncidentCall F} {id : String} (hk : c.key = some id) {s : IncidentStore F}
    {i : Incident F} (hi : s.byId.get? id = some i) : (s.step c).2.byId.get? id = some (c.onCell i).2 := by
  rw [step_of_get? hk hi]
  exact OrdDict.get?_insert_self _ _ _

/-- Every other call leaves a record alone; `open` writes under a new id. -/
theorem get?_step_of_ne {c : IncidentCall F} {id : String} (hk : c.key ≠ some id) {s : IncidentStore F} (h : s.Minted)
    {i : Incident F} (hi : s.byId.get? id = some i) : (s.step c).2.byId.get? id = some i := by
  cases ho : c.opens with
  | false =>
    rw [step_eq_cell ho]
    exact (Runs.get?_cellStep_of_ne hk s.byId).trans hi
  | true =>
    have hne : id ≠ incId (s.seq + 1) := fun e => by
      rw [e, h.get?_next] at hi
      cases hi
    rcases step_opens ho s with ⟨e, he⟩ | ⟨e, he⟩ | ⟨j, _, he⟩
    · rw [he, hi]
    · rw [he, hi]
    · rw [he]
      exact (OrdDict.get?_insert_of_ne _ j hne).trans hi

/-- **A record goes through the calls addressed to it**, in their order. -/
theorem get?_final {id : String} (calls : List (IncidentCall F)) : ∀ {s : IncidentStore F}, s.Minted →
    ∀ {i : Incident F}, s.byId.get? id = some i →
      (Runs.final step s calls).byId.get? id = some (fold id calls i) := by
  induction calls with
  | nil => intro s _ i hi; exact hi
  | cons c calls ih =>
    intro s h i hi
    rw [Runs.final_cons]
    by_cases hk : c.key = some id
    · rw [ih (minted_step h c) (get?_step_of_key hk hi), fold_cons_of_key hk]
    · rw [ih (minted_step h c) (get?_step_of_ne hk h hi), fold_cons_of_ne hk]

/-- A record that a call of `open` returned goes through the calls after it. -/
theorem get?_final_of_opened {s : IncidentStore F} (h : s.Minted) {c : IncidentCall F} (ho : c.opens = true)
    {i : Incident F} (hi : (s.step c).1 = .ok i) (calls : List (IncidentCall F)) :
    ∃ id, i.incidentId = .str id ∧ (Runs.final step s (c :: calls)).byId.get? id = some (fold id calls i) := by
  rcases step_opens ho s with ⟨e, he⟩ | ⟨e, he⟩ | ⟨j, hj, he⟩
  · rw [he] at hi; cases hi
  · rw [he] at hi; cases hi
  · rw [he] at hi
    obtain rfl := Except.ok.inj hi
    refine ⟨_, hj.incidentId, ?_⟩
    rw [Runs.final_cons]
    refine get?_final calls (minted_step h c) ?_
    rw [he]
    exact OrdDict.get?_insert_self _ _ _

/-- A record of the store after a call was there before, or was opened by the call. -/
theorem get?_of_get?_step {s : IncidentStore F} {c : IncidentCall F} {id : String} {j : Incident F}
    (hj : (s.step c).2.byId.get? id = some j) :
    (∃ i, s.byId.get? id = some i) ∨ c.opens = true ∧ (s.step c).1 = .ok j ∧ j.incidentId = .str id := by
  rcases s.step_cases c with ⟨e, he⟩ | ⟨_, e, he⟩ | ⟨ho, i, hi, he⟩ | ⟨id', i, i', _, hi, _, he⟩
  · rw [he] at hj; exact .inl ⟨j, hj⟩
  · rw [he] at hj; exact .inl ⟨j, hj⟩
  · rw [he] at hj ⊢
    simp only [OrdDict.get?_insert] at hj
    split at hj
    · next e =>
      obtain rfl := Option.some.inj hj
      exact .inr ⟨ho, rfl, hi.incidentId.trans (by rw [e])⟩
    · exact .inl ⟨j, hj⟩
  · rw [he] at hj
    simp only [OrdDict.get?_insert] at hj
    split at hj
    · next e => exact .inl ⟨i, e ▸ hi⟩
    · exact .inl ⟨j, hj⟩

/-- Every record of the last store was there at the start, or was opened along the run. -/
theorem get?_of_get?_final {id : String} (calls : List (IncidentCall F)) : ∀ {s : IncidentStore F} {j : Incident F},
    (Runs.final step s calls).byId.get? id = some j →
      (∃ i, s.byId.get? id = some i) ∨ ∃ pre c post i, calls = pre ++ c :: post ∧ c.opens = true ∧
        ((Runs.final step s pre).step c).1 = .ok i ∧ i.incidentId = .str id := by
  induction calls with
  | nil => intro s j hj; exact .inl ⟨j, hj⟩
  | cons c calls ih =>
    intro s j hj
    rcases ih hj with ⟨i, hi⟩ | ⟨pre, b, post, i, rfl, hb, hi, hid⟩
    · rcases get?_of_get?_step hi with h | ⟨ho, hr, hid⟩
      · exact .inl h
      · exact .inr ⟨[], c, calls, i, rfl, ho, hr, hid⟩
    · exact .inr ⟨c :: pre, b, post, i, rfl, hb, hi, hid⟩

/-! ## Order of calls -/

/-- Calls that do not address the same incident commute. -/
theorem step_comm {a b : IncidentCall F} (ha : a.opens = false) (hb : b.opens = false)
    (h : ∀ id, a.key = some id → b.key ≠ some id) (s : IncidentStore F) :
    ((s.step a).2.step b).2 = ((s.step b).2.step a).2 ∧ ((s.step a).2.step b).1 = (s.step b).1 ∧
      ((s.step b).2.step a).1 = (s.step a).1 := by
  simp only [step_eq_cell ha, step_eq_cell hb]
  obtain ⟨hs, h₁, h₂⟩ := Runs.cellStep_comm h s.byId
  exact ⟨congrArg (fun d => { s with byId := d }) hs, h₁, h₂⟩

/-- **Incidents are independent.** For every reachable store: a record ends as the fold of the calls addressed to it,
over what it was at the start or when it was opened; calls addressed to different incidents can be swapped anywhere in
a run; and runs that agree on the calls addressed to each incident agree on the store and on the outcomes. -/
theorem independence (before calls : List (IncidentCall F)) :
    (∀ id i, (after before).byId.get? id = some i →
      (Runs.final step (after before) calls).byId.get? id = some (fold id calls i)) ∧
    (∀ pre c post i, calls = pre ++ c :: post → c.opens = true →
      ((Runs.final step (after before) pre).step c).1 = .ok i →
        ∃ id, i.incidentId = .str id ∧
          (Runs.final step (after before) calls).byId.get? id = some (fold id post i)) ∧
    (∀ id j, (Runs.final step (after before) calls).byId.get? id = some j →
      (∃ i, (after before).byId.get? id = some i) ∨ ∃ pre c post i, calls = pre ++ c :: post ∧ c.opens = true ∧
        ((Runs.final step (after before) pre).step c).1 = .ok i ∧ i.incidentId = .str id) ∧
    (∀ pre a b post, calls = pre ++ a :: b :: post → a.opens = false → b.opens = false →
      (∀ id, a.key = some id → b.key ≠ some id) →
        Runs.final step (after before) (pre ++ b :: a :: post) = Runs.final step (after before) calls ∧
        ∃ rs ra rb rs', Runs.answers step (after before) calls = rs ++ ra :: rb :: rs' ∧
          Runs.answers step (after before) (pre ++ b :: a :: post) = rs ++ rb :: ra :: rs' ∧
          rs.length = pre.length) ∧
    ∀ calls', (∀ c ∈ calls, c.opens = false) → (∀ c ∈ calls', c.opens = false) →
      (∀ id, callsOn id calls = callsOn id calls') →
        Runs.final step (after before) calls = Runs.final step (after before) calls' ∧
        ∀ id, (calls.zip (Runs.answers step (after before) calls)).filter (fun p => p.1.key = some id) =
          (calls'.zip (Runs.answers step (after before) calls')).filter fun p => p.1.key = some id := by
  have h := minted_after before
  refine ⟨fun id i hi => get?_final calls h hi, ?_, fun id j hj => get?_of_get?_final calls hj, ?_, ?_⟩
  · rintro pre c post i rfl ho hi
    rw [Runs.final_append]
    exact get?_final_of_opened (minted_final h pre) ho hi post
  · rintro pre a b post rfl ha hb hab
    obtain ⟨hs, h₁, h₂⟩ := step_comm ha hb hab (Runs.final step (after before) pre)
    refine ⟨?_, Runs.answers step (after before) pre, _, _, _, Runs.answers_append .., ?_, Runs.length_answers ..⟩
    · rw [Runs.final_append, Runs.final_append, Runs.final_cons, Runs.final_cons, Runs.final_cons, Runs.final_cons, hs]
    · rw [Runs.answers_append, Runs.answers_cons, Runs.answers_cons, h₁, h₂, hs]
      rfl
  · intro calls' ho ho' hf
    obtain ⟨ha, hs⟩ := run_eq_cell ho (after before)
    obtain ⟨ha', hs'⟩ := run_eq_cell ho' (after before)
    refine ⟨?_, fun id => ?_⟩
    · rw [hs, hs']
      exact congrArg (fun d => { after before with byId := d }) (Runs.final_cellStep_congr hf _)
    · rw [ha, ha']
      exact Runs.filter_zip_answers_congr (hf id) _

end IncidentStore

end HadrAgent
