import HadrAgent.Stores.IncidentIds

/-!
# Failing opens and the counter

`open` advances the counter before it builds the record. A call that `Incident(…)` then refuses
(`IncidentCall.skips`) leaves the counter advanced, so it costs an id; every other failing call leaves the store as it
was. `ids_unbroken_iff`: the ids handed out along a run are `inc-1`, `inc-2`, … without a gap exactly when no call that
skips an id comes before one that succeeds.
-/

namespace HadrAgent

variable {F : Type}

namespace IncidentCall

/-- Keyword arguments that `open` refuses before it touches the store. -/
def early (fields : Dict F) : Bool := fields.keys.any fun name => name = "status" || name ∈ openParams

/-- Keyword arguments that `Incident(…)` refuses. -/
def misfit (fields : Dict F) : Bool := fields.keys.any fun name => name ∈ openFills || name ∉ fieldNames

/-- A call of `open` that fails after it advanced the counter. -/
def skips : IncidentCall F → Bool
  | openIncident _ _ _ _ fields => !early fields && misfit fields
  | _ => false

/-- A call of `open` that succeeds. -/
def succeeds : IncidentCall F → Bool
  | openIncident _ _ _ _ fields => !early fields && !misfit fields
  | _ => false

theorem skips_of_succeeds {c : IncidentCall F} (h : c.succeeds = true) : c.skips = false := by
  cases c with
  | openIncident incidentType coords tick buildingId fields =>
    have hm : misfit fields = false := by simpa using (Bool.and_eq_true_iff.mp h).2
    rw [skips, hm, Bool.and_false]
  | _ => rfl

end IncidentCall

section

variable {fields : Dict F}

theorem early_eq_false : IncidentCall.early fields = false ↔
    "status" ∉ fields.keys ∧ ∀ name ∈ fields.keys, name ∉ openParams := by
  unfold IncidentCall.early
  rw [List.any_eq_false]
  constructor
  · intro h
    refine ⟨fun hs => h _ hs (by decide), fun name hn hm => h name hn ?_⟩
    simp [hm]
  · rintro ⟨hs, h⟩ name hn
    have hne : name ≠ "status" := fun e => hs (e ▸ hn)
    simp [hne, h name hn]

theorem newIncident_of_fits (h : IncidentCall.misfit fields = false) (id : String)
    (incidentType coords tick buildingId : Val F) : newIncident id incidentType coords tick buildingId fields =
      .ok ((Incident.fresh id incidentType coords tick buildingId).setAll fields) := by
  unfold IncidentCall.misfit at h
  rw [List.any_eq_false] at h
  have hfills : fields.keys.find? (· ∈ openFills) = none := List.find?_eq_none.mpr fun name hn => by
    have := h name hn
    simp_all
  have hknown : fields.keys.find? (· ∉ fieldNames) = none := List.find?_eq_none.mpr fun name hn => by
    have := h name hn
    simp_all
  unfold newIncident
  rw [hfills, hknown]

theorem newIncident_of_misfit (h : IncidentCall.misfit fields = true) (id : String)
    (incidentType coords tick buildingId : Val F) :
    ∃ e, newIncident id incidentType coords tick buildingId fields = .error e := by
  unfold IncidentCall.misfit at h
  obtain ⟨name, hn, h⟩ := List.any_eq_true.mp h
  unfold newIncident
  cases hf : fields.keys.find? (· ∈ openFills) with
  | some name => exact ⟨_, rfl⟩
  | none =>
    cases hk : fields.keys.find? (· ∉ fieldNames) with
    | some name => exact ⟨_, rfl⟩
    | none =>
      have h₁ := List.find?_eq_none.mp hf name hn
      have h₂ := List.find?_eq_none.mp hk name hn
      simp_all

end

namespace IncidentStore

/-- **What `open` does with its keyword arguments**: it refuses them at once; it refuses them after the counter
advanced; it takes them. -/
theorem openIncident_fate (incidentType coords tick buildingId : Val F) (fields : Dict F) (s : IncidentStore F) :
    (IncidentCall.early fields = true ∧
      ∃ e, (openIncident incidentType coords tick buildingId fields).exec s = (.error e, s)) ∨
    (IncidentCall.early fields = false ∧ IncidentCall.misfit fields = true ∧
      ∃ e, (openIncident incidentType coords tick buildingId fields).exec s = (.error e, { s with seq := s.seq + 1 })) ∨
    (IncidentCall.early fields = false ∧ IncidentCall.misfit fields = false ∧
      ∃ i, Opens incidentType coords tick buildingId fields (incId (s.seq + 1)) i ∧
        (openIncident incidentType coords tick buildingId fields).exec s =
          (.ok i, { byId := s.byId.insert (incId (s.seq + 1)) i, seq := s.seq + 1 })) := by
  rw [exec_openIncident]
  cases he : IncidentCall.early fields with
  | true =>
    refine .inl ⟨rfl, ?_⟩
    cases hb : bindOwn "IncidentStore.open" openParams fields with
    | error e => exact ⟨e, rfl⟩
    | ok u =>
      have hs : "status" ∈ fields.keys := by
        by_contra hs
        have hlate := early_eq_false.mpr ⟨hs, fun name hn hm => OrdDict.get?_eq_none.mp (bindOwn_eq_ok hb hm) hn⟩
        rw [he] at hlate
        cases hlate
      exact ⟨_, if_pos hs⟩
  | false =>
    obtain ⟨hs, hown⟩ := early_eq_false.mp he
    rw [bindOwn_of_notMem hown]
    simp only [if_neg hs]
    cases hm : IncidentCall.misfit fields with
    | true =>
      obtain ⟨e, hn⟩ := newIncident_of_misfit hm (incId (s.seq + 1)) incidentType coords tick buildingId
      exact .inr (.inl ⟨trivial, rfl, e, by rw [hn]⟩)
    | false =>
      have hn := newIncident_of_fits hm (incId (s.seq + 1)) incidentType coords tick buildingId
      obtain ⟨hf, hi⟩ := newIncident_eq_ok hn
      exact .inr (.inr ⟨trivial, rfl, _, ⟨OrdDict.get?_eq_none.mpr hs, hf, hi⟩, by rw [hn]⟩)

/-- A failing `open` leaves the store as it was exactly when it fails at once. -/
theorem openIncident_error_iff {incidentType coords tick buildingId : Val F} {fields : Dict F}
    {s s' : IncidentStore F} {e : Exc}
    (h : (openIncident incidentType coords tick buildingId fields).exec s = (.error e, s')) :
    s' = s ↔ IncidentCall.early fields = true := by
  rcases openIncident_fate incidentType coords tick buildingId fields s with
    ⟨he, e', hs⟩ | ⟨he, _, e', hs⟩ | ⟨_, _, i, _, hs⟩
  · cases h.symm.trans hs
    exact ⟨fun _ => he, fun _ => rfl⟩
  · cases h.symm.trans hs
    refine ⟨fun e => absurd (congrArg IncidentStore.seq e) (by simp), fun hearly => ?_⟩
    cases he.symm.trans hearly
  · cases h.symm.trans hs

/-! ## The counter along a run -/

variable [Runtime F]

/-- What a call does to the counter, and the id it hands out. -/
theorem seq_step (s : IncidentStore F) (c : IncidentCall F) :
    (s.step c).2.seq = s.seq + (if c.skips || c.succeeds then 1 else 0) ∧
      s.openedId c = if c.succeeds then some (.str (incId (s.seq + 1))) else none := by
  have hother : c.opens = false → c.skips = false → c.succeeds = false → (s.step c).2.seq = s.seq +
      (if c.skips || c.succeeds then 1 else 0) ∧
      s.openedId c = if c.succeeds then some (.str (incId (s.seq + 1))) else none := by
    intro ho hk hs
    rw [hk, hs, openedId_of_opens_eq_false ho]
    refine ⟨?_, rfl⟩
    rcases s.step_cases c with ⟨e, he⟩ | ⟨h, _⟩ | ⟨h, _⟩ | ⟨id, i, i', _, _, _, he⟩
    · rw [he]
      rfl
    · exact absurd (h.symm.trans ho) (by decide)
    · exact absurd (h.symm.trans ho) (by decide)
    · rw [he]
      rfl
  cases c with
  | openIncident incidentType coords tick buildingId fields =>
    have hstep : s.step (.openIncident incidentType coords tick buildingId fields) =
        (openIncident incidentType coords tick buildingId fields).exec s := rfl
    unfold openedId
    rw [hstep, IncidentCall.skips, IncidentCall.succeeds]
    rcases openIncident_fate incidentType coords tick buildingId fields s with
      ⟨he, e, hs⟩ | ⟨he, hm, e, hs⟩ | ⟨he, hm, i, hi, hs⟩
    · rw [hs, he]
      exact ⟨rfl, rfl⟩
    · rw [hs, he, hm]
      exact ⟨rfl, rfl⟩
    · rw [hs, he, hm]
      exact ⟨rfl, congrArg some hi.incidentId⟩
  | update incidentId tick fields => exact hother rfl rfl rfl
  | link incidentId reportId tick => exact hother rfl rfl rfl
  | close incidentId reason tick => exact hother rfl rfl rfl

/-- The ids handed out are above the counter, and there are as many as calls of `open` that succeed. -/
theorem openedIds_above (calls : List (IncidentCall F)) : ∀ s : IncidentStore F,
    (openedIds s calls).length = (calls.filter IncidentCall.succeeds).length ∧
      ∀ v ∈ openedIds s calls, ∃ n, s.seq < n ∧ v = .str (incId n) := by
  induction calls with
  | nil => intro s; exact ⟨rfl, nofun⟩
  | cons c calls ih =>
    intro s
    obtain ⟨hseq, hid⟩ := seq_step s c
    obtain ⟨hlen, habove⟩ := ih (s.step c).2
    have hle : s.seq ≤ (s.step c).2.seq := hseq ▸ Nat.le_add_right _ _
    have hrest : ∀ v ∈ openedIds (s.step c).2 calls, ∃ n, s.seq < n ∧ v = .str (incId n) := by
      intro v hv
      obtain ⟨n, hn, rfl⟩ := habove v hv
      exact ⟨n, Nat.lt_of_le_of_lt hle hn, rfl⟩
    rw [openedIds, hid]
    cases hs : c.succeeds with
    | false => exact ⟨by simp [hlen, hs], by simpa using hrest⟩
    | true =>
      refine ⟨by simp [hlen, hs, Nat.add_comm], fun v hv => ?_⟩
      rcases List.mem_append.mp hv with hv | hv
      · exact ⟨s.seq + 1, Nat.lt_succ_self _, by simpa using hv⟩
      · exact hrest v hv

/-- The ids from a counter on, without a gap. -/
def idsFrom (start n : Nat) : List (Val F) := (List.range' start n).map fun k => .str (incId k)

/-- Once the id after `n` is gone, a run hands out the ids from it on only when it hands out none. -/
theorem openedIds_of_skipped (calls : List (IncidentCall F)) {s : IncidentStore F} {n : Nat} (hn : n < s.seq) :
    openedIds s calls = idsFrom (n + 1) (openedIds s calls).length ↔ ∀ d ∈ calls, d.succeeds = false := by
  obtain ⟨hlen, habove⟩ := openedIds_above calls s
  have hnone : openedIds s calls = idsFrom (n + 1) (openedIds s calls).length ↔ openedIds s calls = [] := by
    constructor
    · intro h
      cases hids : openedIds s calls with
      | nil => rfl
      | cons v vs =>
        rw [hids] at h habove
        obtain ⟨m, hm, hv⟩ := habove v List.mem_cons_self
        have hhead : v = .str (incId (n + 1)) := (List.cons.inj h).1
        obtain rfl := incId_injective (Val.str.inj (hv.symm.trans hhead))
        omega
    · intro h
      rw [h]
      rfl
  rw [hnone, ← List.length_eq_zero_iff, hlen, List.length_eq_zero_iff, List.filter_eq_nil_iff]
  exact forall₂_congr fun d _ => Bool.not_eq_true _ ▸ Iff.rfl

/-- Along a run from any store the ids are unbroken exactly when nothing skips an id before a call that succeeds. -/
theorem openedIds_eq_idsFrom_iff (calls : List (IncidentCall F)) : ∀ s : IncidentStore F,
    openedIds s calls = idsFrom (s.seq + 1) (openedIds s calls).length ↔
      calls.Pairwise fun c d => c.skips = true → d.succeeds = false := by
  induction calls with
  | nil => intro s; exact ⟨fun _ => List.Pairwise.nil, fun _ => rfl⟩
  | cons c calls ih =>
    intro s
    obtain ⟨hseq, hid⟩ := seq_step s c
    have ih := ih (s.step c).2
    rw [List.pairwise_cons, openedIds, hid]
    rw [hseq] at ih
    cases hs : c.succeeds with
    | true =>
      have hk := IncidentCall.skips_of_succeeds hs
      rw [hk, hs] at ih
      rw [hk, if_pos rfl]
      refine Iff.trans ?_ (ih.trans ⟨fun h => ⟨fun _ _ h => absurd h Bool.false_ne_true, h⟩, fun h => h.2⟩)
      exact ⟨fun h => (List.cons.inj h).2, fun h => congrArg (_ :: ·) h⟩
    | false =>
      rw [hs] at ih
      cases hk : c.skips with
      | false =>
        rw [hk] at ih
        exact ih.trans ⟨fun h => ⟨fun _ _ h => absurd h Bool.false_ne_true, h⟩, fun h => h.2⟩
      | true =>
        -- the id at the counter is gone, so the rest of the run must hand out none
        have hgone : s.seq < (s.step c).2.seq := by
          rw [hseq, hk]
          exact Nat.lt_succ_self _
        refine (openedIds_of_skipped calls hgone).trans ⟨fun h => ?_, fun h d hd => h.1 d hd rfl⟩
        refine ⟨fun d hd _ => h d hd, List.pairwise_of_forall_mem_list fun d hd e he _ => h e he⟩

/-- **A failed `open` leaves no trace** exactly when it fails at once: when a keyword argument names the status or
repeats a parameter of `open` itself. And along a run on a new store the ids handed out are `inc-1`, …, `inc-n` exactly
when no call that fails later comes before one that succeeds. -/
theorem ids_unbroken_iff :
    (∀ (s : IncidentStore F) (incidentType coords tick buildingId : Val F) (fields : Dict F) (e : Exc)
      (s' : IncidentStore F), (openIncident incidentType coords tick buildingId fields).exec s = (.error e, s') →
        (s' = s ↔ ∃ name ∈ fields.keys, name = "status" ∨ name ∈ openParams)) ∧
    ∀ calls : List (IncidentCall F),
      openedIds empty calls =
          (List.range (openedIds empty calls).length).map (fun k => .str ("inc-" ++ toString (k + 1))) ↔
        calls.Pairwise fun c d => c.skips = true → d.succeeds = false := by
  constructor
  · intro s incidentType coords tick buildingId fields e s' h
    rw [openIncident_error_iff h, IncidentCall.early, List.any_eq_true]
    simp only [Bool.or_eq_true, decide_eq_true_eq]
  · intro calls
    rw [← openedIds_eq_idsFrom_iff calls empty, idsFrom, List.range'_eq_map_range, List.map_map]
    simp only [Function.comp_def, Nat.add_comm, empty, Nat.zero_add, incId]

/-- A belief that `Incident` has no field for, then an ordinary fire. -/
def headcountFirst : List (IncidentCall Whole) :=
  [.openIncident (.str "fire") (.tuple [.int 0, .int 0]) (.int 1) .none (.ofList [("headcount", .int 3)]),
    .openIncident (.str "fire") (.tuple [.int 0, .int 0]) (.int 1) .none .empty]

/-- The first call fails and advances the counter; the first incident is `inc-2`. -/
theorem openedIds_headcountFirst :
    (∃ e, (openIncident (.str "fire") (.tuple [.int 0, .int 0]) (.int 1) .none (.ofList [("headcount", .int 3)])).exec
      (empty : IncidentStore Whole) = (.error e, ⟨.empty, 1⟩)) ∧
    (⟨.empty, 1⟩ : IncidentStore Whole) ≠ empty ∧ openedIds empty headcountFirst = [.str "inc-2"] :=
  ⟨⟨_, rfl⟩, fun h => absurd (congrArg seq h) (by decide), rfl⟩

end IncidentStore

end HadrAgent
