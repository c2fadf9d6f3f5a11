import HadrAgent.Stores.IncidentCalls

/-!
# All-or-nothing updates

`update` looks up the id, then checks the names, then the status, and only then writes. `update_cases` says what it does
in each of the four cases; `update_all_or_nothing` says when it raises and that the store is then as it was.
-/

namespace HadrAgent

variable {F : Type}

/-- The names among the keyword arguments that are no field of `Incident`, sorted. -/
def unknownNames (fields : Dict F) : List String :=
  (fields.keys.filter (· ∉ fieldNames)).insertionSort (· ≤ ·)

theorem mem_unknownNames {fields : Dict F} {name : String} :
    name ∈ unknownNames fields ↔ name ∈ fields.keys ∧ name ∉ fieldNames := by
  rw [unknownNames, List.mem_insertionSort, List.mem_filter, decide_eq_true_iff]

/-- The names are listed in order, each once. -/
theorem unknownNames_sorted (fields : Dict F) : (unknownNames fields).Pairwise (· < ·) := by
  have hnodup : (unknownNames fields).Nodup :=
    (List.perm_insertionSort _ _).nodup_iff.mpr (fields.keys_nodup.filter _)
  have hsorted := List.pairwise_insertionSort (· ≤ ·) (fields.keys.filter (· ∉ fieldNames))
  refine (hsorted.and hnodup).imp fun {a b} h => ?_
  by_contra hlt
  exact h.2 (String.le_antisymm h.1 (String.not_lt.mp hlt))

theorem unknownNames_eq_nil {fields : Dict F} :
    unknownNames fields = [] ↔ ∀ name ∈ fields.keys, name ∈ fieldNames := by
  rw [List.eq_nil_iff_forall_not_mem]
  constructor
  · intro h name hn
    by_contra hu
    exact h name (mem_unknownNames.mpr ⟨hn, hu⟩)
  · intro h name hn
    exact (mem_unknownNames.mp hn).2 (h name (mem_unknownNames.mp hn).1)

variable [Runtime F]

/-- The text of the error that refuses unknown names. -/
def unknownText (F : Type) [Runtime F] (names : List String) : String :=
  "unknown incident field(s): " ++ ", ".intercalate (names.map (Val.reprStr F))

/-- `_check_status` refuses everything else. -/
theorem checkStatus_eq_error {status : Val F} (h : ¬ status.LegalStatus) : ∃ e, checkStatus status = .error e := by
  cases hc : checkStatus status with
  | error e => exact ⟨e, rfl⟩
  | ok u => exact absurd (checkStatus_eq_ok.mp hc) h

namespace Incident

theorem updated_of_unknown {fields : Dict F} (h : unknownNames fields ≠ []) (tick : Val F) (i : Incident F) :
    i.updated tick fields = .error ⟨.valueError, unknownText F (unknownNames fields)⟩ := if_pos h

theorem updated_of_illegal {fields : Dict F} {status : Val F} (hn : unknownNames fields = [])
    (hf : fields.get? "status" = some status) (hs : ¬ status.LegalStatus) (tick : Val F) (i : Incident F) :
    ∃ e, i.updated tick fields = .error e := by
  obtain ⟨e, he⟩ := checkStatus_eq_error hs
  refine ⟨e, (if_neg (not_not.mpr hn)).trans ?_⟩
  rw [hf]
  simp only [he]
  rfl

end Incident

namespace IncidentStore

/-- An update that raises nothing: what it makes of the store. -/
structure Updated (s : IncidentStore F) (id : String) (tick : Val F) (fields : Dict F) (i i' : Incident F)
    (s' : IncidentStore F) : Prop where
  /-- A field named holds the value given, another one what it held. -/
  field : ∀ f : Field, f ≠ .updatedTick → i'.get f = (fields.get? f.name).getD (i.get f)
  updatedTick : i'.updatedTick = if tick.isNone then (fields.get? "updated_tick").getD i.updatedTick else tick
  stored : s'.byId.get? id = some i'
  /-- No other incident changes, and none comes or goes. -/
  frame : ∀ id', id' ≠ id → s'.byId.get? id' = s.byId.get? id'
  keys : s'.byId.keys = s.byId.keys
  seq : s'.seq = s.seq

variable {incidentId tick : Val F} {fields : Dict F} {s : IncidentStore F}

/-- With names that bind, `update` is an operation on the record it addresses. -/
theorem exec_update_eq_act (hown : ∀ name ∈ fields.keys, name ∉ updateParams) :
    (update incidentId tick fields).exec s = s.act incidentId (Incident.updated tick fields) := by
  rw [exec_update, bindOwn_of_notMem hown]

/-- **What `update` does**, in its four cases. -/
theorem update_cases (s : IncidentStore F) (incidentId tick : Val F)
    (hown : ∀ name ∈ fields.keys, name ∉ updateParams) :
    (s.lookup incidentId = none ∧ ∃ e, (update incidentId tick fields).exec s = (.error e, s) ∧
      (incidentId.requireHash = .ok () → e = ⟨.unknownIncidentError, incidentId.toStr⟩)) ∨
    ∃ id i, incidentId = .str id ∧ s.byId.get? id = some i ∧
      (unknownNames fields ≠ [] ∧ (update incidentId tick fields).exec s =
          (.error ⟨.valueError, unknownText F (unknownNames fields)⟩, s) ∨
        unknownNames fields = [] ∧
          ((∃ status, fields.get? "status" = some status ∧ ¬ status.LegalStatus) ∧
              (∃ e, (update incidentId tick fields).exec s = (.error e, s)) ∨
            (∀ status, fields.get? "status" = some status → status.LegalStatus) ∧
              ∃ i' s', (update incidentId tick fields).exec s = (.ok i', s') ∧ Updated s id tick fields i i' s')) := by
  rw [exec_update_eq_act hown]
  cases hl : s.lookup incidentId with
  | none => exact .inl ⟨rfl, act_of_lookup_eq_none hl _⟩
  | some i =>
    obtain ⟨id, rfl, hi⟩ := exists_str_of_lookup hl
    refine .inr ⟨id, i, rfl, hi, ?_⟩
    rw [act_of_lookup hi]
    by_cases hu : unknownNames fields = []
    · refine .inr ⟨hu, ?_⟩
      by_cases hs : ∃ status, fields.get? "status" = some status ∧ ¬ status.LegalStatus
      · refine .inl ⟨hs, ?_⟩
        obtain ⟨status, hf, hs⟩ := hs
        obtain ⟨e, he⟩ := Incident.updated_of_illegal hu hf hs tick i
        exact ⟨e, by rw [he]⟩
      · have hlegal : ∀ status, fields.get? "status" = some status → status.LegalStatus :=
          fun status hf => not_not.mp fun hn => hs ⟨status, hf, hn⟩
        have hok := Incident.updated_of_known (unknownNames_eq_nil.mp hu) hlegal tick i
        refine .inr ⟨hlegal, (i.setAll fields).bump tick, _, by rw [hok], ?_⟩
        have hset : ((i.setAll fields)).updatedTick = (fields.get? "updated_tick").getD i.updatedTick :=
          Incident.get_setAll i fields .updatedTick
        exact ⟨fun f hf => Incident.get_updated hok hf, by rw [Incident.updatedTick_bump, hset],
          OrdDict.get?_insert_self _ _ _, fun id' hne => OrdDict.get?_insert_of_ne _ _ hne,
          OrdDict.keys_insert_of_mem (OrdDict.mem_keys_of_get? hi) _, rfl⟩
    · exact .inl ⟨hu, by rw [Incident.updated_of_unknown hu]⟩

/-- **Updates are all-or-nothing**, on every store and for every map of names: when `update` raises, and what; that it
then leaves the store as it was; and what it wrote when it does not. -/
theorem update_all_or_nothing (s : IncidentStore F) (incidentId tick : Val F) (fields : Dict F)
    (hown : ∀ name ∈ fields.keys, name ∉ updateParams) :
    ((∃ e s', (update incidentId tick fields).exec s = (.error e, s')) ↔
      s.lookup incidentId = none ∨ (∃ name ∈ fields.keys, name ∉ fieldNames) ∨
        ∃ status, fields.get? "status" = some status ∧ ¬ status.LegalStatus) ∧
    (∀ e s', (update incidentId tick fields).exec s = (.error e, s') → s' = s ∧
      (s.lookup incidentId = none → incidentId.requireHash = .ok () →
        e = ⟨.unknownIncidentError, incidentId.toStr⟩) ∧
      (s.lookup incidentId ≠ none → (∃ name ∈ fields.keys, name ∉ fieldNames) →
        ∃ names : List String, names.Pairwise (· < ·) ∧
          (∀ name, name ∈ names ↔ name ∈ fields.keys ∧ name ∉ fieldNames) ∧
          e = ⟨.valueError, "unknown incident field(s): " ++ ", ".intercalate (names.map (Val.reprStr F))⟩)) ∧
    ∀ i' s', (update incidentId tick fields).exec s = (.ok i', s') →
      ∃ id i, incidentId = .str id ∧ s.byId.get? id = some i ∧ Updated s id tick fields i i' s' := by
  have hnames : (∃ name ∈ fields.keys, name ∉ fieldNames) ↔ unknownNames fields ≠ [] := by
    rw [ne_eq, unknownNames_eq_nil]
    push Not
    exact Iff.rfl
  rw [hnames]
  rcases update_cases s incidentId tick hown with ⟨hl, e, he, hclass⟩ | ⟨id, i, rfl, hi, ⟨hu, he⟩ | ⟨hu, h⟩⟩
  · rw [he]
    refine ⟨⟨fun _ => .inl hl, fun _ => ⟨e, s, rfl⟩⟩, ?_, nofun⟩
    rintro e' s' h
    cases h
    exact ⟨rfl, fun _ hh => hclass hh, fun hn => absurd hl hn⟩
  · rw [he]
    refine ⟨⟨fun _ => .inr (.inl hu), fun _ => ⟨_, s, rfl⟩⟩, ?_, nofun⟩
    rintro e' s' h
    cases h
    refine ⟨rfl, fun hn => ?_, fun _ _ => ⟨_, unknownNames_sorted fields, fun _ => mem_unknownNames, rfl⟩⟩
    exact absurd (hi.symm.trans hn) (by simp)
  · have hfound : s.lookup (.str id) ≠ none := fun hn => absurd (hi.symm.trans hn) (by simp)
    rcases h with ⟨hs, e, he⟩ | ⟨hs, i', s', he, hup⟩
    · rw [he]
      refine ⟨⟨fun _ => .inr (.inr hs), fun _ => ⟨e, s, rfl⟩⟩, ?_, nofun⟩
      rintro e' s' h
      cases h
      exact ⟨rfl, fun hn => absurd hn hfound, fun _ hn => absurd hu hn⟩
    · rw [he]
      refine ⟨⟨nofun, ?_⟩, nofun, ?_⟩
      · rintro (hn | hn | ⟨status, hf, hn⟩)
        · exact absurd hn hfound
        · exact absurd hu hn
        · exact absurd (hs status hf) hn
      · rintro _ _ h
        cases h
        exact ⟨id, i, rfl, hi, hup⟩

/-- A known name before an unknown one. -/
def mixed : Dict Whole := .ofList [("notes", .str "smoke"), ("flames", .int 3)]

/-- A store with one fire. -/
def burning : IncidentStore Whole :=
  ((openIncident (.str "fire") (.tuple [.int 0, .int 0]) (.int 1) .none .empty).exec .empty).2

theorem update_all_or_nothing_mixed :
    ∃ e, (update (.str "inc-1") .none mixed).exec burning = (.error e, burning) := by
  have h := update_all_or_nothing burning (.str "inc-1") .none mixed (by decide)
  obtain ⟨e, s', he⟩ := h.1.mpr (.inr (.inl ⟨"flames", by decide, by decide⟩))
  obtain rfl := (h.2.1 e s' he).1
  exact ⟨e, he⟩

end IncidentStore

end HadrAgent
