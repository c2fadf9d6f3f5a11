import HadrAgent.Stores.IncidentCalls

/-!
# Identity of incidents

`Minted`: the keys of the store are ids minted by its counter, in increasing order, and each is the id of the record
stored under it. Every call keeps it (`minted_step`), so a minted id is new (`Minted.get?_next`), and the incidents ever
opened stay listed in the order of their opening (`ids_of_run`).
-/

namespace HadrAgent

theorem incId_injective : Function.Injective incId := fun m n h => by
  have hs : toString m = toString n := by simpa [incId] using h
  have hd := congrArg (fun s : String => Nat.ofDigitChars 10 s.toList 0) hs
  simpa using hd

namespace IncidentStore

variable {F : Type}

/-- Every key is the id of its record; the keys are ids of the counter, in increasing order. -/
structure Minted (s : IncidentStore F) : Prop where
  keyed : ∀ {id i}, s.byId.get? id = some i → i.incidentId = .str id
  numbered : ∃ ns : List Nat, s.byId.keys = ns.map incId ∧ ns.Pairwise (· < ·) ∧ ∀ n ∈ ns, 0 < n ∧ n ≤ s.seq

namespace Minted

variable {s : IncidentStore F}

theorem empty : (empty : IncidentStore F).Minted where
  keyed h := by cases h
  numbered := ⟨[], rfl, List.Pairwise.nil, nofun⟩

/-- The next id is not in the store. -/
theorem get?_next (h : s.Minted) : s.byId.get? (incId (s.seq + 1)) = none := by
  obtain ⟨ns, hk, _, hb⟩ := h.numbered
  rw [OrdDict.get?_eq_none, hk, List.mem_map_of_injective incId_injective]
  exact fun hm => absurd (hb _ hm).2 (by omega)

/-- The ids listed are the keys. -/
theorem map_incidentId_all (h : s.Minted) : s.all.map Incident.incidentId = s.byId.keys.map Val.str := by
  have key : s.all.map (fun i => some i.incidentId) = s.byId.keys.map fun id => some (Val.str id) := by
    have hv := congrArg (List.map (Option.map Incident.incidentId)) (OrdDict.map_get?_keys s.byId)
    simp only [List.map_map, Function.comp_def, Option.map_some] at hv
    refine hv.symm.trans (List.map_congr_left fun id hid => ?_)
    obtain ⟨i, hi⟩ := OrdDict.exists_get?_of_mem hid
    rw [hi, Option.map_some, h.keyed hi]
  apply List.map_injective_iff.mpr (fun _ _ => Option.some.inj)
  rw [List.map_map, List.map_map]
  exact key

/-- No id is listed twice. -/
theorem nodup_incidentId (h : s.Minted) : (s.all.map Incident.incidentId).Nodup := by
  rw [h.map_incidentId_all]
  exact (OrdDict.keys_nodup _).map fun _ _ e => Val.str.inj e

/-- In a minted store `get` finds every id listed. -/
theorem get_of_mem (h : s.Minted) {v : Val F} (hv : v ∈ s.all.map Incident.incidentId) :
    ∃ i ∈ s.all, i.incidentId = v ∧ s.get v = .ok (some i) := by
  rw [h.map_incidentId_all] at hv
  obtain ⟨id, hid, rfl⟩ := List.mem_map.mp hv
  obtain ⟨i, hi⟩ := OrdDict.exists_get?_of_mem hid
  refine ⟨i, OrdDict.mem_values_of_get? hi, h.keyed hi, ?_⟩
  show Except.ok (s.byId.get? id) = _
  rw [hi]

/-- A larger counter keeps the ids below it. -/
theorem bump (h : s.Minted) : ({ s with seq := s.seq + 1 } : IncidentStore F).Minted where
  keyed := h.keyed
  numbered := by
    obtain ⟨ns, hk, hp, hb⟩ := h.numbered
    exact ⟨ns, hk, hp, fun n hn => ⟨(hb n hn).1, Nat.le_succ_of_le (hb n hn).2⟩⟩

/-- A record under the next id. -/
theorem append (h : s.Minted) {i : Incident F} (hi : i.incidentId = .str (incId (s.seq + 1))) :
    ({ byId := s.byId.insert (incId (s.seq + 1)) i, seq := s.seq + 1 } : IncidentStore F).Minted where
  keyed {id j} hj := by
    rw [OrdDict.get?_insert] at hj
    split at hj
    · next e => rw [← Option.some.inj hj, hi, e]
    · exact h.keyed hj
  numbered := by
    obtain ⟨ns, hk, hp, hb⟩ := h.numbered
    refine ⟨ns ++ [s.seq + 1], ?_, ?_, fun n hn => ?_⟩
    · rw [OrdDict.keys_insert_of_notMem (OrdDict.get?_eq_none.mp h.get?_next), hk, List.map_append]
      rfl
    · refine List.pairwise_append.mpr ⟨hp, List.pairwise_singleton _ _, fun m hm n hn => ?_⟩
      rw [List.mem_singleton.mp hn]
      exact Nat.lt_succ_of_le (hb m hm).2
    · rcases List.mem_append.mp hn with hn | hn
      · exact ⟨(hb n hn).1, Nat.le_succ_of_le (hb n hn).2⟩
      · rw [List.mem_singleton.mp hn]
        exact ⟨Nat.succ_pos _, le_refl _⟩

/-- A record rewritten under its key, with its id kept. -/
theorem rewrite (h : s.Minted) {id : String} {i i' : Incident F} (hi : s.byId.get? id = some i)
    (hid : i'.incidentId = i.incidentId) : ({ s with byId := s.byId.insert id i' } : IncidentStore F).Minted where
  keyed {id' j} hj := by
    rw [OrdDict.get?_insert] at hj
    split at hj
    · next e => rw [← Option.some.inj hj, hid, h.keyed hi, e]
    · exact h.keyed hj
  numbered := by
    obtain ⟨ns, hk, hp, hb⟩ := h.numbered
    exact ⟨ns, (OrdDict.keys_insert_of_mem (OrdDict.mem_keys_of_get? hi) i').trans hk, hp, hb⟩

end Minted

variable [Runtime F]

theorem minted_step {s : IncidentStore F} (h : s.Minted) (c : IncidentCall F) : (s.step c).2.Minted := by
  rcases s.step_cases c with ⟨e, he⟩ | ⟨_, e, he⟩ | ⟨_, i, hi, he⟩ | ⟨id, i, i', _, hi, hr, he⟩
  · rw [he]; exact h
  · rw [he]; exact h.bump
  · rw [he]; exact h.append hi.incidentId
  · rw [he]; exact h.rewrite hi (IncidentCall.onRecord_incidentId hr)

theorem minted_final {s : IncidentStore F} (h : s.Minted) (calls : List (IncidentCall F)) :
    (Runs.final step s calls).Minted :=
  Runs.final_induction (I := Minted) (fun _ c _ h => minted_step h c) h

/-- The store after calls on a new one. -/
def after (calls : List (IncidentCall F)) : IncidentStore F := Runs.final step empty calls

theorem minted_after (calls : List (IncidentCall F)) : (after calls).Minted := minted_final Minted.empty calls

/-! ## What `open` returned -/

/-- The id of the incident a call of `open` returned. -/
def openedId (s : IncidentStore F) (c : IncidentCall F) : Option (Val F) :=
  match c.opens, (s.step c).1 with
  | true, .ok i => some i.incidentId
  | _, _ => none

theorem openedId_of_error {s : IncidentStore F} {c : IncidentCall F} {e : Exc} (h : (s.step c).1 = .error e) :
    s.openedId c = none := by
  unfold openedId
  rw [h]
  cases c.opens <;> rfl

theorem openedId_of_opens_eq_false {c : IncidentCall F} (h : c.opens = false) (s : IncidentStore F) :
    s.openedId c = none := by
  unfold openedId
  rw [h]

/-- The ids of the incidents that `open` returned along a run, in order. -/
def openedIds : IncidentStore F → List (IncidentCall F) → List (Val F)
  | _, [] => []
  | s, c :: calls => (s.openedId c).toList ++ openedIds (s.step c).2 calls

theorem openedIds_append : ∀ (s : IncidentStore F) (l m : List (IncidentCall F)),
    openedIds s (l ++ m) = openedIds s l ++ openedIds (Runs.final step s l) m
  | _, [], _ => rfl
  | s, c :: l, m => by
    rw [List.cons_append, openedIds, openedIds, openedIds_append, List.append_assoc]
    rfl

/-- A call lists the id of the incident it opens after the ids listed before. -/
theorem map_incidentId_step {s : IncidentStore F} (h : s.Minted) (c : IncidentCall F) :
    (s.step c).2.all.map Incident.incidentId = s.all.map Incident.incidentId ++ (s.openedId c).toList := by
  have hkey := (minted_step h c).map_incidentId_all
  rw [h.map_incidentId_all, hkey]
  rcases s.step_cases c with ⟨e, he⟩ | ⟨ho, e, he⟩ | ⟨ho, i, hi, he⟩ | ⟨id, i, i', hk, hi, _, he⟩
  · rw [openedId_of_error (congrArg Prod.fst he), he]
    simp
  · rw [openedId_of_error (congrArg Prod.fst he), he]
    simp
  · have hid : s.openedId c = some (.str (incId (s.seq + 1))) := by
      unfold openedId
      rw [he, ho, ← hi.incidentId]
    rw [he, hid, OrdDict.keys_insert_of_notMem (OrdDict.get?_eq_none.mp h.get?_next), List.map_append]
    rfl
  · rw [he, openedId_of_opens_eq_false (IncidentCall.opens_of_key hk),
      OrdDict.keys_insert_of_mem (OrdDict.mem_keys_of_get? hi)]
    simp

theorem map_incidentId_final (calls : List (IncidentCall F)) : ∀ {s : IncidentStore F}, s.Minted →
    (Runs.final step s calls).all.map Incident.incidentId = s.all.map Incident.incidentId ++ openedIds s calls := by
  induction calls with
  | nil => intro s _; simp [openedIds]
  | cons c calls ih =>
    intro s h
    rw [Runs.final_cons, ih (minted_step h c), map_incidentId_step h, List.append_assoc]
    rfl

/-- **Identity invariant of the store**, over every run of calls on a new store and every continuation of it. -/
theorem ids_of_run (calls : List (IncidentCall F)) :
    (∀ id i, (after calls).byId.get? id = some i → i.incidentId = .str id) ∧
    (∃ ns : List Nat, (after calls).all.map Incident.incidentId = ns.map (fun n => .str ("inc-" ++ toString n)) ∧
      ns.Pairwise (· < ·) ∧ ∀ n ∈ ns, 0 < n ∧ n ≤ (after calls).seq) ∧
    (after calls).get (.str (incId ((after calls).seq + 1))) = .ok none ∧
    (∀ incidentType coords tick buildingId fields i s',
      (openIncident incidentType coords tick buildingId fields).exec (after calls) = (.ok i, s') →
        i.incidentId = .str (incId ((after calls).seq + 1)) ∧ s'.all = (after calls).all ++ [i]) ∧
    ∀ later, (after (calls ++ later)).all.map Incident.incidentId =
        openedIds empty calls ++ openedIds (after calls) later ∧
      (openedIds empty calls ++ openedIds (after calls) later).Nodup ∧
      ∀ v ∈ openedIds empty calls, ∃ i ∈ (after (calls ++ later)).all, i.incidentId = v ∧
        (after (calls ++ later)).get v = .ok (some i) := by
  have h := minted_after calls
  refine ⟨fun id i hi => h.keyed hi, ?_, ?_, ?_, fun later => ?_⟩
  · obtain ⟨ns, hk, hp, hb⟩ := h.numbered
    exact ⟨ns, by rw [h.map_incidentId_all, hk, List.map_map]; rfl, hp, hb⟩
  · exact congrArg Except.ok h.get?_next
  · intro incidentType coords tick buildingId fields i s' he
    rcases step_opens (c := .openIncident incidentType coords tick buildingId fields) rfl (after calls) with
      ⟨e, hs⟩ | ⟨e, hs⟩ | ⟨j, hj, hs⟩
    · cases he.symm.trans hs
    · cases he.symm.trans hs
    · cases he.symm.trans hs
      exact ⟨hj.incidentId, OrdDict.values_insert_of_notMem (OrdDict.get?_eq_none.mp h.get?_next) i⟩
  · have hl := minted_after (calls ++ later)
    have hids : (after (calls ++ later)).all.map Incident.incidentId =
        openedIds empty calls ++ openedIds (after calls) later :=
      (map_incidentId_final (calls ++ later) Minted.empty).trans (openedIds_append _ _ _)
    exact ⟨hids, hids ▸ hl.nodup_incidentId, fun v hv => hl.get_of_mem (hids ▸ List.mem_append_left _ hv)⟩

end IncidentStore

end HadrAgent
