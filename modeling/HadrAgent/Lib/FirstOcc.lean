import Mathlib.Data.List.Basic
import Mathlib.Data.List.Nodup

/-!
# First occurrences

`firstOcc key l` keeps, of each key, the first element of `l` that has it. It is what remains of a stream of deliveries
when repetitions are ignored.

- the keys that remain are all the keys, each once (`mem_map_firstOcc`, `nodup_map_firstOcc`), in their order
  (`firstOcc_sublist`);
- a later batch adds the elements whose keys are new (`firstOcc_append`), so an earlier result is a prefix of a later
  one (`firstOcc_prefix`);
- the element that remains for a key is the first with it (`find?_firstOcc`), and an element remains exactly where it
  stands at a position before which its key does not occur (`mem_firstOcc_iff`).
-/

section FirstOcc

variable {α κ : Type*} [DecidableEq κ] (key : α → κ)

/-- Of each key the first element. -/
def firstOcc : List α → List α
  | [] => []
  | a :: l => a :: (firstOcc l).filter fun b => key b ≠ key a

variable {key}

/-- What remains stands in its order. -/
theorem firstOcc_sublist : ∀ l : List α, (firstOcc key l).Sublist l
  | [] => List.Sublist.refl _
  | _ :: l => (List.filter_sublist.trans (firstOcc_sublist l)).cons_cons _

/-- Every key remains. -/
theorem mem_map_firstOcc {k : κ} : ∀ {l : List α}, k ∈ (firstOcc key l).map key ↔ k ∈ l.map key
  | [] => Iff.rfl
  | a :: l => by
    have ih := mem_map_firstOcc (k := k) (l := l)
    simp only [firstOcc, List.map_cons, List.mem_cons, List.mem_map, List.mem_filter, decide_eq_true_eq] at ih ⊢
    constructor
    · rintro (h | ⟨b, ⟨hb, _⟩, hk⟩)
      · exact Or.inl h
      · exact Or.inr (ih.mp ⟨b, hb, hk⟩)
    · rintro (h | h)
      · exact Or.inl h
      · obtain ⟨b, hb, hk⟩ := ih.mpr h
        by_cases e : k = key a
        · exact Or.inl e
        · exact Or.inr ⟨b, ⟨hb, hk ▸ e⟩, hk⟩

/-- No key remains twice. -/
theorem nodup_map_firstOcc : ∀ l : List α, ((firstOcc key l).map key).Nodup
  | [] => List.nodup_nil
  | a :: l => by
    simp only [firstOcc, List.map_cons, List.nodup_cons, List.mem_map, List.mem_filter, decide_eq_true_eq]
    refine ⟨?_, (nodup_map_firstOcc l).sublist (List.filter_sublist.map _)⟩
    rintro ⟨b, ⟨_, hne⟩, he⟩
    exact hne he

/-- **A later batch adds what has a new key.** -/
theorem firstOcc_append : ∀ l m : List α,
    firstOcc key (l ++ m) = firstOcc key l ++ (firstOcc key m).filter fun b => key b ∉ l.map key
  | [], m => by simp [firstOcc]
  | a :: l, m => by
    simp only [List.cons_append, firstOcc, firstOcc_append l m, List.filter_append, List.filter_filter, List.map_cons]
    congr 2
    refine List.filter_congr fun b _ => ?_
    simp only [List.mem_cons, not_or, Bool.decide_and, ne_eq]

theorem firstOcc_append_singleton (l : List α) (a : α) :
    firstOcc key (l ++ [a]) = if key a ∈ l.map key then firstOcc key l else firstOcc key l ++ [a] := by
  have ha : firstOcc key [a] = [a] := rfl
  rw [firstOcc_append, ha, List.filter_singleton]
  by_cases h : key a ∈ l.map key
  · rw [if_pos h]; simp only [h, not_true_eq_false, decide_false, cond_false, List.append_nil]
  · rw [if_neg h]; simp only [h, not_false_eq_true, decide_true, cond_true]

/-- What remains of an earlier part is a prefix of what remains of the whole. -/
theorem firstOcc_prefix {l m : List α} (h : l <+: m) : firstOcc key l <+: firstOcc key m := by
  obtain ⟨t, rfl⟩ := h
  rw [firstOcc_append]
  exact List.prefix_append _ _

/-- The element that remains for a key is the first one with it. -/
theorem find?_firstOcc (k : κ) : ∀ l : List α,
    (firstOcc key l).find? (fun a => key a = k) = l.find? fun a => key a = k
  | [] => rfl
  | a :: l => by
    rw [firstOcc, List.find?_cons, List.find?_cons]
    by_cases e : key a = k
    · simp [e]
    · simp only [e, decide_false]
      rw [List.find?_filter, ← find?_firstOcc k l]
      congr 1
      funext b
      by_cases eb : key b = k
      · simp [eb, Ne.symm e]
      · simp [eb]

/-- An element remains exactly where its key has not occurred before. -/
theorem mem_firstOcc_iff {l : List α} {a : α} :
    a ∈ firstOcc key l ↔ ∃ l₁ l₂, l = l₁ ++ a :: l₂ ∧ key a ∉ l₁.map key := by
  induction l with
  | nil => simp [firstOcc]
  | cons b l ih =>
    simp only [firstOcc, List.mem_cons, List.mem_filter, decide_eq_true_eq]
    constructor
    · rintro (rfl | ⟨ha, hne⟩)
      · exact ⟨[], l, rfl, by simp⟩
      · obtain ⟨l₁, l₂, rfl, hk⟩ := ih.mp ha
        exact ⟨b :: l₁, l₂, rfl, by simpa using ⟨hne, by simpa using hk⟩⟩
    · rintro ⟨l₁, l₂, hl, hk⟩
      cases l₁ with
      | nil => exact Or.inl (List.cons.inj hl).1.symm
      | cons c l₁ =>
        obtain ⟨rfl, rfl⟩ := List.cons.inj hl
        simp only [List.map_cons, List.mem_cons, not_or] at hk
        exact Or.inr ⟨ih.mpr ⟨l₁, l₂, rfl, hk.2⟩, hk.1⟩

end FirstOcc
