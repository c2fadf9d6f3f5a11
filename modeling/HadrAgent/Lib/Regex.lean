import Mathlib.Data.List.Infix
import Mathlib.Data.List.Lemmas

/-!
# Regular expressions by backtracking

Sequences of single elements and lazy repetitions, with the match a backtracking matcher prefers, and substitution: a
scan from left to right that goes on behind each match. A pattern begins with a single element, so that no match is
empty.

- `Item`, `matchItems`: the length of the preferred match at the start of a list;
- `lazyMatch_append`, `lazyMatch_eq_none`: a lazy repetition ends at the first place where the rest matches;
- `Pattern.split`, `Pattern.sub`: what stands between the matches, and substitution;
- `split_append`, `split_match`: the scan passes over what does not match, and over a match.
-/

namespace Regex

variable {α : Type*}

/-- One element, or as few elements as possible. -/
inductive Item (α : Type*) where
  | one (p : α → Bool)
  | lazyMany (p : α → Bool)

/-- As few elements as possible before what `rest` matches. -/
def lazyMatch (p : α → Bool) (rest : List α → Option Nat) : List α → Option Nat
  | [] => rest []
  | a :: l => (rest (a :: l)).or (if p a then (lazyMatch p rest l).map (· + 1) else none)

/-- The length of the match that is preferred at the start of a list. -/
def matchItems : List (Item α) → List α → Option Nat
  | [], _ => some 0
  | .one _ :: _, [] => none
  | .one p :: items, a :: l => if p a then (matchItems items l).map (· + 1) else none
  | .lazyMany p :: items, l => lazyMatch p (matchItems items) l

/-- The items of a literal. -/
def literal [DecidableEq α] (l : List α) : List (Item α) := l.map fun a => .one fun b => decide (b = a)

/-! ## Matches -/

section Matches

variable {p : α → Bool} {rest : List α → Option Nat}

/-- **A lazy repetition** ends at the first place where the rest matches. -/
theorem lazyMatch_append {l t : List α} {n : Nat} (hp : ∀ a ∈ l, p a = true)
    (hno : ∀ u v, l = u ++ v → v ≠ [] → rest (v ++ t) = none) (h : rest t = some n) :
    lazyMatch p rest (l ++ t) = some (l.length + n) := by
  induction l with
  | nil =>
    rw [List.nil_append, List.length_nil, Nat.zero_add]
    cases t with
    | nil => exact h
    | cons a t =>
      unfold lazyMatch
      rw [h, Option.some_or]
  | cons a l ih =>
    have hhere := hno [] (a :: l) rfl (List.cons_ne_nil a l)
    have hlater := ih (fun b hb => hp b (List.mem_cons_of_mem a hb)) fun u v huv hv =>
      hno (a :: u) v (by rw [huv]; rfl) hv
    rw [List.cons_append] at hhere ⊢
    unfold lazyMatch
    rw [hhere, Option.none_or, if_pos (hp a List.mem_cons_self), hlater, Option.map_some, List.length_cons]
    congr 1
    omega

/-- It fails when the rest matches nowhere. -/
theorem lazyMatch_eq_none {l : List α} (h : ∀ u v, l = u ++ v → rest v = none) : lazyMatch p rest l = none := by
  induction l with
  | nil => exact h [] [] rfl
  | cons a l ih =>
    have hlater := ih fun u v huv => h (a :: u) v (by rw [huv]; rfl)
    unfold lazyMatch
    rw [h [] (a :: l) rfl, hlater, Option.map_none, ite_self, Option.none_or]

theorem matchItems_lazyMany (items : List (Item α)) (l : List α) :
    matchItems (.lazyMany p :: items) l = lazyMatch p (matchItems items) l := rfl

variable [DecidableEq α]

theorem matchItems_literal_append (l : List α) (items : List (Item α)) (t : List α) :
    matchItems (literal l ++ items) (l ++ t) = (matchItems items t).map (· + l.length) := by
  induction l with
  | nil => cases h : matchItems items t <;> simp [literal, h]
  | cons a l ih =>
    have hstep : matchItems (literal (a :: l) ++ items) (a :: l ++ t) =
        (matchItems (literal l ++ items) (l ++ t)).map (· + 1) := by
      simp [literal, matchItems]
    rw [hstep, ih, Option.map_map]
    congr 1

/-- A literal does not match where it is no prefix. -/
theorem matchItems_literal_eq_none {l t : List α} (h : ¬ l <+: t) (items : List (Item α)) :
    matchItems (literal l ++ items) t = none := by
  induction l generalizing t with
  | nil => exact absurd List.nil_prefix h
  | cons a l ih =>
    cases t with
    | nil => rfl
    | cons b t =>
      by_cases hab : b = a
      · subst hab
        have hl : ¬ l <+: t := fun hl => h ((List.prefix_cons_inj b).mpr hl)
        have htail := ih hl
        simp only [literal] at htail
        simp [literal, matchItems, htail]
      · simp [literal, matchItems, hab]

/-- A literal on its own. -/
theorem matchItems_literal (l t : List α) : matchItems (literal l) (l ++ t) = some l.length := by
  have h := matchItems_literal_append l [] t
  rw [List.append_nil] at h
  rw [h, matchItems, Option.map_some, Nat.zero_add]

theorem matchItems_literal_of_not_prefix {l t : List α} (h : ¬ l <+: t) : matchItems (literal l) t = none := by
  have hnone := matchItems_literal_eq_none h []
  rwa [List.append_nil] at hnone

end Matches

/-! ## Substitution -/

/-- A pattern that begins with a single element. -/
structure Pattern (α : Type*) where
  first : α → Bool
  rest : List (Item α)

namespace Pattern

/-- The preferred match at an element and what follows it: how far it goes behind the element. -/
def matchTail (pat : Pattern α) (a : α) (l : List α) : Option Nat :=
  if pat.first a then matchItems pat.rest l else none

/-- The scan: what stands before the first match, and then between the matches and behind the last one. The number says
how much of a match is still to be passed over. -/
def scan (pat : Pattern α) : Nat → List α → List α × List (List α)
  | _, [] => ([], [])
  | skip + 1, _ :: l => pat.scan skip l
  | 0, a :: l =>
    match pat.matchTail a l with
    | some n => ([], (pat.scan n l).1 :: (pat.scan n l).2)
    | none => (a :: (pat.scan 0 l).1, (pat.scan 0 l).2)

/-- `re.split`. -/
def split (pat : Pattern α) (l : List α) : List α × List (List α) := pat.scan 0 l

/-- What stands between the matches. -/
def pieces (pat : Pattern α) (l : List α) : List (List α) := (pat.split l).1 :: (pat.split l).2

/-- `re.sub`: the matches, from left to right, replaced. -/
def sub (pat : Pattern α) (replacement l : List α) : List α := replacement.intercalate (pat.pieces l)

variable {pat : Pattern α}

theorem sub_nil (l : List α) : pat.sub [] l = (pat.pieces l).flatten := by
  unfold sub List.intercalate
  generalize pat.pieces l = ps
  induction ps with
  | nil => rfl
  | cons p ps ih =>
    cases ps with
    | nil => rfl
    | cons q ps =>
      rw [List.intersperse_cons_cons, List.flatten_cons, List.flatten_cons, List.nil_append, ih]
      rfl

theorem scan_length (l t : List α) : pat.scan l.length (l ++ t) = pat.scan 0 t := by
  induction l with
  | nil => rfl
  | cons a l ih => exact ih

/-- **The scan passes over what does not match.** -/
theorem split_append {l t : List α} (h : ∀ u a v, l = u ++ a :: v → pat.matchTail a (v ++ t) = none) :
    pat.split (l ++ t) = (l ++ (pat.split t).1, (pat.split t).2) := by
  unfold split
  induction l with
  | nil => rfl
  | cons a l ih =>
    have hhere := h [] a l rfl
    have hlater := ih fun u b v huv => h (a :: u) b v (by rw [huv]; rfl)
    rw [List.cons_append, scan, hhere]
    simp only [hlater, List.cons_append]

/-- **The scan goes on behind a match.** -/
theorem split_match {a : α} {l t : List α} (h : pat.matchTail a (l ++ t) = some l.length) :
    pat.split (a :: (l ++ t)) = ([], pat.pieces t) := by
  unfold pieces split
  rw [scan, h]
  simp only [scan_length]

/-- A list without a match is one piece. -/
theorem split_of_no_match {l : List α} (h : ∀ u a v, l = u ++ a :: v → pat.matchTail a v = none) :
    pat.split l = (l, []) := by
  have hno : ∀ u a v, l = u ++ a :: v → pat.matchTail a (v ++ []) = none := by
    intro u a v huv
    rw [List.append_nil]
    exact h u a v huv
  have hsplit := split_append hno
  rw [List.append_nil] at hsplit
  rw [hsplit]
  exact Prod.ext (List.append_nil l) rfl

end Pattern

end Regex
