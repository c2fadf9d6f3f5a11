import Mathlib.Data.List.Basic
import Mathlib.Data.List.Chain
import Mathlib.Data.List.TakeWhile

/-!
# `list.sort`

CPython sorts a short list by finding the run it starts with (`countRun`) and inserting the remaining elements one by
one with a binary search (`bisect`, `binarysort`); it decides by `<` alone. `sort` is that procedure. It is what the
interpreter runs below 64 elements; longer lists are cut into such pieces and merged, and where `<` is a strict weak
order on the elements every stable sort gives the same list.

- `sort_perm`: the result is a rearrangement, whatever `<` answers;
- where `<` is a strict weak order on the elements (`StrictWeakOn`), `sort` is repeated stable insertion
  (`sort_eq_foldl`), its result is in order (`sort_inOrder`), and it commutes with filtering (`filter_sort`), which is
  stability: the elements of a filter that `<` does not separate keep their order (`filter_sort_of_inOrder`). An element
  more leaves the others as they were (`sort_append_cons`);
- order and stability determine the result (`eq_of_inOrder`);
- a list in which no element is strictly before its neighbour is left alone, whatever `<` answers elsewhere
  (`sort_of_chain`), so one element that compares with nothing can keep others out of order (`exists_perm_chain`).
-/

namespace Listsort

variable {α : Type*}

/-- Below `prev`, the longest piece whose neighbours satisfy `cont`, and the rest. -/
def takeRun (cont : α → α → Bool) : α → List α → List α × List α
  | _, [] => ([], [])
  | prev, x :: l => if cont prev x then (x :: (takeRun cont x l).1, (takeRun cont x l).2) else ([], x :: l)

/-- The run a list starts with, in ascending order (a strictly descending one is reversed), and the rest. -/
def countRun (lt : α → α → Bool) : List α → List α × List α
  | [] => ([], [])
  | [a] => ([a], [])
  | a :: b :: l =>
    if lt b a then
      let r := takeRun (fun prev x => lt x prev) b l
      ((a :: b :: r.1).reverse, r.2)
    else
      let r := takeRun (fun prev x => !lt x prev) b l
      (a :: b :: r.1, r.2)

/-- The binary search of `binarysort` between `lo` and `hi`: where `pivot` goes in `s`. -/
def bisect (lt : α → α → Bool) (pivot : α) (s : List α) : Nat → Nat → Nat → Nat
  | 0, lo, _ => lo
  | fuel + 1, lo, hi =>
    if lo < hi then
      let p := lo + (hi - lo) / 2
      match s[p]? with
      | none => lo
      | some y => if lt pivot y then bisect lt pivot s fuel lo p else bisect lt pivot s fuel (p + 1) hi
    else lo

/-- One round of `binarysort`: `pivot` goes into the sorted part. -/
def binaryInsert (lt : α → α → Bool) (s : List α) (pivot : α) : List α :=
  let i := bisect lt pivot s s.length 0 s.length
  s.take i ++ pivot :: s.drop i

/-- `list.sort`. -/
def sort (lt : α → α → Bool) (l : List α) : List α := (countRun lt l).2.foldl (binaryInsert lt) (countRun lt l).1

/-! ## The result is a rearrangement -/

theorem takeRun_append (cont : α → α → Bool) : ∀ (prev : α) (l : List α),
    (takeRun cont prev l).1 ++ (takeRun cont prev l).2 = l
  | _, [] => rfl
  | prev, x :: l => by
    unfold takeRun
    split
    · simp [takeRun_append cont x l]
    · rfl

theorem countRun_perm (lt : α → α → Bool) (l : List α) : ((countRun lt l).1 ++ (countRun lt l).2).Perm l := by
  unfold countRun
  split
  · exact List.Perm.refl _
  · exact List.Perm.refl _
  · next a b l =>
    split
    · refine ((List.reverse_perm _).append_right _).trans ?_
      simp [takeRun_append]
    · simp [takeRun_append]

theorem binaryInsert_perm (lt : α → α → Bool) (s : List α) (x : α) : (binaryInsert lt s x).Perm (x :: s) := by
  unfold binaryInsert
  refine List.perm_middle.trans ?_
  rw [List.take_append_drop]

theorem foldl_binaryInsert_perm (lt : α → α → Bool) : ∀ (l s : List α), (l.foldl (binaryInsert lt) s).Perm (s ++ l)
  | [], s => by simp
  | x :: l, s => by
    refine (foldl_binaryInsert_perm lt l _).trans (((binaryInsert_perm lt s x).append_right l).trans ?_)
    exact List.perm_middle.symm

/-- **Sorting rearranges**, whatever `<` answers. -/
theorem sort_perm (lt : α → α → Bool) (l : List α) : (sort lt l).Perm l :=
  (foldl_binaryInsert_perm lt _ _).trans (countRun_perm lt l)

theorem mem_sort {lt : α → α → Bool} {l : List α} {a : α} : a ∈ sort lt l ↔ a ∈ l := (sort_perm lt l).mem_iff

/-- A piece whose neighbours all satisfy `cont` is taken whole. -/
theorem takeRun_of_chain {cont : α → α → Bool} : ∀ {prev : α} {l : List α},
    (prev :: l).IsChain (fun a b => cont a b = true) → takeRun cont prev l = (l, [])
  | _, [], _ => rfl
  | prev, x :: l, h => by
    obtain ⟨hx, h⟩ := List.isChain_cons_cons.mp h
    unfold takeRun
    rw [if_pos hx, takeRun_of_chain h]

/-- **One run is left alone**, whatever `<` answers on elements that are not neighbours. -/
theorem sort_of_chain {lt : α → α → Bool} {l : List α} (h : l.IsChain fun a b => lt b a = false) : sort lt l = l := by
  match l, h with
  | [], _ => rfl
  | [a], _ => rfl
  | a :: b :: l, h =>
    obtain ⟨hab, h⟩ := List.isChain_cons_cons.mp h
    have hrun : takeRun (fun prev x => !lt x prev) b l = (l, []) := takeRun_of_chain (h.imp fun u v e => by simp [e])
    simp [sort, countRun, hab, hrun]

/-! ## Order -/

/-- No element is strictly before an earlier one. -/
def InOrder (lt : α → α → Bool) (l : List α) : Prop := l.Pairwise fun a b => lt b a = false

/-- `<` is a strict weak order on the elements that satisfy `P`. -/
structure StrictWeakOn (lt : α → α → Bool) (P : α → Prop) : Prop where
  asymm : ∀ a b, P a → P b → lt a b = true → lt b a = false
  negTrans : ∀ a b c, P a → P b → P c → lt a b = false → lt b c = false → lt a c = false

section Ordered

variable {lt : α → α → Bool} {P : α → Prop}

theorem StrictWeakOn.mono {Q : α → Prop} (h : StrictWeakOn lt P) (hq : ∀ a, Q a → P a) : StrictWeakOn lt Q :=
  ⟨fun a b ha hb => h.asymm a b (hq a ha) (hq b hb),
    fun a b c ha hb hc => h.negTrans a b c (hq a ha) (hq b hb) (hq c hc)⟩

/-- Stable insertion: after every element that `x` is not strictly before. -/
def insertUpper (lt : α → α → Bool) (s : List α) (x : α) : List α :=
  s.takeWhile (fun y => !lt x y) ++ x :: s.dropWhile (fun y => !lt x y)

theorem insertUpper_cons (s : List α) (x y : α) :
    insertUpper lt (y :: s) x = if lt x y then x :: y :: s else y :: insertUpper lt s x := by
  by_cases h : lt x y <;> simp [insertUpper, h]

theorem insertUpper_perm (s : List α) (x : α) : (insertUpper lt s x).Perm (x :: s) := by
  unfold insertUpper
  refine List.perm_middle.trans ?_
  rw [List.takeWhile_append_dropWhile]

/-- Below `x` in a list in order, everything is below `x`. -/
theorem lt_of_lt_head (h : StrictWeakOn lt P) {x y : α} {s : List α} (hx : P x) (hs : ∀ z ∈ y :: s, P z)
    (ho : InOrder lt (y :: s)) (hxy : lt x y = true) : ∀ z ∈ y :: s, lt x z = true := by
  intro z hz
  rcases List.mem_cons.mp hz with rfl | hz
  · exact hxy
  · have hzy : lt z y = false := (List.pairwise_cons.mp ho).1 z hz
    cases e : lt x z with
    | true => rfl
    | false =>
      have := h.negTrans x z y hx (hs z (List.mem_cons_of_mem _ hz)) (hs y List.mem_cons_self) e hzy
      rw [hxy] at this
      exact this.symm

theorem insertUpper_inOrder (h : StrictWeakOn lt P) {x : α} (hx : P x) : ∀ {s : List α}, (∀ z ∈ s, P z) →
    InOrder lt s → InOrder lt (insertUpper lt s x)
  | [], _, _ => List.pairwise_singleton _ _
  | y :: s, hs, ho => by
    have hy : P y := hs y List.mem_cons_self
    rw [insertUpper_cons]
    split
    · next hxy =>
      refine List.pairwise_cons.mpr ⟨fun z hz => ?_, ho⟩
      exact h.asymm x z hx (hs z hz) (lt_of_lt_head h hx hs ho hxy z hz)
    · next hxy =>
      obtain ⟨hys, hos⟩ := List.pairwise_cons.mp ho
      refine List.pairwise_cons.mpr ⟨fun z hz => ?_, insertUpper_inOrder h hx
        (fun z hz => hs z (List.mem_cons_of_mem _ hz)) hos⟩
      rcases List.mem_cons.mp ((insertUpper_perm s x).mem_iff.mp hz) with rfl | hz
      · simpa using hxy
      · exact hys z hz

/-- Filtering and stable insertion. -/
theorem filter_insertUpper (h : StrictWeakOn lt P) (p : α → Bool) {x : α} (hx : P x) : ∀ {s : List α},
    (∀ z ∈ s, P z) → InOrder lt s →
      (insertUpper lt s x).filter p = if p x then insertUpper lt (s.filter p) x else s.filter p
  | [], _, _ => by by_cases hp : p x <;> simp [insertUpper, hp]
  | y :: s, hs, ho => by
    have hos := (List.pairwise_cons.mp ho).2
    have ih := filter_insertUpper h p hx (fun z hz => hs z (List.mem_cons_of_mem _ hz)) hos
    rw [insertUpper_cons]
    by_cases hxy : lt x y = true
    · rw [if_pos hxy]
      have hall := lt_of_lt_head h hx hs ho hxy
      by_cases hp : p x = true
      · have key : ∀ t : List α, (∀ z ∈ t, lt x z = true) → insertUpper lt t x = x :: t := by
          intro t ht
          cases t with
          | nil => rfl
          | cons z t => rw [insertUpper_cons, if_pos (ht z List.mem_cons_self)]
        rw [if_pos hp, List.filter_cons_of_pos hp, key _ fun z hz => hall z (List.mem_filter.mp hz).1]
      · rw [if_neg hp, List.filter_cons_of_neg hp]
    · rw [if_neg hxy]
      by_cases hpy : p y = true
      · rw [List.filter_cons_of_pos hpy, ih, List.filter_cons_of_pos hpy, insertUpper_cons, if_neg hxy]
        split <;> rfl
      · rw [List.filter_cons_of_neg hpy, ih, List.filter_cons_of_neg hpy]

/-! ## The binary search finds the place of the stable insertion -/

/-- Where `lt pivot` switches from false to true at `i`, the search between two bounds around `i` ends at `i`. -/
theorem bisect_eq (pivot : α) (s : List α) {i : Nat} (hlo : ∀ j y, j < i → s[j]? = some y → lt pivot y = false)
    (hhi : ∀ j y, i ≤ j → s[j]? = some y → lt pivot y = true) : ∀ (fuel lo hi : Nat), lo ≤ i → i ≤ hi →
      hi ≤ s.length → hi - lo ≤ fuel → bisect lt pivot s fuel lo hi = i
  | 0, lo, hi, h₁, h₂, _, hf => by unfold bisect; omega
  | fuel + 1, lo, hi, h₁, h₂, h₃, hf => by
    unfold bisect
    by_cases hlt : lo < hi
    · have hp : lo + (hi - lo) / 2 < s.length := by omega
      rw [if_pos hlt]
      simp only [List.getElem?_eq_getElem hp]
      have hget : s[lo + (hi - lo) / 2]? = some s[lo + (hi - lo) / 2] := List.getElem?_eq_getElem hp
      by_cases hi' : i ≤ lo + (hi - lo) / 2
      · rw [if_pos (hhi _ _ hi' hget)]
        exact bisect_eq pivot s hlo hhi fuel lo _ h₁ hi' (by omega) (by omega)
      · have := hlo _ _ (by omega) hget
        simp only [this, Bool.false_eq_true, ↓reduceIte]
        exact bisect_eq pivot s hlo hhi fuel _ hi (by omega) h₂ h₃ (by omega)
    · rw [if_neg hlt]; omega

theorem bisect_eq_length_takeWhile (h : StrictWeakOn lt P) {x : α} {s : List α} (hx : P x) (hs : ∀ z ∈ s, P z)
    (ho : InOrder lt s) : bisect lt x s s.length 0 s.length = (s.takeWhile fun y => !lt x y).length := by
  have hle : (s.takeWhile fun y => !lt x y).length ≤ s.length := (List.takeWhile_prefix _).length_le
  refine bisect_eq x s ?_ ?_ _ _ _ (Nat.zero_le _) hle (Nat.le_refl _) (by omega)
  · intro j y hj hy
    rw [← List.takeWhile_append_dropWhile (p := fun y => !lt x y) (l := s), List.getElem?_append_left hj] at hy
    simpa using List.mem_takeWhile_imp (List.mem_of_getElem? hy)
  · intro j y hj hy
    -- the element is in the dropped part, which starts with one that `x` is strictly before
    rw [← List.takeWhile_append_dropWhile (p := fun y => !lt x y) (l := s),
      List.getElem?_append_right hj] at hy
    have hmem := List.mem_of_getElem? hy
    cases hd : s.dropWhile fun y => !lt x y with
    | nil => rw [hd] at hmem; cases hmem
    | cons z t =>
      have hz : lt x z = true := by
        have := List.head_dropWhile_not (fun y => !lt x y) (l := s) (by rw [hd]; simp)
        simpa [hd] using this
      have hsub : (z :: t).Sublist s := hd ▸ (List.dropWhile_suffix _).sublist
      exact lt_of_lt_head h hx (fun w hw => hs w (hsub.subset hw)) (ho.sublist hsub) hz y (hd ▸ hmem)

theorem binaryInsert_eq (h : StrictWeakOn lt P) {x : α} {s : List α} (hx : P x) (hs : ∀ z ∈ s, P z)
    (ho : InOrder lt s) : binaryInsert lt s x = insertUpper lt s x := by
  show s.take (bisect lt x s s.length 0 s.length) ++ x :: s.drop (bisect lt x s s.length 0 s.length) =
    s.takeWhile (fun y => !lt x y) ++ x :: s.dropWhile (fun y => !lt x y)
  rw [bisect_eq_length_takeWhile h hx hs ho]
  have hs' := List.takeWhile_append_dropWhile (p := fun y => !lt x y) (l := s)
  congr 1
  · exact (congrArg (List.take _) hs'.symm).trans List.take_left
  · exact congrArg (x :: ·) ((congrArg (List.drop _) hs'.symm).trans List.drop_left)

/-! ## `sort` is repeated stable insertion -/

theorem foldl_insertUpper_spec (h : StrictWeakOn lt P) : ∀ {l s : List α}, (∀ z ∈ l, P z) → (∀ z ∈ s, P z) →
    InOrder lt s → l.foldl (binaryInsert lt) s = l.foldl (insertUpper lt) s ∧ InOrder lt (l.foldl (insertUpper lt) s)
  | [], _, _, _, ho => ⟨rfl, ho⟩
  | x :: l, s, hl, hs, ho => by
    have hx := hl x List.mem_cons_self
    simp only [List.foldl_cons]
    rw [binaryInsert_eq h hx hs ho]
    refine foldl_insertUpper_spec h (fun z hz => hl z (List.mem_cons_of_mem _ hz)) (fun z hz => ?_)
      (insertUpper_inOrder h hx hs ho)
    rcases List.mem_cons.mp ((insertUpper_perm s x).mem_iff.mp hz) with rfl | hz
    · exact hx
    · exact hs z hz

/-- Inserting after everything. -/
theorem insertUpper_append {s : List α} {x : α} (hx : ∀ y ∈ s, lt x y = false) : insertUpper lt s x = s ++ [x] := by
  have hx' : ∀ y ∈ s, (!lt x y) = true := fun y hy => by simp [hx y hy]
  simp [insertUpper, List.takeWhile_eq_self_iff.mpr hx', List.dropWhile_eq_nil_iff.mpr hx']

/-- Repeated insertion leaves a list in order as it is. -/
theorem foldl_insertUpper_of_inOrder : ∀ {l s : List α}, InOrder lt (s ++ l) → l.foldl (insertUpper lt) s = s ++ l
  | [], s, _ => by simp
  | x :: l, s, ho => by
    have hx : ∀ y ∈ s, lt x y = false := fun y hy => (List.pairwise_append.mp ho).2.2 y hy x List.mem_cons_self
    rw [List.foldl_cons, insertUpper_append hx, foldl_insertUpper_of_inOrder (by simpa using ho)]
    simp

/-- Repeated insertion reverses a list in which each element is strictly before the earlier ones. -/
theorem foldl_insertUpper_of_desc : ∀ {l s : List α}, (∀ x ∈ l, ∀ y ∈ s, lt x y = true) →
    l.Pairwise (fun a b => lt b a = true) → l.foldl (insertUpper lt) s = l.reverse ++ s
  | [], _, _, _ => rfl
  | x :: l, s, hs, hd => by
    obtain ⟨hxl, hd⟩ := List.pairwise_cons.mp hd
    have hx : insertUpper lt s x = x :: s := by
      cases s with
      | nil => rfl
      | cons y s => rw [insertUpper_cons, if_pos (hs x List.mem_cons_self y List.mem_cons_self)]
    rw [List.foldl_cons, hx, foldl_insertUpper_of_desc ?_ hd]
    · simp
    · intro z hz y hy
      rcases List.mem_cons.mp hy with rfl | hy
      · exact hxl z hz
      · exact hs z (List.mem_cons_of_mem _ hz) y hy

theorem takeRun_chain (cont : α → α → Bool) : ∀ (prev : α) (l : List α),
    (prev :: (takeRun cont prev l).1).IsChain fun a b => cont a b = true
  | _, [] => List.IsChain.singleton _
  | prev, x :: l => by
    unfold takeRun
    split
    · next hc => exact List.isChain_cons_cons.mpr ⟨hc, takeRun_chain cont x l⟩
    · exact List.IsChain.singleton _

/-- A chain of a transitive relation on the elements is pairwise. -/
theorem pairwise_of_chain {R : α → α → Prop} (htr : ∀ a b c, P a → P b → P c → R a b → R b c → R a c) :
    ∀ {l : List α}, (∀ z ∈ l, P z) → l.IsChain R → l.Pairwise R
  | [], _, _ => List.Pairwise.nil
  | [_], _, _ => List.pairwise_singleton _ _
  | a :: b :: l, hl, hc => by
    obtain ⟨hab, hc⟩ := List.isChain_cons_cons.mp hc
    have ih := pairwise_of_chain htr (fun z hz => hl z (List.mem_cons_of_mem _ hz)) hc
    refine List.pairwise_cons.mpr ⟨fun z hz => ?_, ih⟩
    rcases List.mem_cons.mp hz with rfl | hz'
    · exact hab
    · exact htr a b z (hl a List.mem_cons_self) (hl b (List.mem_cons_of_mem _ List.mem_cons_self))
        (hl z (List.mem_cons_of_mem _ hz)) hab ((List.pairwise_cons.mp ih).1 z hz')

theorem StrictWeakOn.trans (h : StrictWeakOn lt P) {a b c : α} (ha : P a) (hb : P b) (hc : P c) (hab : lt a b = true)
    (hbc : lt b c = true) : lt a c = true := by
  cases e : lt a c with
  | true => rfl
  | false =>
    have := h.negTrans a c b ha hc hb e (h.asymm b c hb hc hbc)
    rw [hab] at this
    exact this.symm

/-- The run found at the start is what repeated insertion makes of it. -/
theorem countRun_spec (h : StrictWeakOn lt P) {l : List α} (hl : ∀ z ∈ l, P z) :
    ∃ pre, l = pre ++ (countRun lt l).2 ∧ (countRun lt l).1 = pre.foldl (insertUpper lt) [] ∧
      InOrder lt (countRun lt l).1 := by
  unfold countRun
  split
  · exact ⟨[], rfl, rfl, List.Pairwise.nil⟩
  · next a => exact ⟨[a], by simp, rfl, List.pairwise_singleton _ _⟩
  · next a b l =>
    have hmem : ∀ cont : α → α → Bool, ∀ z ∈ a :: b :: (takeRun cont b l).1, P z := by
      intro cont z hz
      refine hl z ?_
      simp only [List.mem_cons] at hz ⊢
      rcases hz with hz | hz | hz
      · exact Or.inl hz
      · exact Or.inr (Or.inl hz)
      · refine Or.inr (Or.inr ?_)
        rw [← takeRun_append cont b l]
        exact List.mem_append_left _ hz
    split
    · next hba =>
      have hchain : (a :: b :: (takeRun (fun prev x => lt x prev) b l).1).Pairwise (fun u v => lt v u = true) :=
        pairwise_of_chain (R := fun u v => lt v u = true)
          (fun u v w hu hv hw huv hvw => h.trans hw hv hu hvw huv) (hmem _)
          (List.isChain_cons_cons.mpr ⟨hba, takeRun_chain _ b l⟩)
      refine ⟨a :: b :: (takeRun (fun prev x => lt x prev) b l).1, by simp [takeRun_append], ?_, ?_⟩
      · rw [foldl_insertUpper_of_desc (by simp) hchain, List.append_nil]
      · refine List.pairwise_reverse.mpr (hchain.imp_of_mem fun {u v} hu hv huv => ?_)
        exact h.asymm v u (hmem _ v hv) (hmem _ u hu) huv
    · next hba =>
      have hchain : InOrder lt (a :: b :: (takeRun (fun prev x => !lt x prev) b l).1) := by
        have hc := takeRun_chain (fun prev x => !lt x prev) b l
        refine pairwise_of_chain (fun u v w hu hv hw huv hvw => h.negTrans w v u hw hv hu hvw huv) (hmem _)
          (List.isChain_cons_cons.mpr ⟨by simpa using hba, hc.imp fun u v huv => by simpa using huv⟩)
      refine ⟨a :: b :: (takeRun (fun prev x => !lt x prev) b l).1, by simp [takeRun_append], ?_, hchain⟩
      exact (foldl_insertUpper_of_inOrder (s := []) hchain).symm

/-- **On a strict weak order `sort` is repeated stable insertion**, and its result is in order. -/
theorem sort_eq_foldl (h : StrictWeakOn lt P) {l : List α} (hl : ∀ z ∈ l, P z) :
    sort lt l = l.foldl (insertUpper lt) [] ∧ InOrder lt (sort lt l) := by
  obtain ⟨pre, hpre, hrun, ho⟩ := countRun_spec h hl
  have hrest : ∀ z ∈ (countRun lt l).2, P z := fun z hz => hl z (by rw [hpre]; exact List.mem_append_right _ hz)
  have hsorted : ∀ z ∈ (countRun lt l).1, P z := fun z hz =>
    hl z ((countRun_perm lt l).mem_iff.mp (List.mem_append_left _ hz))
  have := foldl_insertUpper_spec h hrest hsorted ho
  unfold sort
  refine ⟨?_, this.1 ▸ this.2⟩
  rw [this.1]
  conv_rhs => rw [hpre, List.foldl_append, ← hrun]

/-- **The result is in order.** -/
theorem sort_inOrder (h : StrictWeakOn lt P) {l : List α} (hl : ∀ z ∈ l, P z) : InOrder lt (sort lt l) :=
  (sort_eq_foldl h hl).2

theorem filter_foldl_insertUpper (h : StrictWeakOn lt P) (p : α → Bool) : ∀ {l s : List α}, (∀ z ∈ l, P z) →
    (∀ z ∈ s, P z) → InOrder lt s →
      (l.foldl (insertUpper lt) s).filter p = (l.filter p).foldl (insertUpper lt) (s.filter p)
  | [], _, _, _, _ => rfl
  | x :: l, s, hl, hs, ho => by
    have hx := hl x List.mem_cons_self
    have hs' : ∀ z ∈ insertUpper lt s x, P z := fun z hz => by
      rcases List.mem_cons.mp ((insertUpper_perm s x).mem_iff.mp hz) with rfl | hz
      · exact hx
      · exact hs z hz
    rw [List.foldl_cons, filter_foldl_insertUpper h p (fun z hz => hl z (List.mem_cons_of_mem _ hz)) hs'
      (insertUpper_inOrder h hx hs ho), filter_insertUpper h p hx hs ho]
    by_cases hp : p x = true
    · simp [hp]
    · simp [hp]

/-- **Sorting commutes with filtering.** -/
theorem filter_sort (h : StrictWeakOn lt P) (p : α → Bool) {l : List α} (hl : ∀ z ∈ l, P z) :
    (sort lt l).filter p = sort lt (l.filter p) := by
  rw [(sort_eq_foldl h hl).1, (sort_eq_foldl h fun z hz => hl z (List.mem_filter.mp hz).1).1,
    filter_foldl_insertUpper h p hl (by simp) List.Pairwise.nil, List.filter_nil]

/-- **Stability**: elements of a filter that are in order already keep their order. -/
theorem filter_sort_of_inOrder (h : StrictWeakOn lt P) (p : α → Bool) {l : List α} (hl : ∀ z ∈ l, P z)
    (ho : InOrder lt (l.filter p)) : (sort lt l).filter p = l.filter p := by
  rw [filter_sort h p hl, (sort_eq_foldl h fun z hz => hl z (List.mem_filter.mp hz).1).1]
  exact foldl_insertUpper_of_inOrder (s := []) ho

/-- Whether `<` separates two elements in neither direction. -/
def tied (lt : α → α → Bool) (x y : α) : Bool := !lt x y && !lt y x

theorem tied_iff {x y : α} : tied lt x y = true ↔ lt x y = false ∧ lt y x = false := by
  simp [tied]

theorem StrictWeakOn.tied_self (h : StrictWeakOn lt P) {x : α} (hx : P x) : tied lt x x = true := by
  have hxx : lt x x = false := by
    cases e : lt x x with
    | false => rfl
    | true => exact e.symm.trans (h.asymm x x hx hx e)
  exact tied_iff.mpr ⟨hxx, hxx⟩

/-- **Ties keep their order.** -/
theorem filter_tied_sort (h : StrictWeakOn lt P) {x : α} (hx : P x) {l : List α} (hl : ∀ z ∈ l, P z) :
    (sort lt l).filter (tied lt x) = l.filter (tied lt x) := by
  refine filter_sort_of_inOrder h _ hl (List.pairwise_of_forall_mem_list ?_)
  intro a ha b hb
  obtain ⟨ha, hxa⟩ := List.mem_filter.mp ha
  obtain ⟨hb, hxb⟩ := List.mem_filter.mp hb
  exact h.negTrans b x a (hl b hb) hx (hl a ha) (tied_iff.mp hxb).2 (tied_iff.mp hxa).1

/-- **A list in order is determined** by its elements and by the order among the tied ones. -/
theorem eq_of_inOrder (h : StrictWeakOn lt P) : ∀ {l m : List α}, (∀ z ∈ l, P z) → l.Perm m → InOrder lt l →
    InOrder lt m → (∀ x ∈ l, l.filter (tied lt x) = m.filter (tied lt x)) → l = m
  | [], m, _, hp, _, _, _ => hp.nil_eq
  | a :: l, [], _, hp, _, _, _ => absurd hp.length_eq (by simp)
  | a :: l, b :: m, hl, hp, ho, ho', ht => by
    have ha : P a := hl a List.mem_cons_self
    have hfirst : ∀ {c : α} {k : List α}, InOrder lt (c :: k) → P c → ∀ z ∈ c :: k, lt z c = false := by
      intro c k hk hc z hz
      rcases List.mem_cons.mp hz with rfl | hz
      · exact (tied_iff.mp (h.tied_self hc)).1
      · exact (List.pairwise_cons.mp hk).1 z hz
    have hb : P b := hl b (hp.mem_iff.mpr List.mem_cons_self)
    -- both lists start with a least element, so with the first of its ties
    have hab : tied lt a b = true := tied_iff.mpr
      ⟨hfirst ho' hb a (hp.mem_iff.mp List.mem_cons_self), hfirst ho ha b (hp.mem_iff.mpr List.mem_cons_self)⟩
    have hhead := ht a List.mem_cons_self
    rw [List.filter_cons_of_pos (h.tied_self ha), List.filter_cons_of_pos hab] at hhead
    obtain rfl := (List.cons.inj hhead).1
    refine congrArg (a :: ·) (eq_of_inOrder h (fun z hz => hl z (List.mem_cons_of_mem _ hz)) hp.cons_inv
      (List.pairwise_cons.mp ho).2 (List.pairwise_cons.mp ho').2 fun x hx => ?_)
    have htail := ht x (List.mem_cons_of_mem _ hx)
    rw [List.filter_cons, List.filter_cons] at htail
    split at htail
    · exact (List.cons.inj htail).2
    · exact htail

/-- **One element more**: it goes somewhere, and the others stay as they were. `p` tells it apart from them. -/
theorem sort_append_cons (h : StrictWeakOn lt P) (p : α → Bool) {l r : List α} {x : α} (hP : ∀ z ∈ l ++ x :: r, P z)
    (hx : p x = false) (hp : ∀ z ∈ l ++ r, p z = true) :
    ∃ a b, sort lt (l ++ x :: r) = a ++ x :: b ∧ sort lt (l ++ r) = a ++ b := by
  have hmem : x ∈ sort lt (l ++ x :: r) := mem_sort.mpr (by simp)
  obtain ⟨a, b, hab⟩ := List.append_of_mem hmem
  have hfilter : (l ++ x :: r).filter p = l ++ r := by
    rw [List.filter_append, List.filter_cons_of_neg (by simp [hx]), ← List.filter_append, List.filter_eq_self.mpr hp]
  have hsort : a.filter p ++ b.filter p = sort lt (l ++ r) := by
    rw [← hfilter, ← filter_sort h p hP, hab, List.filter_append, List.filter_cons_of_neg (by simp [hx])]
  -- by length, the filter drops nothing but `x`
  have hlen : (a ++ x :: b).length = (l ++ x :: r).length := hab ▸ (sort_perm lt _).length_eq
  have hlen' : (a.filter p ++ b.filter p).length = (l ++ r).length := hsort ▸ (sort_perm lt _).length_eq
  have ha := List.length_filter_le p a
  have hb := List.length_filter_le p b
  simp only [List.length_append, List.length_cons] at hlen hlen'
  refine ⟨a, b, hab, ?_⟩
  rw [← hsort, List.filter_eq_self.mpr (List.length_filter_eq_length_iff.mp (by omega)),
    List.filter_eq_self.mpr (List.length_filter_eq_length_iff.mp (by omega))]

/-- **One unordered element is enough**: where some element compares with nothing and two others are strictly ordered,
the elements can be put into a single run that has the two the wrong way round. -/
theorem exists_perm_chain {ordered : α → Bool} (h : StrictWeakOn lt fun a => ordered a = true)
    (hn : ∀ a b, ordered a = false ∨ ordered b = false → lt a b = false) {l : List α} {i j n : α} (hi : i ∈ l)
    (hj : j ∈ l) (hni : n ∈ l) (oi : ordered i = true) (oj : ordered j = true) (on : ordered n = false)
    (hij : lt i j = true) :
    ∃ m, m.Perm l ∧ m.IsChain (fun a b => lt b a = false) ∧ ∃ a b, m = a ++ b ++ [i] ∧ j ∈ a := by
  obtain ⟨l₁, l₂, rfl⟩ := List.append_of_mem hi
  have hrest : ∀ z ∈ l₁ ++ i :: l₂, z ≠ i → z ∈ l₁ ++ l₂ := by
    intro z hz hne
    simpa [hne] using hz
  have hji : j ≠ i := by
    rintro rfl
    have hjj := (tied_iff.mp (h.tied_self oj)).1
    rw [hij] at hjj
    cases hjj
  have hnei : n ≠ i := by
    rintro rfl
    rw [oi] at on
    cases on
  have hN : n ∈ (l₁ ++ l₂).filter fun z => !ordered z := List.mem_filter.mpr ⟨hrest n hni hnei, by simp [on]⟩
  have hS : ∀ z ∈ (l₁ ++ l₂).filter ordered, ordered z = true := fun z hz => (List.mem_filter.mp hz).2
  -- the ordered elements but `i`, sorted; the unordered ones; then `i`
  refine ⟨sort lt ((l₁ ++ l₂).filter ordered) ++ ((l₁ ++ l₂).filter fun z => !ordered z) ++ [i], ?_, ?_, _, _, rfl, ?_⟩
  · refine List.perm_append_comm.trans (List.Perm.trans ?_ List.perm_middle.symm)
    exact List.Perm.cons i (((sort_perm lt _).append_right _).trans (List.filter_append_perm _ _))
  · rw [List.append_assoc]
    refine List.IsChain.append (sort_inOrder h hS).isChain (List.IsChain.append ?_ (List.IsChain.singleton _) ?_) ?_
    · refine (List.pairwise_of_forall_mem_list fun a _ b hb => hn b a (.inl ?_)).isChain
      simpa using (List.mem_filter.mp hb).2
    · intro a ha b _
      exact hn b a (.inr (by simpa using (List.mem_filter.mp (List.mem_of_mem_getLast? ha)).2))
    · intro a _ b hb
      -- the list after the sorted part starts with an unordered element
      cases hd : (l₁ ++ l₂).filter fun z => !ordered z with
      | nil =>
        rw [hd] at hN
        cases hN
      | cons c k =>
        rw [hd, List.cons_append, List.head?_cons, Option.mem_some] at hb
        have hc : c ∈ (l₁ ++ l₂).filter fun z => !ordered z := hd ▸ List.mem_cons_self
        exact hn b a (.inl (hb ▸ by simpa using (List.mem_filter.mp hc).2))
  · exact mem_sort.mpr (List.mem_filter.mpr ⟨hrest j hj hji, oj⟩)

end Ordered

end Listsort
