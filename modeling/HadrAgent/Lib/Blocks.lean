import Mathlib.Data.List.DropRight
import HadrAgent.Lib.Regex

/-!
# Blocks between tags

The pattern `open.*?close` for an opening and a closing tag. A tag is a word of which the first element does not come
again in it, so it does not overlap itself (`Tag.prefix_of_prefix_append`).

- `Scanned`: a list cut into the parts that stand between its blocks, and the bodies of these; every list has a cut
  (`exists_scanned`), and it is the one the scan finds (`split_of_scanned`);
- `sub_nil_eq_self_iff`: substitution by nothing changes exactly the lists with a block in them;
- `hasBlock_flatten_iff`: what is left has a block exactly if an opening tag is made up across a place where one was;
- `trim`: the ends of a list cut off, which touches no block.
-/

namespace Regex

variable {α : Type*}

/-! ## Tags -/

/-- A word of which the first element does not come again. -/
structure Tag (α : Type*) where
  head : α
  tail : List α
  head_notMem : head ∉ tail

namespace Tag

def text (t : Tag α) : List α := t.head :: t.tail

theorem text_ne_nil (t : Tag α) : t.text ≠ [] := List.cons_ne_nil _ _

/-- **A tag does not overlap another** that begins as it does: before the other one there is room for all of it. -/
theorem prefix_of_prefix_append (t : Tag α) {l r : List α} (hl : l ≠ []) (h : t.text <+: l ++ t.head :: r) :
    t.text <+: l := by
  rcases List.prefix_or_prefix_of_prefix h (List.prefix_append l _) with hpre | ⟨w, hw⟩
  · exact hpre
  · cases w with
    | nil =>
      rw [List.append_nil] at hw
      rw [hw]
    | cons a w =>
      rw [← hw, List.prefix_append_right_inj, List.cons_prefix_cons] at h
      obtain ⟨rfl, -⟩ := h
      cases l with
      | nil => exact absurd rfl hl
      | cons b l =>
        obtain ⟨-, htail⟩ := List.cons.inj hw
        refine absurd ?_ t.head_notMem
        rw [← htail]
        exact List.mem_append_right l List.mem_cons_self

/-- The first place of a tag. -/
theorem exists_first (t : Tag α) {l : List α} (h : t.text <:+: l) :
    ∃ s r, l = s ++ (t.text ++ r) ∧ ¬ t.text <:+: s := by
  induction l with
  | nil => exact absurd (List.infix_nil.mp h) t.text_ne_nil
  | cons a l ih =>
    by_cases hpre : t.text <+: a :: l
    · obtain ⟨r, hr⟩ := hpre
      exact ⟨[], r, hr.symm, fun hnil => t.text_ne_nil (List.infix_nil.mp hnil)⟩
    · obtain ⟨s, r, rfl, hs⟩ := ih ((List.infix_cons_iff.mp h).resolve_left hpre)
      refine ⟨a :: s, r, rfl, ?_⟩
      intro hinf
      rcases List.infix_cons_iff.mp hinf with hp | hi
      · exact hpre (hp.trans (List.prefix_append (a :: s) _))
      · exact hs hi

/-- Where a tag is, and one is not before: what comes behind the first place has what comes behind the other one. -/
theorem infix_of_append_eq (t : Tag α) {s r u w l : List α} (hs : ¬ t.text <:+: s)
    (h : s ++ (t.text ++ r) = u ++ (t.text ++ w)) (hl : l <:+: w) : l <:+: r := by
  rcases List.append_eq_append_iff.mp h with ⟨a, rfl, ha⟩ | ⟨a, rfl, ha⟩
  · cases a with
    | nil =>
      rw [List.nil_append, List.append_cancel_left_eq] at ha
      exact ha ▸ hl
    | cons b a =>
      have hpre : t.text <+: b :: a := by
        refine t.prefix_of_prefix_append (List.cons_ne_nil b a) (r := t.tail ++ w) ?_
        exact ⟨r, ha⟩
      obtain ⟨a', ha'⟩ := hpre
      rw [← ha', List.append_assoc, List.append_cancel_left_eq] at ha
      rw [ha]
      exact (hl.trans (List.suffix_append _ w).isInfix).trans (List.suffix_append _ _).isInfix
  · cases a with
    | nil =>
      rw [List.nil_append, List.append_cancel_left_eq] at ha
      exact ha ▸ hl
    | cons b a =>
      have hpre : t.text <+: b :: a := by
        refine t.prefix_of_prefix_append (List.cons_ne_nil b a) (r := t.tail ++ r) ?_
        exact ⟨w, ha⟩
      exact absurd (hpre.isInfix.trans (List.suffix_append u _).isInfix) hs

end Tag

/-! ## Matches of a block -/

section Block

variable [DecidableEq α] {o c : Tag α}

/-- `open.*?close`. -/
def block (o c : Tag α) : Pattern α where
  first a := decide (a = o.head)
  rest := literal o.tail ++ .lazyMany (fun _ => true) :: literal c.text

/-- A block that begins a list ends at its first closing tag. -/
theorem matchTail_block {b t : List α} (hb : ¬ c.text <:+: b) :
    (block o c).matchTail o.head (o.tail ++ (b ++ (c.text ++ t))) = some (o.tail ++ (b ++ c.text)).length := by
  have hno : ∀ u v, b = u ++ v → v ≠ [] → matchItems (literal c.text) (v ++ (c.text ++ t)) = none := by
    intro u v huv hv
    apply matchItems_literal_of_not_prefix
    intro hpre
    have hv' := (c.prefix_of_prefix_append hv hpre).isInfix
    exact hb (huv ▸ hv'.trans (List.suffix_append u v).isInfix)
  have hlazy := lazyMatch_append (p := fun _ => true) (fun _ _ => rfl) hno (matchItems_literal c.text t)
  unfold Pattern.matchTail block
  rw [if_pos (decide_eq_true rfl), matchItems_literal_append, matchItems_lazyMany, hlazy, Option.map_some,
    List.length_append, List.length_append]
  congr 1
  omega

/-- Where no block begins, none is found. -/
theorem matchTail_block_eq_none {a : α} {l : List α} (h : ∀ b t, a :: l ≠ o.text ++ (b ++ (c.text ++ t))) :
    (block o c).matchTail a l = none := by
  unfold Pattern.matchTail block
  split
  · next ha =>
    obtain rfl := of_decide_eq_true ha
    by_cases hpre : o.tail <+: l
    · obtain ⟨r, rfl⟩ := hpre
      have hnone : lazyMatch (fun _ => true) (matchItems (literal c.text)) r = none := by
        apply lazyMatch_eq_none
        rintro u v rfl
        apply matchItems_literal_of_not_prefix
        rintro ⟨t, rfl⟩
        exact h u t rfl
      rw [matchItems_literal_append, matchItems_lazyMany, hnone, Option.map_none]
    · exact matchItems_literal_eq_none hpre _
  · rfl

end Block

/-! ## Cuts -/

/-- A list with a block in it. -/
def HasBlock (o c : Tag α) (l : List α) : Prop := ∃ s b r, l = s ++ (o.text ++ (b ++ (c.text ++ r)))

/-- The part before the first block, and then each block's body and the part behind it. -/
inductive Scanned (o c : Tag α) : List α → List α → List (List α × List α) → Prop
  | last {l : List α} (h : ¬ HasBlock o c l) : Scanned o c l l []
  | block {s b l s' : List α} {bs : List (List α × List α)} (hs : ¬ o.text <:+: s) (hb : ¬ c.text <:+: b)
      (h : Scanned o c l s' bs) : Scanned o c (s ++ (o.text ++ (b ++ (c.text ++ l)))) s ((b, s') :: bs)

variable {o c : Tag α}

theorem HasBlock.isInfix {l : List α} (h : HasBlock o c l) : o.text <:+: l := by
  obtain ⟨s, b, r, rfl⟩ := h
  exact ⟨s, b ++ (c.text ++ r), by rw [List.append_assoc]⟩

/-- The first opening tag of a list with a block begins a block. -/
theorem HasBlock.exists_first {l : List α} (h : HasBlock o c l) :
    ∃ s b r, l = s ++ (o.text ++ (b ++ (c.text ++ r))) ∧ ¬ o.text <:+: s ∧ ¬ c.text <:+: b := by
  obtain ⟨s, r, hl, hs⟩ := o.exists_first h.isInfix
  obtain ⟨s', b', r', hl'⟩ := h
  have hinf : c.text <:+: b' ++ (c.text ++ r') := ⟨b', r', by rw [List.append_assoc]⟩
  have hr : c.text <:+: r := o.infix_of_append_eq hs (hl.symm.trans hl') hinf
  obtain ⟨b, t, rfl, hb⟩ := c.exists_first hr
  exact ⟨s, b, t, hl, hs, hb⟩

/-- Every list has a cut. -/
theorem exists_scanned (o c : Tag α) (l : List α) : ∃ s bs, Scanned o c l s bs := by
  by_cases h : HasBlock o c l
  · obtain ⟨s, b, r, rfl, hs, hb⟩ := h.exists_first
    have hlt : r.length < (s ++ (o.text ++ (b ++ (c.text ++ r)))).length := by
      simp only [List.length_append, Tag.text, List.length_cons]
      omega
    obtain ⟨s', bs, hr⟩ := exists_scanned o c r
    exact ⟨s, (b, s') :: bs, .block hs hb hr⟩
  · exact ⟨l, [], .last h⟩
termination_by l.length

/-- A cut is not shorter than what is left of it. -/
theorem Scanned.length_le {l s : List α} {bs : List (List α × List α)} (h : Scanned o c l s bs) :
    (s ++ (bs.map Prod.snd).flatten).length + bs.length ≤ l.length := by
  induction h with
  | last h => simp
  | block hs hb h ih =>
    simp only [List.map_cons, List.flatten_cons, List.length_append, List.length_cons, Tag.text] at ih ⊢
    omega

/-- Parts with blocks between them: each block is given by its body and the part behind it. -/
def render (o c : Tag α) (s : List α) : List (List α × List α) → List α
  | [] => s
  | (b, s') :: bs => s ++ (o.text ++ (b ++ (c.text ++ render o c s' bs)))

/-- Parts without opening tags and bodies without closing tags are the cut of what they make up. -/
theorem scanned_render {s : List α} {bs : List (List α × List α)} (hs : ¬ o.text <:+: s)
    (hbs : ∀ p ∈ bs, ¬ c.text <:+: p.1 ∧ ¬ o.text <:+: p.2) : Scanned o c (render o c s bs) s bs := by
  induction bs generalizing s with
  | nil => exact .last fun h => hs h.isInfix
  | cons p bs ih =>
    obtain ⟨hb, hs'⟩ := hbs p List.mem_cons_self
    exact .block hs hb (ih hs' fun q hq => hbs q (List.mem_cons_of_mem p hq))

section Scan

variable [DecidableEq α]

/-- No block begins in a part without opening tags, behind which there is nothing or an opening tag. -/
theorem matchTail_of_free {s t : List α} (hs : ¬ o.text <:+: s) (u : List α) (a : α) (v : List α)
    (huv : s = u ++ a :: v) : (block o c).matchTail a (v ++ (o.text ++ t)) = none := by
  refine matchTail_block_eq_none ?_
  intro b r he
  have hpre : o.text <+: a :: v := by
    refine o.prefix_of_prefix_append (List.cons_ne_nil a v) (r := o.tail ++ t) ?_
    exact ⟨b ++ (c.text ++ r), he.symm⟩
  exact hs (huv ▸ hpre.isInfix.trans (List.suffix_append u _).isInfix)

/-- **The scan finds the cut.** -/
theorem split_of_scanned {l s : List α} {bs : List (List α × List α)} (h : Scanned o c l s bs) :
    (block o c).split l = (s, bs.map Prod.snd) := by
  induction h with
  | last h =>
    refine Pattern.split_of_no_match ?_
    rintro u a v rfl
    refine matchTail_block_eq_none ?_
    intro b t he
    exact h ⟨u, b, t, by rw [he]⟩
  | @block s b l s' bs hs hb h ih =>
    have hmatch := matchTail_block (o := o) (t := l) hb
    have hshape : o.tail ++ (b ++ (c.text ++ l)) = o.tail ++ (b ++ c.text) ++ l := by simp
    rw [hshape] at hmatch
    have hblock := Pattern.split_match hmatch
    rw [← hshape] at hblock
    rw [Pattern.split_append (matchTail_of_free hs)]
    change (s ++ ((block o c).split (o.head :: (o.tail ++ (b ++ (c.text ++ l))))).1,
      ((block o c).split (o.head :: (o.tail ++ (b ++ (c.text ++ l))))).2) = _
    rw [hblock, Pattern.pieces, ih, List.append_nil]
    rfl

theorem sub_nil_of_scanned {l s : List α} {bs : List (List α × List α)} (h : Scanned o c l s bs) :
    (block o c).sub [] l = s ++ (bs.map Prod.snd).flatten := by
  rw [Pattern.sub_nil, Pattern.pieces, split_of_scanned h, List.flatten_cons]

theorem length_sub_nil_lt {l : List α} (hblock : HasBlock o c l) : ((block o c).sub [] l).length < l.length := by
  obtain ⟨s, bs, h⟩ := exists_scanned o c l
  have hlen := h.length_le
  rw [← sub_nil_of_scanned h] at hlen
  cases h with
  | last hno => exact absurd hblock hno
  | block hs hb h =>
    rw [List.length_cons] at hlen
    omega

/-- **Substitution by nothing** takes something away exactly where there is a block. -/
theorem sub_nil_eq_self_iff (l : List α) : (block o c).sub [] l = l ↔ ¬ HasBlock o c l := by
  constructor
  · intro he hblock
    have hlt := length_sub_nil_lt hblock
    rw [he] at hlt
    omega
  · intro hno
    have hsub := sub_nil_of_scanned (.last hno)
    rwa [List.map_nil, List.flatten_nil, List.append_nil] at hsub

end Scan

/-! ## What is left -/

/-- An opening tag is made up of the end of some pieces and the beginning of the others, and a closing tag follows. -/
def Straddles (o c : Tag α) (ps : List (List α)) : Prop :=
  ∃ i o₁ o₂ w, o₁ ≠ [] ∧ o₂ ≠ [] ∧ o.text = o₁ ++ o₂ ∧ o₁ <:+ (ps.take i).flatten ∧
    (ps.drop i).flatten = o₂ ++ w ∧ c.text <:+: w

theorem Straddles.cons {ps : List (List α)} (h : Straddles o c ps) (p : List α) : Straddles o c (p :: ps) := by
  obtain ⟨i, o₁, o₂, w, h₁, h₂, ho, hsuf, hdrop, hc⟩ := h
  refine ⟨i + 1, o₁, o₂, w, h₁, h₂, ho, ?_, hdrop, hc⟩
  rw [List.take_succ_cons, List.flatten_cons]
  exact hsuf.trans (List.suffix_append p _)

/-- A block that is made up across pieces is one of the whole. -/
theorem Straddles.hasBlock {ps : List (List α)} (h : Straddles o c ps) : HasBlock o c ps.flatten := by
  obtain ⟨i, o₁, o₂, w, -, -, ho, ⟨u, hu⟩, hdrop, b, r, hw⟩ := h
  refine ⟨u, b, r, ?_⟩
  rw [← List.take_append_drop i ps, List.flatten_append, ← hu, hdrop, ho, ← hw]
  simp only [List.append_assoc]

/-- The cut puts no opening tag before its last part, and no block in that. -/
theorem Scanned.straddles {l s : List α} {bs : List (List α × List α)} (h : Scanned o c l s bs)
    (hblock : HasBlock o c (s ++ (bs.map Prod.snd).flatten)) : Straddles o c (s :: bs.map Prod.snd) := by
  induction h with
  | last h =>
    rw [List.map_nil, List.flatten_nil, List.append_nil] at hblock
    exact absurd hblock h
  | @block s b l s' bs hs hb h ih =>
    rw [List.map_cons, List.flatten_cons] at hblock
    obtain ⟨u, b', r, he⟩ := hblock
    rcases List.append_eq_append_iff.mp he with ⟨a, rfl, ha⟩ | ⟨a, rfl, ha⟩
    · -- the tag begins behind the first part
      exact (ih ⟨a, b', r, ha⟩).cons s
    · -- it begins in the first part, and does not end there
      rcases List.append_eq_append_iff.mp ha with ⟨a', rfl, ha'⟩ | ⟨o₂, ho, ha'⟩
      · exact absurd ⟨u, a', by rw [List.append_assoc]⟩ hs
      · cases a with
        | nil =>
          refine (ih ⟨[], b', r, ?_⟩).cons _
          rw [List.nil_append, ha', ho]
          simp
        | cons x a =>
          cases o₂ with
          | nil =>
            rw [List.append_nil] at ho
            exact absurd ⟨u, [], by rw [ho, List.append_nil]⟩ hs
          | cons y o₂ =>
            refine ⟨1, x :: a, y :: o₂, b' ++ (c.text ++ r), List.cons_ne_nil x a, List.cons_ne_nil y o₂, ho, ?_, ?_,
              ⟨b', r, by rw [List.append_assoc]⟩⟩
            · rw [List.take_succ_cons, List.take_zero, List.flatten_cons, List.flatten_nil, List.append_nil]
              exact List.suffix_append u _
            · rw [List.drop_succ_cons, List.drop_zero, List.map_cons, List.flatten_cons, ha']

/-- **A block is left** exactly if an opening tag is made up across a place where one was taken out. -/
theorem hasBlock_flatten_iff [DecidableEq α] (l : List α) :
    HasBlock o c ((block o c).pieces l).flatten ↔ Straddles o c ((block o c).pieces l) := by
  constructor
  · intro h
    obtain ⟨s, bs, hscan⟩ := exists_scanned o c l
    rw [Pattern.pieces, split_of_scanned hscan, List.flatten_cons] at h
    rw [Pattern.pieces, split_of_scanned hscan]
    exact hscan.straddles h
  · exact Straddles.hasBlock

/-! ## Trimming -/

/-- A list without the elements at its ends that `p` holds of. -/
def trim (p : α → Bool) (l : List α) : List α := (l.dropWhile p).rdropWhile p

section Trim

variable {p : α → Bool}

theorem trim_isInfix (l : List α) : trim p l <:+: l :=
  (List.rdropWhile_prefix p _).isInfix.trans (List.dropWhile_suffix p).isInfix

theorem trim_trim (l : List α) : trim p (trim p l) = trim p l := by
  have hhead : (trim p l).dropWhile p = trim p l := by
    rw [List.dropWhile_eq_self_iff]
    intro hlen
    have hpre : trim p l <+: l.dropWhile p := List.rdropWhile_prefix p _
    have hlen' := Nat.lt_of_lt_of_le hlen hpre.length_le
    have hdrop := List.dropWhile_eq_self_iff.mp (List.dropWhile_idempotent p l) hlen'
    rwa [hpre.getElem hlen]
  unfold trim at hhead ⊢
  rw [hhead, List.rdropWhile_idempotent]

theorem dropWhile_append_cons {a : α} (ha : p a = false) (u v : List α) :
    (u ++ a :: v).dropWhile p = u.dropWhile p ++ a :: v := by
  induction u with
  | nil => simp [ha]
  | cons b u ih =>
    cases hb : p b with
    | true => simp [hb, ih]
    | false => simp [hb]

theorem rdropWhile_append_cons {a : α} (ha : p a = false) (u v : List α) :
    (u ++ a :: v).rdropWhile p = u ++ a :: v.rdropWhile p := by
  unfold List.rdropWhile
  rw [List.reverse_append, List.reverse_cons, List.append_assoc, List.singleton_append, dropWhile_append_cons ha]
  simp

/-- Trimming touches no block, if `p` holds neither of the first element of the opening tag nor of the last one of the
closing tag. -/
theorem hasBlock_trim_iff {init : List α} {z : α} (ho : p o.head = false) (hc : c.text = init ++ [z])
    (hz : p z = false) (l : List α) : HasBlock o c (trim p l) ↔ HasBlock o c l := by
  constructor
  · rintro ⟨s, b, r, h⟩
    obtain ⟨u, v, huv⟩ := trim_isInfix (p := p) l
    refine ⟨u ++ s, b, r ++ v, ?_⟩
    rw [← huv, h]
    simp only [List.append_assoc]
  · rintro ⟨s, b, r, rfl⟩
    refine ⟨s.dropWhile p, b, r.rdropWhile p, ?_⟩
    have hopen := dropWhile_append_cons ho s (o.tail ++ (b ++ (c.text ++ r)))
    have hclose := rdropWhile_append_cons hz (s.dropWhile p ++ (o.text ++ (b ++ init))) r
    have hshape : s.dropWhile p ++ o.head :: (o.tail ++ (b ++ (c.text ++ r))) =
        s.dropWhile p ++ (o.text ++ (b ++ init)) ++ z :: r := by
      rw [hc]
      simp [Tag.text]
    unfold trim
    change ((s ++ o.head :: (o.tail ++ (b ++ (c.text ++ r)))).dropWhile p).rdropWhile p = _
    rw [hopen, hshape, hclose, hc]
    simp

/-- Substitution and trimming leave a trimmed list as it is exactly if there is no block in it. -/
theorem trim_sub_nil_eq_self_iff [DecidableEq α] {l : List α} (hl : trim p l = l) :
    trim p ((block o c).sub [] l) = l ↔ ¬ HasBlock o c l := by
  constructor
  · intro he hblock
    have hlt := length_sub_nil_lt hblock
    have hle := (trim_isInfix (p := p) ((block o c).sub [] l)).length_le
    rw [he] at hle
    omega
  · intro hno
    rw [(sub_nil_eq_self_iff l).mpr hno, hl]

end Trim

end Regex
