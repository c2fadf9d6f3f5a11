import Mathlib.Algebra.BigOperators.Group.List.Basic
import Mathlib.Algebra.Order.BigOperators.Group.List
import Mathlib.Algebra.Ring.Int.Defs
import HadrAgent.Dispatch.RunTool

/-!
# Token totals

`TokenUse.add` of `util.py` takes another total, or the usage object of a provider, of which any part may be missing.
Both are contributions (`Usage.contribution`) to a commutative monoid, so totals depend neither on the order nor on the
grouping of what they add up.

- `accumulate_eq`: what is added up is a sum;
- `accumulate_perm`, `accumulate_groups`: order and grouping;
- `cacheRead_le_read_accumulate`: no more is read from the cache than is read.
-/

namespace HadrAgent

/-! ## Usage objects -/

/-- An attribute of an object of a provider's library. -/
inductive Attr (α : Type) where
  | missing
  | none
  | value (a : α)

namespace Attr

variable {α : Type}

/-- `getattr(o, name, default)`; `none` is `None`. -/
def getattr (a : Attr α) (default : Option α) : Option α :=
  match a with
  | .missing => default
  | .none => Option.none
  | .value a => some a

/-- The value, if there is one. -/
def value? : Attr α → Option α
  | .value a => some a
  | _ => Option.none

end Attr

/-- `prompt_tokens_details`. -/
structure PromptDetails where
  cachedTokens : Attr Int

/-- The `usage` of a response. -/
structure ResponseUsage where
  promptTokens : Attr Int
  completionTokens : Attr Int
  promptTokensDetails : Attr PromptDetails

/-- What `add` takes. -/
inductive Usage where
  | total (t : TokenUse)
  | response (u : ResponseUsage)

/-- `n or 0`. -/
def orZero (n : Option Int) : Int := n.getD 0

/-- `(getattr(details, "cached_tokens", 0) or 0) if details else 0`; an object of the SDK is true. -/
def cachedTokensOf (details : Option PromptDetails) : Int :=
  match details with
  | some d => orZero (d.cachedTokens.getattr (some 0))
  | none => 0

/-- `TokenUse.add`. -/
def TokenUse.absorb (t : TokenUse) : Usage → TokenUse
  | .total u => t.add u
  | .response u =>
    let details := u.promptTokensDetails.getattr none
    { read := t.read + orZero (u.promptTokens.getattr (some 0))
      write := t.write + orZero (u.completionTokens.getattr (some 0))
      cacheRead := t.cacheRead + cachedTokensOf details }

/-- What a usage stands for, absent values as 0. -/
def Usage.contribution : Usage → TokenUse
  | .total t => t
  | .response u =>
    { read := u.promptTokens.value?.getD 0
      write := u.completionTokens.value?.getD 0
      cacheRead := (u.promptTokensDetails.value?.bind fun d => d.cachedTokens.value?).getD 0 }

/-! ## Sums -/

namespace TokenUse

attribute [ext] TokenUse

instance : Zero TokenUse := ⟨.zero⟩

instance : Add TokenUse := ⟨.add⟩

@[simp] theorem read_zero : (0 : TokenUse).read = 0 := rfl

@[simp] theorem write_zero : (0 : TokenUse).write = 0 := rfl

@[simp] theorem cacheRead_zero : (0 : TokenUse).cacheRead = 0 := rfl

@[simp] theorem read_add (t u : TokenUse) : (t + u).read = t.read + u.read := rfl

@[simp] theorem write_add (t u : TokenUse) : (t + u).write = t.write + u.write := rfl

@[simp] theorem cacheRead_add (t u : TokenUse) : (t + u).cacheRead = t.cacheRead + u.cacheRead := rfl

instance : AddCommMonoid TokenUse where
  add_assoc t u v := by
    ext <;> simp [Int.add_assoc]
  zero_add t := by
    ext <;> simp
  add_zero t := by
    ext <;> simp
  add_comm t u := by
    ext <;> simp [Int.add_comm]
  nsmul := nsmulRec

/-- The counts as homomorphisms: each is summed up on its own. -/
def readHom : TokenUse →+ Int := ⟨⟨read, read_zero⟩, read_add⟩

def writeHom : TokenUse →+ Int := ⟨⟨write, write_zero⟩, write_add⟩

def cacheReadHom : TokenUse →+ Int := ⟨⟨cacheRead, cacheRead_zero⟩, cacheRead_add⟩

theorem read_sum (l : List TokenUse) : l.sum.read = (l.map read).sum := map_list_sum readHom l

theorem write_sum (l : List TokenUse) : l.sum.write = (l.map write).sum := map_list_sum writeHom l

theorem cacheRead_sum (l : List TokenUse) : l.sum.cacheRead = (l.map cacheRead).sum := map_list_sum cacheReadHom l

/-- An absent attribute counts as 0 on either path. -/
theorem orZero_getattr (a : Attr Int) : orZero (a.getattr (some 0)) = a.value?.getD 0 := by
  cases a <;> rfl

theorem cachedTokensOf_getattr (a : Attr PromptDetails) :
    cachedTokensOf (a.getattr none) = (a.value?.bind fun d => d.cachedTokens.value?).getD 0 := by
  cases a with
  | value d => exact orZero_getattr d.cachedTokens
  | missing => rfl
  | none => rfl

/-- **One `add`**, whichever kind it is given, adds the contribution. -/
theorem absorb_eq (t : TokenUse) (u : Usage) : t.absorb u = t + u.contribution := by
  cases u with
  | total u => rfl
  | response u =>
    ext
    · simp [absorb, Usage.contribution, orZero_getattr]
    · simp [absorb, Usage.contribution, orZero_getattr]
    · simp [absorb, Usage.contribution, cachedTokensOf_getattr]

/-- The usages added to a total, one by one. -/
def accumulate (t : TokenUse) (us : List Usage) : TokenUse := us.foldl absorb t

/-- **What is added up is a sum.** -/
theorem accumulate_eq (t : TokenUse) (us : List Usage) : t.accumulate us = t + (us.map Usage.contribution).sum := by
  unfold accumulate
  induction us generalizing t with
  | nil => simp
  | cons u us ih => rw [List.foldl_cons, ih, absorb_eq, List.map_cons, List.sum_cons, add_assoc]

theorem zero_accumulate (us : List Usage) : zero.accumulate us = (us.map Usage.contribution).sum := by
  rw [accumulate_eq]
  exact zero_add _

/-- **The order does not matter.** -/
theorem accumulate_perm {us us' : List Usage} (h : us.Perm us') (t : TokenUse) :
    t.accumulate us = t.accumulate us' := by
  rw [accumulate_eq, accumulate_eq, (h.map Usage.contribution).sum_eq]

/-- **The grouping does not matter**: totals of groups add up to the total. -/
theorem accumulate_groups (groups : List (List Usage)) (t : TokenUse) :
    t.accumulate (groups.map fun g => .total (zero.accumulate g)) = t.accumulate groups.flatten := by
  have hsum : (groups.map fun g => (g.map Usage.contribution).sum).sum =
      ((groups.map fun g => g.map Usage.contribution).map List.sum).sum := by rw [List.map_map]; rfl
  rw [accumulate_eq, accumulate_eq, List.map_map, List.map_flatten, List.sum_flatten, ← hsum]
  refine congrArg (t + ·.sum) (List.map_congr_left fun g _ => ?_)
  exact zero_accumulate g

/-- **No more is read from the cache than is read**, if that is so of every contribution. -/
theorem cacheRead_le_read_accumulate {us : List Usage}
    (h : ∀ u ∈ us, u.contribution.cacheRead ≤ u.contribution.read) :
    (zero.accumulate us).cacheRead ≤ (zero.accumulate us).read := by
  rw [zero_accumulate, read_sum, cacheRead_sum, List.map_map, List.map_map]
  exact List.sum_le_sum h

end TokenUse

end HadrAgent
