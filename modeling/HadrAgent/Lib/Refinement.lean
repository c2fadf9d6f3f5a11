import HadrAgent.Lib.Runs

/-!
# Refinement of machines

A machine refines a specification where an abstraction of its states turns every step it may take into a step of the
specification. What an input and an answer mean may depend on the state, and the steps may be limited to good ones.

- `Refines.run`: a run of good steps is a run of the specification.
-/

namespace Runs

variable {σ α β τ γ δ : Type*}

/-- `step` refines `spec` on the states that satisfy the invariant, along good inputs. -/
structure Refines (step : σ → α → β × σ) (spec : τ → γ → δ × τ) where
  abs : σ → τ
  /-- What an input means in the state it is given in. -/
  input : σ → α → γ
  /-- What an answer means in the state it is given in. -/
  answer : σ → β → δ
  Inv : σ → Prop
  Good : σ → α → Prop
  keeps : ∀ {s a}, Inv s → Good s a → Inv (step s a).2
  commutes : ∀ {s a}, Inv s → Good s a →
    spec (abs s) (input s a) = (answer (step s a).2 (step s a).1, abs (step s a).2)

namespace Refines

variable {step : σ → α → β × σ} {spec : τ → γ → δ × τ} (r : Refines step spec)

/-- Every input is good where it is given. -/
def GoodAlong : σ → List α → Prop
  | _, [] => True
  | s, a :: l => r.Good s a ∧ GoodAlong (step s a).2 l

/-- What the inputs of a run mean. -/
def inputs : σ → List α → List γ
  | _, [] => []
  | s, a :: l => r.input s a :: inputs (step s a).2 l

/-- What the answers of a run mean. -/
def outputs : σ → List α → List δ
  | _, [] => []
  | s, a :: l => r.answer (step s a).2 (step s a).1 :: outputs (step s a).2 l

/-- **A run of good steps is a run of the specification.** -/
theorem run (l : List α) : ∀ {s : σ}, r.Inv s → r.GoodAlong s l →
    r.Inv (final step s l) ∧ Runs.run spec (r.abs s) (r.inputs s l) = (r.outputs s l, r.abs (final step s l)) := by
  induction l with
  | nil => exact fun hs _ => ⟨hs, rfl⟩
  | cons a l ih =>
    intro s hs hl
    obtain ⟨hgood, hrest⟩ := hl
    obtain ⟨hinv, hrun⟩ := ih (r.keeps hs hgood) hrest
    refine ⟨hinv, ?_⟩
    show ((spec (r.abs s) (r.input s a)).1 :: (Runs.run spec (spec (r.abs s) (r.input s a)).2 _).1, _) = _
    rw [r.commutes hs hgood, hrun]
    rfl

/-- A run is good where its beginning is, and its end from there. -/
theorem goodAlong_append {l m : List α} : ∀ {s : σ},
    r.GoodAlong s (l ++ m) ↔ r.GoodAlong s l ∧ r.GoodAlong (final step s l) m := by
  induction l with
  | nil => exact ⟨fun h => ⟨trivial, h⟩, fun h => h.2⟩
  | cons a l ih =>
    intro s
    rw [List.cons_append, GoodAlong, GoodAlong, ih, and_assoc]
    rfl

end Refines

end Runs
