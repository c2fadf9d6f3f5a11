import Mathlib.Order.Defs.Unbundled

/-!
# Computations that raise

Exceptions are a class and the text `str(e)` gives. A `Py` computation changes a state and may raise; what it wrote
before it raised stays written.

- `exec` runs a computation to its outcome and the state it left. The `exec_…` equations evaluate it along its text.
- `Along R`: wherever the computation starts, it moves the state along `R`. For a preorder this composes (`along_bind`).
-/

namespace HadrAgent

/-- The exception classes the program tells apart or raises. A subclass counts as the nearest class listed. -/
inductive ExcClass where
  | keyError | unknownIncidentError | typeError | valueError | overflowError | attributeError | osError | engineError
  | other (name : String)
deriving DecidableEq

/-- An exception: its class and `str(e)`. -/
structure Exc where
  cls : ExcClass
  text : String
deriving DecidableEq

/-- A computation that may raise and keeps its state when it does. -/
abbrev Py (σ α : Type) := EStateM Exc σ α

instance {σ : Type} : MonadLift (Except Exc) (EStateM Exc σ) where
  monadLift x := fun s => match x with
    | .ok a => .ok a s
    | .error e => .error e s

/-- A sequence succeeds when both parts do. -/
theorem Except.bind_eq_ok {α β : Type} {x : Except Exc α} {f : α → Except Exc β} {b : β} :
    (x >>= f) = .ok b ↔ ∃ a, x = .ok a ∧ f a = .ok b := by
  cases x with
  | ok a => exact ⟨fun h => ⟨a, rfl, h⟩, fun ⟨_, h, h'⟩ => Except.ok.inj h ▸ h'⟩
  | error e => exact ⟨nofun, nofun⟩

theorem Except.exists_mem_toOption {α : Type} {x : Except Exc α} {P : α → Prop} :
    (∃ a ∈ x.toOption, P a) ↔ ∃ a, x = .ok a ∧ P a := by
  cases x <;> simp [Except.toOption]

namespace Py

variable {σ α β : Type}

/-- Run a computation: what it returned or raised, and the state it left. -/
def exec (m : Py σ α) (s : σ) : Except Exc α × σ :=
  match m s with
  | .ok a s => (.ok a, s)
  | .error e s => (.error e, s)

@[simp] theorem exec_pure (a : α) (s : σ) : (pure a : Py σ α).exec s = (.ok a, s) := rfl

@[simp] theorem exec_throw (e : Exc) (s : σ) : (throw e : Py σ α).exec s = (.error e, s) := rfl

@[simp] theorem exec_get (s : σ) : (get : Py σ σ).exec s = (.ok s, s) := rfl

@[simp] theorem exec_modify (f : σ → σ) (s : σ) : (modify f : Py σ PUnit).exec s = (.ok ⟨⟩, f s) := rfl

@[simp] theorem exec_lift (x : Except Exc α) (s : σ) : (liftM x : Py σ α).exec s = (x, s) := by
  cases x <;> rfl

/-- Sequencing: the second computation runs where the first one returned. -/
@[simp] theorem exec_bind (m : Py σ α) (f : α → Py σ β) (s : σ) :
    (m >>= f).exec s = match (m.exec s).1 with
      | .ok a => (f a).exec (m.exec s).2
      | .error e => (.error e, (m.exec s).2) := by
  show exec (EStateM.bind m f) s = _
  unfold exec EStateM.bind
  cases m s <;> rfl

/-- A sequence returns when both parts do. -/
theorem exec_bind_eq_ok {m : Py σ α} {f : α → Py σ β} {s s' : σ} {b : β} :
    (m >>= f).exec s = (.ok b, s') ↔ ∃ a t, m.exec s = (.ok a, t) ∧ (f a).exec t = (.ok b, s') := by
  rw [exec_bind]
  cases hm : m.exec s with
  | mk r t =>
    cases r with
    | ok a => exact ⟨fun h => ⟨a, t, rfl, h⟩, fun ⟨_, _, h, h'⟩ => by cases h; exact h'⟩
    | error e => exact ⟨nofun, nofun⟩

theorem exec_lift_bind_eq_ok {x : Except Exc α} {f : α → Py σ β} {s s' : σ} {b : β} :
    (liftM x >>= f : Py σ β).exec s = (.ok b, s') ↔ ∃ a, x = .ok a ∧ (f a).exec s = (.ok b, s') := by
  rw [exec_bind, exec_lift]
  cases x with
  | ok a => exact ⟨fun h => ⟨a, rfl, h⟩, fun ⟨_, h, h'⟩ => Except.ok.inj h ▸ h'⟩
  | error e => exact ⟨nofun, nofun⟩

/-- Run a computation on a part of the state. -/
def zoom {τ : Type} (part : τ → σ) (replace : σ → τ → τ) (m : Py σ α) : Py τ α := fun t =>
  match m (part t) with
  | .ok a s => .ok a (replace s t)
  | .error e s => .error e (replace s t)

@[simp] theorem exec_zoom {τ : Type} (part : τ → σ) (replace : σ → τ → τ) (m : Py σ α) (t : τ) :
    (zoom part replace m).exec t = ((m.exec (part t)).1, replace (m.exec (part t)).2 t) := by
  unfold exec zoom
  cases m (part t) <;> rfl

theorem exec_zoom_eq_ok {τ : Type} {part : τ → σ} {replace : σ → τ → τ} {m : Py σ α} {t t' : τ} {a : α} :
    (zoom part replace m).exec t = (.ok a, t') ↔ ∃ s, m.exec (part t) = (.ok a, s) ∧ t' = replace s t := by
  rw [exec_zoom]
  cases m.exec (part t) with
  | mk r s =>
    constructor
    · intro h
      cases h
      exact ⟨s, rfl, rfl⟩
    · rintro ⟨_, h, rfl⟩
      cases h
      rfl

/-- `try` with one `except` clause: what it catches, and its handler. -/
def catching (m : Py σ α) (caught : ExcClass → Bool) (handler : Exc → Py σ α) : Py σ α := fun s =>
  match m s with
  | .ok a s => .ok a s
  | .error e s => if caught e.cls then handler e s else .error e s

@[simp] theorem exec_catching (m : Py σ α) (caught : ExcClass → Bool) (handler : Exc → Py σ α) (s : σ) :
    (m.catching caught handler).exec s = match (m.exec s).1 with
      | .ok a => (.ok a, (m.exec s).2)
      | .error e => if caught e.cls then (handler e).exec (m.exec s).2 else (.error e, (m.exec s).2) := by
  unfold exec catching
  cases m s with
  | ok a s' => rfl
  | error e s' =>
    dsimp only
    cases caught e.cls <;> rfl

/-! ## Computations along a relation -/

/-- Whatever it returns or raises, the computation moves the state along `R`. -/
def Along (R : σ → σ → Prop) (m : Py σ α) : Prop := ∀ s, R s (m.exec s).2

section Along

variable {R : σ → σ → Prop} [IsPreorder σ R]

theorem along_pure (a : α) : (pure a : Py σ α).Along R := fun s => refl_of R s

theorem along_get : (get : Py σ σ).Along R := fun s => refl_of R s

theorem along_lift (x : Except Exc α) : (liftM x : Py σ α).Along R := by
  intro s
  rw [exec_lift]
  exact refl_of R s

/-- **Sequencing** composes. -/
theorem along_bind {m : Py σ α} {f : α → Py σ β} (hm : m.Along R) (hf : ∀ a, (f a).Along R) : (m >>= f).Along R := by
  intro s
  rw [exec_bind]
  cases h : (m.exec s).1 with
  | ok a => exact trans_of R (hm s) (hf a _)
  | error e => exact hm s

end Along

theorem Along.mono {R S : σ → σ → Prop} {m : Py σ α} (h : m.Along R) (hRS : ∀ s t, R s t → S s t) : m.Along S :=
  fun s => hRS _ _ (h s)

theorem along_modify {R : σ → σ → Prop} {f : σ → σ} (h : ∀ s, R s (f s)) : (modify f : Py σ PUnit).Along R := h

end Py

end HadrAgent
