import HadrAgent.Python.Raise

/-!
# Rules for computations that raise

- `Post`: what holds of the outcome of a computation and of the state it leaves, with a rule for each construct.
- `Barring`: a computation returns with what it should, or raises what it may.
- `Agree`: two computations return or raise the same and keep their states related.
- `Erases`: a computation with a ghost state beside its own does what the computation without it does. Ghosts are
  written by `note` and read by nobody.
-/

namespace HadrAgent

namespace Py

variable {σ γ α β : Type}

/-- What comes last may raise, and changes nothing. -/
theorem exec_bind_lift (m : Py σ α) (f : α → Except Exc β) (s : σ) :
    (m >>= fun a => liftM (f a)).exec s = ((m.exec s).1 >>= f, (m.exec s).2) := by
  rw [exec_bind]
  cases (m.exec s).1 with
  | ok a => exact exec_lift _ _
  | error e => rfl

/-! ## Postconditions -/

/-- What is returned or raised from `s`, and the state left, satisfy `P`. -/
def Post (m : Py σ α) (s : σ) (P : Except Exc α → σ → Prop) : Prop := P (m.exec s).1 (m.exec s).2

theorem post_pure {a : α} {s : σ} {P : Except Exc α → σ → Prop} (h : P (.ok a) s) : (pure a : Py σ α).Post s P := h

theorem post_lift {x : Except Exc α} {s : σ} {P : Except Exc α → σ → Prop} (h : P x s) :
    (liftM x : Py σ α).Post s P := by
  unfold Post
  rw [exec_lift]
  exact h

/-- **Sequencing**: what the first computation leaves when it returns is where the second one starts. -/
theorem post_bind {m : Py σ α} {f : α → Py σ β} {s : σ} {Q : Except Exc α → σ → Prop} {P : Except Exc β → σ → Prop}
    (hm : m.Post s Q) (hok : ∀ a t, Q (.ok a) t → (f a).Post t P) (herr : ∀ e t, Q (.error e) t → P (.error e) t) :
    (m >>= f).Post s P := by
  unfold Post at hm ⊢
  rw [exec_bind]
  cases h : (m.exec s).1 with
  | ok a =>
    rw [h] at hm
    exact hok a _ hm
  | error e =>
    rw [h] at hm
    exact herr e _ hm

theorem post_lift_bind {x : Except Exc α} {f : α → Py σ β} {s : σ} {P : Except Exc β → σ → Prop}
    (hok : ∀ a, x = .ok a → (f a).Post s P) (herr : ∀ e, P (.error e) s) : (liftM x >>= f).Post s P := by
  refine post_bind (Q := fun r t => r = x ∧ t = s) (post_lift ⟨rfl, rfl⟩) ?_ ?_
  · rintro a t ⟨ha, rfl⟩
    exact hok a ha.symm
  · rintro e t ⟨-, rfl⟩
    exact herr e

/-- The same where the exception matters. -/
theorem post_lift_bind_cases {x : Except Exc α} {f : α → Py σ β} {s : σ} {P : Except Exc β → σ → Prop}
    (hok : ∀ a, x = .ok a → (f a).Post s P) (herr : ∀ e, x = .error e → P (.error e) s) :
    (liftM x >>= f).Post s P := by
  unfold Post
  rw [exec_bind, exec_lift]
  cases x with
  | ok a => exact hok a rfl
  | error e => exact herr e rfl

/-- The same where it does not raise. -/
theorem post_lift_bind_of_ok {x : Except Exc α} {a : α} {f : α → Py σ β} {s : σ} {P : Except Exc β → σ → Prop}
    (hx : x = .ok a) (hf : (f a).Post s P) : (liftM x >>= f).Post s P := by
  unfold Post
  rw [exec_bind, exec_lift, hx]
  exact hf

/-- A program that returns this value, and one that goes on from it. -/
theorem post_bind_of_ok {m : Py σ α} {a : α} {f : α → Py σ β} {s : σ} {Q : σ → Prop} {P : Except Exc β → σ → Prop}
    (hm : m.Post s fun r t => r = .ok a ∧ Q t) (hf : ∀ t, Q t → (f a).Post t P) : (m >>= f).Post s P := by
  refine post_bind hm ?_ ?_
  · rintro b t ⟨hb, ht⟩
    obtain rfl := Except.ok.inj hb
    exact hf t ht
  · rintro e t ⟨he, -⟩
    cases he

theorem post_get_bind {f : σ → Py σ β} {s : σ} {P : Except Exc β → σ → Prop} (h : (f s).Post s P) :
    (get >>= f).Post s P := by
  unfold Post at h ⊢
  rw [exec_bind, exec_get]
  exact h

theorem post_mono {m : Py σ α} {s : σ} {P Q : Except Exc α → σ → Prop} (h : m.Post s P) (hPQ : ∀ r t, P r t → Q r t) :
    m.Post s Q := hPQ _ _ h

/-! ## Exceptions -/

section Barring

variable {E : Exc → Prop} {P : α → σ → Prop}

/-- Barring an exception in `E`, the computation returns from `s`, with `P`. -/
def Barring (E : Exc → Prop) (P : α → σ → Prop) (m : Py σ α) (s : σ) : Prop :=
  m.Post s fun r t => match r with
    | .ok a => P a t
    | .error e => E e

theorem barring_pure {a : α} {s : σ} (h : P a s) : (pure a : Py σ α).Barring E P s := h

theorem barring_throw {e : Exc} {s : σ} (h : E e) : (throw e : Py σ α).Barring E P s := h

theorem barring_modify {f : σ → σ} {s : σ} {P : PUnit → σ → Prop} (h : P ⟨⟩ (f s)) :
    (modify f : Py σ PUnit).Barring E P s := h

/-- **Sequencing** raises what its parts raise. -/
theorem barring_bind {m : Py σ α} {f : α → Py σ β} {s : σ} {Q : β → σ → Prop} (hm : m.Barring E P s)
    (hf : ∀ a t, P a t → (f a).Barring E Q t) : (m >>= f).Barring E Q s :=
  post_bind hm hf fun _ _ he => he

theorem barring_zoom {τ : Type} {part : τ → σ} {replace : σ → τ → τ} {m : Py σ α} {t : τ} {Q : α → τ → Prop}
    (h : m.Barring E (fun a s => Q a (replace s t)) (part t)) : (m.zoom part replace).Barring E Q t := by
  unfold Barring Post at h ⊢
  rw [exec_zoom]
  cases hr : (m.exec (part t)).1 with
  | ok a => rwa [hr] at h
  | error e => rwa [hr] at h

theorem Barring.mono {m : Py σ α} {s : σ} {E' : Exc → Prop} {Q : α → σ → Prop} (h : m.Barring E P s)
    (hE : ∀ e, E e → E' e) (hPQ : ∀ a t, P a t → Q a t) : m.Barring E' Q s := by
  refine post_mono h fun r t hr => ?_
  cases r with
  | ok a => exact hPQ a t hr
  | error e => exact hE e hr

/-- The state it leaves anyway is the one it returns with. -/
theorem Barring.leaving {m : Py σ α} {s : σ} {Q : σ → Prop} (h : m.Barring E P s) (hs : Q (m.exec s).2) :
    m.Barring E (fun _ t => Q t) s := by
  unfold Barring Post at h ⊢
  cases hr : (m.exec s).1 with
  | ok a => exact hs
  | error e => rwa [hr] at h

/-- What the outcome is. -/
theorem Barring.cases {m : Py σ α} {s : σ} (h : m.Barring E P s) :
    (∃ a, (m.exec s).1 = .ok a ∧ P a (m.exec s).2) ∨ ∃ e, (m.exec s).1 = .error e ∧ E e := by
  unfold Barring Post at h
  cases hr : (m.exec s).1 with
  | ok a =>
    rw [hr] at h
    exact .inl ⟨a, rfl, h⟩
  | error e =>
    rw [hr] at h
    exact .inr ⟨e, rfl, h⟩

end Barring

/-! ## Two runs -/

section Agree

variable {τ : Type} {R : σ → τ → Prop}

/-- From these states the computations return or raise the same, and leave related states. -/
def Agree (R : σ → τ → Prop) (m : Py σ α) (m' : Py τ α) (s : σ) (t : τ) : Prop :=
  (m.exec s).1 = (m'.exec t).1 ∧ R (m.exec s).2 (m'.exec t).2

theorem agree_pure (a : α) {s : σ} {t : τ} (h : R s t) : Agree R (pure a) (pure a) s t := ⟨rfl, h⟩

theorem agree_lift (x : Except Exc α) {s : σ} {t : τ} (h : R s t) : Agree R (liftM x) (liftM x) s t := by
  unfold Agree
  rw [exec_lift, exec_lift]
  exact ⟨rfl, h⟩

theorem agree_modify {f : σ → σ} {g : τ → τ} {s : σ} {t : τ} (h : R (f s) (g t)) :
    Agree R (modify f : Py σ PUnit) (modify g : Py τ PUnit) s t := ⟨rfl, h⟩

/-- **Sequencing** agrees part by part. -/
theorem agree_bind {m : Py σ α} {m' : Py τ α} {f : α → Py σ β} {f' : α → Py τ β} {s : σ} {t : τ}
    (hm : Agree R m m' s t) (hf : ∀ a s t, R s t → Agree R (f a) (f' a) s t) : Agree R (m >>= f) (m' >>= f') s t := by
  obtain ⟨hr, hs⟩ := hm
  unfold Agree
  rw [exec_bind, exec_bind, ← hr]
  cases (m.exec s).1 with
  | ok a => exact hf a _ _ hs
  | error e => exact ⟨rfl, hs⟩

theorem agree_get_bind {f : σ → Py σ β} {f' : τ → Py τ β} {s : σ} {t : τ} (h : Agree R (f s) (f' t) s t) :
    Agree R (get >>= f) (get >>= f') s t := by
  unfold Agree at h ⊢
  rw [exec_bind, exec_bind, exec_get, exec_get]
  exact h

end Agree

/-! ## Ghost states -/

/-- A computation beside a ghost state. -/
def beside (γ : Type) (m : Py σ α) : Py (σ × γ) α := m.zoom Prod.fst fun s p => (s, p.2)

/-- Write the ghost state. -/
def note (f : γ → γ) : Py (σ × γ) PUnit := modify fun p => (p.1, f p.2)

/-- Up to the ghost state, the first computation does what the second one does. -/
def Erases (m' : Py (σ × γ) α) (m : Py σ α) : Prop :=
  ∀ p, (m'.exec p).1 = (m.exec p.1).1 ∧ (m'.exec p).2.1 = (m.exec p.1).2

@[simp] theorem exec_beside (m : Py σ α) (p : σ × γ) :
    (m.beside γ).exec p = ((m.exec p.1).1, (m.exec p.1).2, p.2) := exec_zoom _ _ m p

theorem post_beside {m : Py σ α} {p : σ × γ} {P : Except Exc α → σ × γ → Prop}
    (h : m.Post p.1 fun r s => P r (s, p.2)) : (m.beside γ).Post p P := by
  unfold Post
  rw [exec_beside]
  exact h

theorem post_beside_get_bind {f : σ → Py (σ × γ) β} {p : σ × γ} {P : Except Exc β → σ × γ → Prop}
    (h : (f p.1).Post p P) : (beside γ get >>= f).Post p P := by
  unfold Post at h ⊢
  rw [exec_bind, exec_beside]
  exact h

theorem erases_beside (m : Py σ α) : (m.beside γ).Erases m := by
  intro p
  rw [exec_beside]
  exact ⟨rfl, rfl⟩

theorem erases_pure (a : α) : (pure a : Py (σ × γ) α).Erases (pure a) := fun _ => ⟨rfl, rfl⟩

theorem erases_lift (x : Except Exc α) : (liftM x : Py (σ × γ) α).Erases (liftM x) := by
  intro p
  rw [exec_lift, exec_lift]
  exact ⟨rfl, rfl⟩

/-- **Sequencing** erases part by part. -/
theorem erases_bind {m' : Py (σ × γ) α} {m : Py σ α} {f' : α → Py (σ × γ) β} {f : α → Py σ β} (hm : m'.Erases m)
    (hf : ∀ a, (f' a).Erases (f a)) : (m' >>= f').Erases (m >>= f) := by
  intro p
  obtain ⟨hr, hs⟩ := hm p
  rw [exec_bind, exec_bind, hr, ← hs]
  cases (m.exec p.1).1 with
  | ok a => exact hf a _
  | error e => exact ⟨rfl, rfl⟩

/-- A note is not seen. -/
theorem erases_note_bind {g : γ → γ} {f' : PUnit → Py (σ × γ) β} {m : Py σ β} (h : (f' ⟨⟩).Erases m) :
    (note g >>= f').Erases m := by
  intro p
  rw [note, exec_bind, exec_modify]
  exact h (p.1, g p.2)

end Py

end HadrAgent
