import HadrAgent.Lib.Runs

/-!
# A machine with a side log

A machine whose inputs may fail, and beside it a world to which some inputs are logged: `sideStep` feeds the machine
and then, where `logs` says so, writes the world. A write that fails replaces the answer.

- the machine itself does not see the log (`fst_final_sideStep`);
- a run answers as the machine does alone exactly when none of its writes fails (`answers_sideStep_iff`);
- where every change is logged and the writes are good, the world shows the machine (`shows_sideStep`);
- after one good write it shows the machine until the next input that is logged (`shows_final_of_write`).
-/

namespace Runs

variable {σ α β ω ε : Type*} (step : σ → α → Except ε β × σ) (logs : σ → α → Bool) (write : σ → ω → Except ε Unit × ω)

/-- One input: the machine moves, and the world is written. -/
def sideStep (x : σ × ω) (a : α) : Except ε β × σ × ω :=
  if logs x.1 a then
    match write (step x.1 a).2 x.2 with
    | (.ok (), w) => ((step x.1 a).1, (step x.1 a).2, w)
    | (.error e, w) => (.error e, (step x.1 a).2, w)
  else ((step x.1 a).1, (step x.1 a).2, x.2)

/-- The write of an input, if there is one, does not fail. -/
def WriteOk (x : σ × ω) (a : α) : Prop := logs x.1 a = true → ∃ u, (write (step x.1 a).2 x.2).1 = .ok u

variable {step logs write}

theorem sideStep_of_not_logs {x : σ × ω} {a : α} (h : logs x.1 a = false) :
    sideStep step logs write x a = ((step x.1 a).1, (step x.1 a).2, x.2) := by
  unfold sideStep
  rw [h, if_neg Bool.false_ne_true]

theorem sideStep_of_ok {x : σ × ω} {a : α} (h : logs x.1 a = true) {u : Unit} {w : ω}
    (hw : write (step x.1 a).2 x.2 = (.ok u, w)) :
    sideStep step logs write x a = ((step x.1 a).1, (step x.1 a).2, w) := by
  unfold sideStep
  rw [if_pos h, hw]

theorem sideStep_of_error {x : σ × ω} {a : α} (h : logs x.1 a = true) {e : ε} {w : ω}
    (hw : write (step x.1 a).2 x.2 = (.error e, w)) :
    sideStep step logs write x a = (.error e, (step x.1 a).2, w) := by
  unfold sideStep
  rw [if_pos h, hw]

/-- The machine moves as it does alone. -/
theorem fst_sideStep (x : σ × ω) (a : α) : (sideStep step logs write x a).2.1 = (step x.1 a).2 := by
  cases hl : logs x.1 a with
  | false => rw [sideStep_of_not_logs hl]
  | true =>
    cases hw : write (step x.1 a).2 x.2 with
    | mk r w =>
      cases r with
      | ok u => rw [sideStep_of_ok hl hw]
      | error e => rw [sideStep_of_error hl hw]

/-- **The machine does not see its log.** -/
theorem fst_final_sideStep (l : List α) : ∀ x : σ × ω,
    (final (sideStep step logs write) x l).1 = final step x.1 l := by
  induction l with
  | nil => intro x; rfl
  | cons a l ih =>
    intro x
    rw [final_cons, ih, fst_sideStep]
    rfl

section Answers

/- Only inputs that the machine accepts are logged. -/
variable (hlogs : ∀ s a, logs s a = true → ∃ b, (step s a).1 = .ok b)
include hlogs

/-- One answer. -/
theorem answer_sideStep_iff (x : σ × ω) (a : α) :
    (sideStep step logs write x a).1 = (step x.1 a).1 ↔ WriteOk step logs write x a := by
  unfold WriteOk
  cases hl : logs x.1 a with
  | false =>
    rw [sideStep_of_not_logs hl]
    exact iff_of_true rfl nofun
  | true =>
    cases hw : write (step x.1 a).2 x.2 with
    | mk r w =>
      cases r with
      | ok u =>
        rw [sideStep_of_ok hl hw]
        exact iff_of_true rfl fun _ => ⟨u, rfl⟩
      | error e =>
        rw [sideStep_of_error hl hw]
        obtain ⟨b, hb⟩ := hlogs _ _ hl
        rw [hb]
        exact iff_of_false nofun fun h => nomatch (h rfl).choose_spec

/-- **All answers** of a run. -/
theorem answers_sideStep_iff (l : List α) : ∀ x : σ × ω,
    answers (sideStep step logs write) x l = answers step x.1 l ↔
      ∀ pre a post, l = pre ++ a :: post →
        WriteOk step logs write (final (sideStep step logs write) x pre) a := by
  induction l with
  | nil =>
    intro x
    exact iff_of_true rfl fun pre a post h => by simp at h
  | cons b l ih =>
    intro x
    have hrest := ih (sideStep step logs write x b).2
    rw [fst_sideStep] at hrest
    rw [answers_cons, answers_cons, List.cons.injEq, answer_sideStep_iff hlogs, hrest]
    constructor
    · rintro ⟨hb, hl⟩ pre a post h
      cases pre with
      | nil =>
        obtain ⟨rfl, _⟩ := List.cons.inj h
        exact hb
      | cons c pre =>
        obtain ⟨rfl, rfl⟩ := List.cons.inj h
        exact hl pre a post rfl
    · exact fun h => ⟨h [] b l rfl, fun pre a post e => h (b :: pre) a post (congrArg _ e)⟩

end Answers

/-- **A log that shows the machine** still shows it after an input: what is not logged is not shown, and a good write
shows what is there now. -/
theorem shows_sideStep {τ : Type*} (view : σ → τ) (shows : ω → τ → Prop) (good : σ → ω → Prop)
    (hkeep : ∀ s a, logs s a = false → view (step s a).2 = view s)
    (hwrite : ∀ s a w, logs s a = true → good (step s a).2 w →
      ∃ u w', write (step s a).2 w = (.ok u, w') ∧ shows w' (view (step s a).2))
    {x : σ × ω} {a : α} (hx : shows x.2 (view x.1)) (hgood : logs x.1 a = true → good (step x.1 a).2 x.2) :
    shows (sideStep step logs write x a).2.2 (view (sideStep step logs write x a).2.1) := by
  cases hl : logs x.1 a with
  | false =>
    rw [sideStep_of_not_logs hl, hkeep _ _ hl]
    exact hx
  | true =>
    obtain ⟨u, w', hw, hshow⟩ := hwrite _ _ _ hl (hgood hl)
    rw [sideStep_of_ok hl hw]
    exact hshow

/-- **A good write** makes up for all before it: until the next input that is logged, the world shows the machine. -/
theorem shows_final_of_write {τ : Type*} (view : σ → τ) (shows : ω → τ → Prop)
    (hkeep : ∀ s a, logs s a = false → view (step s a).2 = view s) {x : σ × ω} {a : α} {l : List α} {u : Unit} {w : ω}
    (hlog : logs x.1 a = true) (hw : write (step x.1 a).2 x.2 = (.ok u, w)) (hshow : shows w (view (step x.1 a).2))
    (hrest : ∀ pre b post, l = pre ++ b :: post → logs (final (sideStep step logs write) x (a :: pre)).1 b = false) :
    shows (final (sideStep step logs write) x (a :: l)).2 (view (final (sideStep step logs write) x (a :: l)).1) := by
  let Shown (y : σ × ω) : Prop := shows y.2 (view y.1)
  have hstep : ∀ y b, Shown y → logs y.1 b = false → Shown (sideStep step logs write y b).2 := by
    intro y b hy hb
    rw [sideStep_of_not_logs hb]
    show shows y.2 (view (step y.1 b).2)
    rw [hkeep _ _ hb]
    exact hy
  have hfirst : Shown (sideStep step logs write x a).2 := by
    rw [sideStep_of_ok hlog hw]
    exact hshow
  exact final_prefix_induction hstep l _ hfirst hrest l (List.prefix_refl l)

end Runs
