import HadrAgent.Lib.OrdDict

/-!
# Runs of a machine

A machine is a function `step : σ → α → β × σ`: fed an input it answers and moves on. `run` feeds it a list.

- what every step keeps, every run keeps (`final_induction`, `final_prefix_induction`), and a reflexive and transitive
  relation that holds along every step holds along every run (`final_rel`);
- `cellStep` is the machine whose inputs operate on one cell of a dictionary each. The cell of `k` after a run has seen
  the inputs for `k` only, in their order (`get?_final_cellStep`), so two interleavings of the same inputs end in the
  same dictionary (`final_cellStep_congr`) and inputs for different cells commute (`cellStep_comm`).
-/

namespace Runs

variable {σ α β : Type*}

/-- Feed the inputs one after the other: the answers and the last state. -/
def run (step : σ → α → β × σ) : σ → List α → List β × σ
  | s, [] => ([], s)
  | s, a :: l => ((step s a).1 :: (run step (step s a).2 l).1, (run step (step s a).2 l).2)

/-- The state after a run. -/
def final (step : σ → α → β × σ) (s : σ) (l : List α) : σ := (run step s l).2

/-- The answers of a run. -/
def answers (step : σ → α → β × σ) (s : σ) (l : List α) : List β := (run step s l).1

variable {step : σ → α → β × σ}

@[simp] theorem final_nil (s : σ) : final step s [] = s := rfl

@[simp] theorem final_cons (s : σ) (a : α) (l : List α) : final step s (a :: l) = final step (step s a).2 l := rfl

@[simp] theorem answers_nil (s : σ) : answers step s [] = [] := rfl

@[simp] theorem answers_cons (s : σ) (a : α) (l : List α) :
    answers step s (a :: l) = (step s a).1 :: answers step (step s a).2 l := rfl

theorem final_append (l m : List α) : ∀ s : σ, final step s (l ++ m) = final step (final step s l) m := by
  induction l with
  | nil => intro s; rfl
  | cons a l ih => intro s; exact ih _

theorem answers_append (l m : List α) : ∀ s : σ,
    answers step s (l ++ m) = answers step s l ++ answers step (final step s l) m := by
  induction l with
  | nil => intro s; rfl
  | cons a l ih => intro s; exact congrArg _ (ih _)

theorem length_answers (l : List α) : ∀ s : σ, (answers step s l).length = l.length := by
  induction l with
  | nil => intro s; rfl
  | cons a l ih => intro s; exact congrArg (· + 1) (ih _)

/-- **What every step keeps, every run keeps.** -/
theorem final_induction {I : σ → Prop} {l : List α} (hstep : ∀ s, ∀ a ∈ l, I s → I (step s a).2) {s : σ} (hs : I s) :
    I (final step s l) := by
  induction l generalizing s with
  | nil => exact hs
  | cons a l ih =>
    exact ih (fun s b hb => hstep s b (List.mem_cons_of_mem _ hb)) (hstep s a List.mem_cons_self hs)

/-- **What every good step keeps** holds all along a run of good steps. -/
theorem final_prefix_induction {I : σ → Prop} {good : σ → α → Prop}
    (hstep : ∀ s a, I s → good s a → I (step s a).2) (l : List α) : ∀ s, I s →
      (∀ pre a post, l = pre ++ a :: post → good (final step s pre) a) →
        ∀ pre, pre <+: l → I (final step s pre) := by
  induction l with
  | nil =>
    intro s hs _ pre hpre
    rw [List.prefix_nil.mp hpre]
    exact hs
  | cons a l ih =>
    intro s hs hl pre hpre
    cases pre with
    | nil => exact hs
    | cons b pre =>
      obtain ⟨rfl, hrest⟩ := List.cons_prefix_cons.mp hpre
      have hnext := hstep s b hs (hl [] b l rfl)
      exact ih _ hnext (fun pre a post e => hl (b :: pre) a post (congrArg _ e)) pre hrest

/-- **A preorder along every step is one along every run.** -/
theorem final_rel {R : σ → σ → Prop} (hrefl : ∀ s, R s s) (htrans : ∀ s t u, R s t → R t u → R s u) {l : List α}
    (hstep : ∀ s, ∀ a ∈ l, R s (step s a).2) (s : σ) : R s (final step s l) := by
  induction l generalizing s with
  | nil => exact hrefl s
  | cons a l ih =>
    exact htrans _ _ _ (hstep s a List.mem_cons_self) (ih (fun s b hb => hstep s b (List.mem_cons_of_mem _ hb)) _)

/-! ## Inputs that operate on cells -/

section Cells

variable {κ ρ : Type*} [DecidableEq κ] (target : α → Option κ) (absent : α → β) (op : α → ρ → β × ρ)

/-- An input operates on the cell of its target; without a target it does nothing. -/
def cellStep (d : OrdDict κ ρ) (a : α) : β × OrdDict κ ρ :=
  match target a with
  | none => (absent a, d)
  | some k => d.act k (absent a) (op a)

variable {target absent op}

theorem cellStep_of_target {a : α} {k : κ} (h : target a = some k) (d : OrdDict κ ρ) :
    cellStep target absent op d a = d.act k (absent a) (op a) := by
  unfold cellStep
  rw [h]

theorem cellStep_of_target_eq_none {a : α} (h : target a = none) (d : OrdDict κ ρ) :
    cellStep target absent op d a = (absent a, d) := by
  unfold cellStep
  rw [h]

theorem keys_cellStep (d : OrdDict κ ρ) (a : α) : (cellStep target absent op d a).2.keys = d.keys := by
  cases h : target a with
  | none => rw [cellStep_of_target_eq_none h]
  | some k => rw [cellStep_of_target h, OrdDict.keys_act]

theorem keys_final_cellStep (l : List α) (d : OrdDict κ ρ) : (final (cellStep target absent op) d l).keys = d.keys :=
  final_rel (R := fun d e : OrdDict κ ρ => e.keys = d.keys) (fun _ => rfl) (fun _ _ _ h₁ h₂ => h₂.trans h₁)
    (fun d a _ => keys_cellStep d a) d

/-- The cell an input operates on, after it. -/
theorem get?_cellStep_self {a : α} {k : κ} (h : target a = some k) (d : OrdDict κ ρ) :
    (cellStep target absent op d a).2.get? k = (d.get? k).map fun r => (op a r).2 := by
  rw [cellStep_of_target h, OrdDict.get?_act_self]

/-- The frame of an input: every other cell. -/
theorem get?_cellStep_of_ne {a : α} {k : κ} (h : target a ≠ some k) (d : OrdDict κ ρ) :
    (cellStep target absent op d a).2.get? k = d.get? k := by
  cases ht : target a with
  | none => rw [cellStep_of_target_eq_none ht]
  | some k' => rw [cellStep_of_target ht, OrdDict.get?_act_of_ne d _ _ fun e => h (ht.trans (congrArg some e.symm))]

/-- **A cell sees the inputs for its key only**, in their order. -/
theorem get?_final_cellStep (k : κ) (l : List α) : ∀ d : OrdDict κ ρ,
    (final (cellStep target absent op) d l).get? k =
      (d.get? k).map fun r => (l.filter fun a => target a = some k).foldl (fun r a => (op a r).2) r := by
  induction l with
  | nil => intro d; simp
  | cons a l ih =>
    intro d
    rw [final_cons, ih]
    by_cases e : target a = some k
    · rw [get?_cellStep_self e, Option.map_map]
      simp [Function.comp_def, e]
    · rw [get?_cellStep_of_ne e, List.filter_cons_of_neg (by simpa using e)]

/-- The answers to the inputs for one key are those of a run of its cell alone. -/
theorem filter_zip_answers_cellStep (k : κ) (l : List α) : ∀ d : OrdDict κ ρ,
    (l.zip (answers (cellStep target absent op) d l)).filter (fun p => target p.1 = some k) =
      match d.get? k with
      | none => (l.filter fun a => target a = some k).map fun a => (a, absent a)
      | some r => (l.filter fun a => target a = some k).zip
          (answers (fun r a => op a r) r (l.filter fun a => target a = some k)) := by
  induction l with
  | nil => intro d; cases d.get? k <;> rfl
  | cons a l ih =>
    intro d
    rw [answers_cons, List.zip_cons_cons]
    by_cases e : target a = some k
    · rw [List.filter_cons_of_pos (by simpa using e), List.filter_cons_of_pos (by simpa using e), ih,
        get?_cellStep_self e, cellStep_of_target e]
      cases hd : d.get? k <;> simp [OrdDict.act, hd]
    · rw [List.filter_cons_of_neg (by simpa using e), List.filter_cons_of_neg (by simpa using e), ih,
        get?_cellStep_of_ne e]

/-- **Interleavings agree**: runs with the same inputs for every cell end in the same dictionary. -/
theorem final_cellStep_congr {l l' : List α}
    (h : ∀ k, l.filter (fun a => target a = some k) = l'.filter fun a => target a = some k) (d : OrdDict κ ρ) :
    final (cellStep target absent op) d l = final (cellStep target absent op) d l' := by
  refine OrdDict.ext_get? (by rw [keys_final_cellStep, keys_final_cellStep]) fun k => ?_
  rw [get?_final_cellStep, get?_final_cellStep, h]

/-- Interleavings give every input the same answer. -/
theorem filter_zip_answers_congr {l l' : List α} {k : κ}
    (h : l.filter (fun a => target a = some k) = l'.filter fun a => target a = some k) (d : OrdDict κ ρ) :
    (l.zip (answers (cellStep target absent op) d l)).filter (fun p => target p.1 = some k) =
      (l'.zip (answers (cellStep target absent op) d l')).filter fun p => target p.1 = some k := by
  rw [filter_zip_answers_cellStep, filter_zip_answers_cellStep, h]

/-- **Inputs for different cells commute**: the same dictionary, the same answers. -/
theorem cellStep_comm {a b : α} (h : ∀ k, target a = some k → target b ≠ some k) (d : OrdDict κ ρ) :
    (cellStep target absent op (cellStep target absent op d a).2 b).2 =
        (cellStep target absent op (cellStep target absent op d b).2 a).2 ∧
      (cellStep target absent op (cellStep target absent op d a).2 b).1 = (cellStep target absent op d b).1 ∧
      (cellStep target absent op (cellStep target absent op d b).2 a).1 = (cellStep target absent op d a).1 := by
  cases ha : target a with
  | none => simp only [cellStep_of_target_eq_none ha, and_self]
  | some k =>
    cases hb : target b with
    | none => simp only [cellStep_of_target_eq_none hb, and_self]
    | some k' =>
      simp only [cellStep_of_target ha, cellStep_of_target hb]
      exact OrdDict.act_comm d (fun e => h k ha (hb.trans (congrArg some e.symm))) _ _ _ _

end Cells

end Runs
