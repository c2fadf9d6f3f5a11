import HadrAgent.Lib.Runs

/-!
# Coroutines on a shared state

A coroutine reads and writes a shared state, and awaits answers to its requests. Between two awaits it runs alone; while
it awaits, others run. A pool starts coroutines and hands them answers in any order (`Pool.step`).

A contract says what one segment of a coroutine, from an await to the next, does to the state. `Coro.Meets` is checked
along the text of a coroutine (`meets_andThen`), and then holds of every segment of every run of a pool of such
coroutines (`Pool.step_segment`, `Pool.safe_final`).
-/

universe u

/-- A coroutine on the state `σ`: it awaits an answer `ω` to a request `ρ`, and returns `α` or raises `ε`. -/
inductive Coro (σ ρ ω ε α : Type u) where
  | done (a : α)
  | fail (e : ε)
  | get (next : σ → Coro σ ρ ω ε α)
  | put (s : σ) (next : Coro σ ρ ω ε α)
  | await (q : ρ) (next : ω → Coro σ ρ ω ε α)

namespace Coro

variable {σ ρ ω ε α β μ : Type u}

/-- Run `f` on what a coroutine returns. -/
def andThen : Coro σ ρ ω ε α → (α → Coro σ ρ ω ε β) → Coro σ ρ ω ε β
  | done a, f => f a
  | fail e, _ => fail e
  | get next, f => get fun s => (next s).andThen f
  | put s next, f => put s (next.andThen f)
  | await q next, f => await q fun r => (next r).andThen f

instance : Monad (Coro σ ρ ω ε) where
  pure := done
  bind := andThen

instance : MonadLift (Except ε) (Coro σ ρ ω ε) where
  monadLift x := match x with
    | .ok a => done a
    | .error e => fail e

instance : LawfulMonad (Coro σ ρ ω ε) :=
  have hassoc : ∀ {α β γ : Type u} (c : Coro σ ρ ω ε α) (f : α → Coro σ ρ ω ε β) (g : β → Coro σ ρ ω ε γ),
      (c.andThen f).andThen g = c.andThen fun a => (f a).andThen g := by
    intro α β γ c f g
    induction c with
    | done a => rfl
    | fail e => rfl
    | get next ih => exact congrArg get (funext ih)
    | put s next ih => exact congrArg (put s) ih
    | await q next ih => exact congrArg (await q) (funext ih)
  have hdone : ∀ {α : Type u} (c : Coro σ ρ ω ε α), c.andThen done = c := by
    intro α c
    induction c with
    | done a => rfl
    | fail e => rfl
    | get next ih => exact congrArg get (funext ih)
    | put s next ih => exact congrArg (put s) ih
    | await q next ih => exact congrArg (await q) (funext ih)
  LawfulMonad.mk' (Coro σ ρ ω ε) (fun c => hdone c) (fun _ _ => rfl) fun c f g => hassoc c f g

instance : LawfulMonadLift (Except ε) (Coro σ ρ ω ε) where
  monadLift_pure _ := rfl
  monadLift_bind x _ := by cases x <;> rfl

/-- The shared state. -/
def read : Coro σ ρ ω ε σ := get done

/-- Replace the shared state. -/
def write (s : σ) : Coro σ ρ ω ε PUnit := put s (done ⟨⟩)

/-- Await the answer to a request. -/
def ask (q : ρ) : Coro σ ρ ω ε ω := await q done

/-- A coroutine at rest: it has ended, or awaits an answer. -/
inductive Rest (σ ρ ω ε α : Type u) where
  | done (a : α)
  | fail (e : ε)
  | await (q : ρ) (next : ω → Coro σ ρ ω ε α)

/-- How a segment ended. -/
inductive Outcome (ρ ε α : Type u) where
  | done (a : α)
  | fail (e : ε)
  | await (q : ρ)

/-- How it came to rest. -/
def Rest.outcome : Rest σ ρ ω ε α → Outcome ρ ε α
  | done a => .done a
  | fail e => .fail e
  | await q _ => .await q

/-- Run a coroutine until it rests. -/
def advance : Coro σ ρ ω ε α → σ → Rest σ ρ ω ε α × σ
  | done a, s => (.done a, s)
  | fail e, s => (.fail e, s)
  | get next, s => (next s).advance s
  | put s next, _ => next.advance s
  | await q next, s => (.await q next, s)

/-! ## Contracts -/

/-- What made a coroutine of kind `μ` run: a call, or the answer to a request. -/
inductive Trigger (μ ρ ω : Type u) where
  | call (m : μ)
  | answer (m : μ) (q : ρ) (r : ω)

/-- The coroutine that ran. -/
def Trigger.kind : Trigger μ ρ ω → μ
  | call m => m
  | answer m _ _ => m

/-- A contract for coroutines of the kinds `μ`: an invariant of the state, what answers are assumed, and what a segment
does: its trigger, the state it starts in, how it ends and the state it leaves. -/
structure Contract (μ σ ρ ω ε α : Type u) where
  inv : σ → Prop
  fair : ρ → ω → Prop
  segment : Trigger μ ρ ω → σ → Outcome ρ ε α → σ → Prop

variable (C : Contract μ σ ρ ω ε α) (m : μ)

/-- The rest of a coroutine of kind `m` keeps the contract, in a segment that `t` triggered in `s₀` and that is now in
`s`. What it returns is left to `post`. -/
def Meets {β : Type u} (post : β → Trigger μ ρ ω → σ → σ → Prop) :
    Coro σ ρ ω ε β → Trigger μ ρ ω → σ → σ → Prop
  | done b, t, s₀, s => post b t s₀ s
  | fail e, t, s₀, s => C.inv s ∧ C.segment t s₀ (.fail e) s
  | get next, t, s₀, s => (next s).Meets post t s₀ s
  | put s next, t, s₀, _ => next.Meets post t s₀ s
  | await q next, t, s₀, s => C.inv s ∧ C.segment t s₀ (.await q) s ∧
      ∀ r, C.fair q r → ∀ s, C.inv s → (next r).Meets post (.answer m q r) s s

/-- A coroutine may end where it keeps the contract. -/
def Contract.returns (a : α) (t : Trigger μ ρ ω) (s₀ s : σ) : Prop := C.inv s ∧ C.segment t s₀ (.done a) s

variable {C m}

/-- **The rule of sequences.** -/
theorem meets_andThen {β γ : Type u} {post : γ → Trigger μ ρ ω → σ → σ → Prop} {f : β → Coro σ ρ ω ε γ}
    {c : Coro σ ρ ω ε β} : ∀ {t : Trigger μ ρ ω} {s₀ s : σ},
      c.Meets C m (fun a t s₀ s => (f a).Meets C m post t s₀ s) t s₀ s → (c.andThen f).Meets C m post t s₀ s := by
  induction c with
  | done a => exact fun h => h
  | fail e => exact fun h => h
  | get next ih => exact fun h => ih _ h
  | put s next ih => exact fun h => ih h
  | await q next ih => exact fun h => ⟨h.1, h.2.1, fun r hr s hs => ih r (h.2.2 r hr s hs)⟩

/-- What a coroutine at rest still promises. -/
def Rest.Meets (C : Contract μ σ ρ ω ε α) (m : μ) : Rest σ ρ ω ε α → Prop
  | .await q next => ∀ r, C.fair q r → ∀ s, C.inv s → (next r).Meets C m C.returns (.answer m q r) s s
  | _ => True

/-- A segment that keeps the contract. -/
theorem meets_advance {c : Coro σ ρ ω ε α} : ∀ {t : Trigger μ ρ ω} {s₀ s : σ}, c.Meets C m C.returns t s₀ s →
    C.inv (c.advance s).2 ∧ C.segment t s₀ (c.advance s).1.outcome (c.advance s).2 ∧ (c.advance s).1.Meets C m := by
  induction c with
  | done a => exact fun h => ⟨h.1, h.2, trivial⟩
  | fail e => exact fun h => ⟨h.1, h.2, trivial⟩
  | get next ih => exact fun h => ih _ h
  | put s next ih => exact fun h => ih h
  | await q next ih => exact fun h => h

/-! ## Pools -/

/-- The shared state, and the coroutines started so far. -/
structure Pool (μ σ ρ ω ε α : Type u) where
  state : σ
  tasks : List (μ × Rest σ ρ ω ε α)

/-- What happens to a pool: a coroutine is started, or the `i`-th one gets an answer. -/
inductive Event (μ ω : Type u) where
  | call (m : μ)
  | answer (i : Nat) (r : ω)

/-- A segment that ran. -/
abbrev Ran (μ ρ ω ε α : Type u) := Trigger μ ρ ω × Outcome ρ ε α

namespace Pool

/-- One event; an answer to a coroutine that does not await one is dropped. -/
def step (program : μ → Coro σ ρ ω ε α) (P : Pool μ σ ρ ω ε α) :
    Event μ ω → Option (Ran μ ρ ω ε α) × Pool μ σ ρ ω ε α
  | .call m =>
    let a := (program m).advance P.state
    (some (.call m, a.1.outcome), ⟨a.2, P.tasks ++ [(m, a.1)]⟩)
  | .answer i r => match P.tasks[i]? with
    | some (m, .await q next) =>
      let a := (next r).advance P.state
      (some (.answer m q r, a.1.outcome), ⟨a.2, P.tasks.set i (m, a.1)⟩)
    | _ => (none, P)

/-- A pool without coroutines. -/
def init (s : σ) : Pool μ σ ρ ω ε α := ⟨s, []⟩

/-- The segments that ran. -/
def trace (program : μ → Coro σ ρ ω ε α) (P : Pool μ σ ρ ω ε α) (events : List (Event μ ω)) :
    List (Ran μ ρ ω ε α) :=
  (Runs.answers (step program) P events).filterMap id

/-- The `i`-th coroutine awaits an answer to `q`. -/
def Awaits (P : Pool μ σ ρ ω ε α) (i : Nat) (m : μ) (q : ρ) : Prop := ∃ next, P.tasks[i]? = some (m, .await q next)

variable {program : μ → Coro σ ρ ω ε α}

theorem trace_cons (P : Pool μ σ ρ ω ε α) (e : Event μ ω) (events : List (Event μ ω)) :
    trace program P (e :: events) = (step program P e).1.toList ++ trace program (step program P e).2 events := by
  unfold trace
  rw [Runs.answers_cons]
  cases (step program P e).1 <;> rfl

theorem trace_append (P : Pool μ σ ρ ω ε α) (events events' : List (Event μ ω)) :
    trace program P (events ++ events') =
      trace program P events ++ trace program (Runs.final (step program) P events) events' := by
  unfold trace
  rw [Runs.answers_append, List.filterMap_append]

theorem step_call (P : Pool μ σ ρ ω ε α) (m : μ) : step program P (.call m) =
    (some (.call m, ((program m).advance P.state).1.outcome),
      ⟨((program m).advance P.state).2, P.tasks ++ [(m, ((program m).advance P.state).1)]⟩) := rfl

theorem step_answer {P : Pool μ σ ρ ω ε α} {i : Nat} {m : μ} {q : ρ} {next : ω → Coro σ ρ ω ε α}
    (h : P.tasks[i]? = some (m, .await q next)) (r : ω) : step program P (.answer i r) =
      (some (.answer m q r, ((next r).advance P.state).1.outcome),
        ⟨((next r).advance P.state).2, P.tasks.set i (m, ((next r).advance P.state).1)⟩) := by
  unfold step
  simp only [h]

/-- **What an event does**: nothing, or it runs one segment, of a new coroutine or of one that awaits. -/
theorem step_cases (program : μ → Coro σ ρ ω ε α) (P : Pool μ σ ρ ω ε α) (e : Event μ ω) :
    step program P e = (none, P) ∨
    (∃ m, e = .call m ∧ ∃ p, p = ((program m).advance P.state).1 ∧
      step program P e = (some (.call m, p.outcome), ⟨((program m).advance P.state).2, P.tasks ++ [(m, p)]⟩)) ∨
    ∃ i r m q next, e = .answer i r ∧ P.tasks[i]? = some (m, .await q next) ∧
      ∃ p, p = ((next r).advance P.state).1 ∧
        step program P e = (some (.answer m q r, p.outcome), ⟨((next r).advance P.state).2, P.tasks.set i (m, p)⟩) := by
  cases e with
  | call m => exact .inr (.inl ⟨m, rfl, _, rfl, rfl⟩)
  | answer i r =>
    unfold step
    dsimp only
    split
    · next m q next h => exact .inr (.inr ⟨i, r, m, q, next, rfl, h, _, rfl, rfl⟩)
    · exact .inl rfl

/-- Where a segment comes from: a call, or an answer to a coroutine that awaits it. -/
theorem event_of_step {P : Pool μ σ ρ ω ε α} {e : Event μ ω} {t : Trigger μ ρ ω} {o : Outcome ρ ε α}
    (hs : (step program P e).1 = some (t, o)) :
    (∃ m, e = .call m ∧ t = .call m) ∨ ∃ i m q r, e = .answer i r ∧ t = .answer m q r ∧ P.Awaits i m q := by
  rcases P.step_cases program e with he | ⟨m, rfl, p, _, he⟩ | ⟨i, r, m, q, next, rfl, hi, p, _, he⟩
  · rw [he] at hs
    cases hs
  · rw [he] at hs
    exact .inl ⟨m, rfl, (congrArg Prod.fst (Option.some.inj hs)).symm⟩
  · rw [he] at hs
    exact .inr ⟨i, m, q, r, rfl, (congrArg Prod.fst (Option.some.inj hs)).symm, next, hi⟩

/-- **Who awaits after a segment**: a coroutine that did before and was not answered, or the one that ran. -/
theorem awaits_of_step {P : Pool μ σ ρ ω ε α} {e : Event μ ω} {t : Trigger μ ρ ω} {o : Outcome ρ ε α}
    (hs : (step program P e).1 = some (t, o)) {j : Nat} {m : μ} {q : ρ} (h : Awaits (step program P e).2 j m q) :
    (P.Awaits j m q ∧ ∀ r, e ≠ .answer j r) ∨ o = .await q ∧ ∀ m', e = .call m' → j = P.tasks.length := by
  obtain ⟨next, h⟩ := h
  rcases P.step_cases program e with he | ⟨m', rfl, p, _, he⟩ | ⟨i, r, m', q', next', rfl, _, p, _, he⟩
  · rw [he] at hs
    cases hs
  · rw [he] at hs h
    rw [List.getElem?_append] at h
    split at h
    · exact .inl ⟨⟨next, h⟩, nofun⟩
    · next hlen =>
      have hj : j - P.tasks.length = 0 := by
        by_contra hne
        rw [List.getElem?_eq_none (by simp; omega)] at h
        cases h
      rw [hj] at h
      obtain ⟨rfl, rfl⟩ := Prod.mk.inj (Option.some.inj h)
      exact .inr ⟨(congrArg Prod.snd (Option.some.inj hs)).symm, fun _ _ => by omega⟩
  · rw [he] at hs h
    by_cases hij : i = j
    · subst hij
      rw [List.getElem?_set] at h
      simp only [if_true] at h
      split at h
      · obtain ⟨rfl, rfl⟩ := Prod.mk.inj (Option.some.inj h)
        exact .inr ⟨(congrArg Prod.snd (Option.some.inj hs)).symm, nofun⟩
      · cases h
    · rw [List.getElem?_set_ne hij] at h
      refine .inl ⟨⟨next, h⟩, fun r' e => hij ?_⟩
      cases e
      rfl

/-- The state keeps the invariant, and every coroutine its promise. -/
structure Safe (C : Contract μ σ ρ ω ε α) (P : Pool μ σ ρ ω ε α) : Prop where
  inv : C.inv P.state
  tasks : ∀ t ∈ P.tasks, t.2.Meets C t.1

/-- Every coroutine keeps the contract from its call on. -/
def Keeps (C : Contract μ σ ρ ω ε α) (program : μ → Coro σ ρ ω ε α) : Prop :=
  ∀ m s, C.inv s → (program m).Meets C m C.returns (.call m) s s

/-- The answers among the segments that ran are as assumed. -/
def Fair (C : Contract μ σ ρ ω ε α) (ran : List (Ran μ ρ ω ε α)) : Prop :=
  ∀ m q r o, (Trigger.answer m q r, o) ∈ ran → C.fair q r

/-- **One event** of a safe pool: what ran is a segment of the contract, and the pool stays safe. -/
theorem step_segment (hprog : Keeps C program) {P : Pool μ σ ρ ω ε α} (hP : P.Safe C) (e : Event μ ω)
    (hfair : Fair C (step program P e).1.toList) :
    (step program P e).2.Safe C ∧
      (step program P e = (none, P) ∨
        ∃ t o, (step program P e).1 = some (t, o) ∧ C.segment t P.state o (step program P e).2.state) := by
  rcases P.step_cases program e with h | ⟨m, _, p, hp, h⟩ | ⟨i, r, m, q, next, _, hi, p, hp, h⟩
  · rw [h]
    exact ⟨hP, .inl rfl⟩
  · obtain ⟨hinv, hseg, hrest⟩ := meets_advance (hprog m P.state hP.inv)
    rw [← hp] at hseg hrest
    rw [h]
    refine ⟨⟨hinv, fun t ht => ?_⟩, .inr ⟨_, _, rfl, hseg⟩⟩
    rcases List.mem_append.mp ht with ht | ht
    · exact hP.tasks t ht
    · rw [List.mem_singleton.mp ht]
      exact hrest
  · rw [h] at hfair
    have hr : C.fair q r := hfair m q r p.outcome (by simp)
    have hawait : (Rest.await q next).Meets C m := hP.tasks _ (List.mem_of_getElem? hi)
    obtain ⟨hinv, hseg, hrest⟩ := meets_advance (hawait r hr P.state hP.inv)
    rw [← hp] at hseg hrest
    rw [h]
    refine ⟨⟨hinv, fun t ht => ?_⟩, .inr ⟨_, _, rfl, hseg⟩⟩
    rcases List.mem_or_eq_of_mem_set ht with ht | rfl
    · exact hP.tasks t ht
    · exact hrest

theorem Fair.append_left {l l' : List (Ran μ ρ ω ε α)} (h : Fair C (l ++ l')) : Fair C l :=
  fun m q r o hm => h m q r o (List.mem_append_left _ hm)

theorem Fair.append_right {l l' : List (Ran μ ρ ω ε α)} (h : Fair C (l ++ l')) : Fair C l' :=
  fun m q r o hm => h m q r o (List.mem_append_right _ hm)

/-- **Every run** of a safe pool ends safe, and every segment that ran is one of the contract. -/
theorem safe_final (hprog : Keeps C program) (events : List (Event μ ω)) : ∀ {P : Pool μ σ ρ ω ε α}, P.Safe C →
    Fair C (trace program P events) → (Runs.final (step program) P events).Safe C ∧
      ∀ t o, (t, o) ∈ trace program P events → ∃ s s', C.segment t s o s' := by
  induction events with
  | nil => exact fun hP _ => ⟨hP, fun t o h => by cases h⟩
  | cons e events ih =>
    intro P hP hfair
    rw [trace_cons] at hfair
    obtain ⟨hsafe, hstep⟩ := step_segment hprog hP e hfair.append_left
    obtain ⟨hfinal, hrest⟩ := ih hsafe hfair.append_right
    refine ⟨hfinal, fun t o h => ?_⟩
    rw [trace_cons] at h
    rcases List.mem_append.mp h with h | h
    · rcases hstep with hno | ⟨t', o', ho, hseg⟩
      · rw [hno] at h
        cases h
      · rw [ho] at h
        obtain ⟨rfl, rfl⟩ := Prod.mk.inj (List.mem_singleton.mp h)
        exact ⟨_, _, hseg⟩
    · exact hrest t o h

end Pool

end Coro
