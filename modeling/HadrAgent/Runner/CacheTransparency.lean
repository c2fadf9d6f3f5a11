import HadrAgent.Runner.CoordsCache

/-!
# The cache is transparent

Calls of the methods of `Runner.CoordsCache` in flight together, where the engine gives a building its point or fails.

- `cacheContract`: what a segment between two awaits may do; every method keeps it (`keeps_program`);
- `CoordsPool.step_spec`: an event leaves the cache, or caches the point of a building and returns;
- `coords_cache_transparent`: what follows over every interleaving.
-/

namespace HadrAgent

variable {F : Type}

/-! ## The contract -/

section Contract

variable [Runtime F] (point : Key F → Val F × Val F)

/-- What the methods keep, where the engine gives every building its point: the cache holds points of buildings; a
segment that ends in an exception or an await leaves the cache, and one that returns returns the point. -/
def cacheContract : Coro.Contract (CoordsCall F) (CoordsCache F) (Val F) (EngineReply F) Exc (Located F) where
  inv cache := ∀ k p, cache.get? k = some p → p = point k
  fair b r := ∀ p, r.point = .ok p → p = point b.tokens
  segment t s o s' := match t with
    | .call c => s' = s ∧ match o with
      | .done v => c.value point = .ok v
      | .fail _ => True
      | .await b => s.get? b.tokens = none
    | .answer c b r => match r.point with
      | .ok p => s' = s.insert b.tokens p ∧ ∃ v, o = .done v ∧ c.value point = .ok v
      | .error e => s' = s ∧ o = .fail e

variable {point}

theorem meets_cached {C : Coro.Contract (CoordsCall F) (CoordsCache F) (Val F) (EngineReply F) Exc (Located F)}
    {c : CoordsCall F} {b : Val F} {p : Val F × Val F} {s₀ s : CoordsCache F}
    {post : Val F × Val F → Coro.Trigger (CoordsCall F) (Val F) (EngineReply F) → CoordsCache F → CoordsCache F → Prop}
    {t : Coro.Trigger (CoordsCall F) (Val F) (EngineReply F)} (hp : s.get? b.tokens = some p) (h : post p t s₀ s) :
    (Async.cached b).Meets C c post t s₀ s := by
  unfold Async.cached
  simp only [Coro.Meets, hp]
  exact h

/-- **`coords_of` keeps the contract** when what follows it does, on a hit and on a miss. -/
theorem meets_coordsOf {c : CoordsCall F} {b : Val F} {s : CoordsCache F}
    {post : Val F × Val F → Coro.Trigger (CoordsCall F) (Val F) (EngineReply F) → CoordsCache F → CoordsCache F → Prop}
    (hs : (cacheContract point).inv s) (hhit : post (point b.tokens) (.call c) s s)
    (hmiss : ∀ r s', r.point = .ok (point b.tokens) → (cacheContract point).inv s' →
      post (point b.tokens) (.answer c b r) s' (s'.insert b.tokens (point b.tokens))) :
    (Async.coordsOf b).Meets (cacheContract point) c post (.call c) s s := by
  cases hb : b.requireHash with
  | error e =>
    unfold Async.coordsOf
    rw [hb]
    exact ⟨hs, rfl, trivial⟩
  | ok u =>
    rw [Async.coordsOf_eq hb]
    show Coro.Meets _ _ _ (if (s.get? b.tokens).isNone then _ else _) _ _ s
    cases hc : s.get? b.tokens with
    | some p =>
      rw [Option.isNone_some, if_neg Bool.false_ne_true]
      obtain rfl := hs _ _ hc
      exact meets_cached hc hhit
    | none =>
      rw [Option.isNone_none, if_pos rfl]
      refine ⟨hs, ⟨rfl, hc⟩, fun r hr s' hs' => ?_⟩
      show Coro.Meets _ _ _ (match r.point with | .ok p => _ | .error e => _) _ s' s'
      cases hp : r.point with
      | error e =>
        refine ⟨hs', ?_⟩
        show match r.point with | .ok p => _ | .error e => _
        rw [hp]
        exact ⟨rfl, rfl⟩
      | ok p =>
        obtain rfl := hr p hp
        exact meets_cached (OrdDict.get?_insert_self _ _ _) (hmiss r s' hp hs')

/-- A method that ends with `v` where `coords_of` has ended. -/
theorem segment_call {c : CoordsCall F} {v : Located F} (hv : c.value point = .ok v) (s : CoordsCache F) :
    (cacheContract point).segment (.call c) s (.done v) s := ⟨rfl, hv⟩

theorem segment_answer {c : CoordsCall F} {b : Val F} {r : EngineReply F} {v : Located F}
    (hr : r.point = .ok (point b.tokens)) (hv : c.value point = .ok v) (s : CoordsCache F) :
    (cacheContract point).segment (.answer c b r) s (.done v) (s.insert b.tokens (point b.tokens)) := by
  show match r.point with | .ok p => _ | .error e => _
  rw [hr]
  exact ⟨rfl, v, rfl, hv⟩

/-- A segment that an answer triggers ends its call: with the point, which is cached, or with what was raised. -/
theorem segment_answer_cases {c : CoordsCall F} {b : Val F} {r : EngineReply F} {s s' : CoordsCache F}
    {o : Coro.Outcome (Val F) Exc (Located F)} (h : (cacheContract point).segment (.answer c b r) s o s') :
    (∃ p v, r.point = .ok p ∧ s' = s.insert b.tokens p ∧ o = .done v ∧ c.value point = .ok v) ∨
      ∃ e, r.point = .error e ∧ s' = s ∧ o = .fail e := by
  have hans : match r.point with | .ok p => _ | .error e => _ := h
  cases hr : r.point with
  | ok p =>
    rw [hr] at hans
    obtain ⟨hs, v, ho, hv⟩ := hans
    exact .inl ⟨p, v, rfl, hs, ho, hv⟩
  | error e =>
    rw [hr] at hans
    exact .inr ⟨e, rfl, hans⟩

theorem inv_insert {s : CoordsCache F} (hs : (cacheContract point).inv s) (k : Key F) :
    (cacheContract point).inv (s.insert k (point k)) := by
  intro k' p h
  rw [OrdDict.get?_insert] at h
  split at h
  · next e =>
    rw [← Option.some.inj h, e]
  · exact hs k' p h

/-- A method that looks a building up and then returns. -/
theorem meets_lookup {c : CoordsCall F} {b : Val F} {s : CoordsCache F} {f : Val F × Val F → Located F}
    (hs : (cacheContract point).inv s) (hv : c.value point = .ok (f (point b.tokens))) :
    ((Async.coordsOf b).andThen fun p => .done (f p)).Meets (cacheContract point) c
      (cacheContract point).returns (.call c) s s := by
  apply Coro.meets_andThen
  refine meets_coordsOf hs ?_ fun r s' hr hs' => ?_
  · exact ⟨hs, segment_call hv s⟩
  · exact ⟨inv_insert hs' _, segment_answer hr hv s'⟩

/-- A method that ends without looking a building up. -/
theorem meets_lift {c : CoordsCall F} {x : Except Exc (Located F)} {s : CoordsCache F}
    (hs : (cacheContract point).inv s) (hv : c.value point = x) :
    (liftM x : Async F (Located F)).Meets (cacheContract point) c (cacheContract point).returns (.call c) s s := by
  cases x with
  | ok v => exact ⟨hs, segment_call hv s⟩
  | error e => exact ⟨hs, rfl, trivial⟩

/-- **Every method** keeps the contract. -/
theorem keeps_program (point : Key F → Val F × Val F) :
    Coro.Pool.Keeps (cacheContract point) CoordsCall.program := by
  intro c s hs
  rcases c.body_cases with ⟨x, hx⟩ | ⟨b, g, hg⟩
  · rw [CoordsCall.program, hx]
    exact meets_lift hs (hx _)
  · rw [CoordsCall.program, hg]
    exact meets_lookup hs (hg _)

end Contract

/-! ## Runs -/

section Runs

variable [Runtime F] {point : Key F → Val F × Val F}

/-- The methods in flight on one episode. -/
abbrev CoordsPool (F : Type) := Coro.Pool (CoordsCall F) (CoordsCache F) (Val F) (EngineReply F) Exc (Located F)

/-- A call, or an answer of the engine. -/
abbrev CoordsEvent (F : Type) := Coro.Event (CoordsCall F) (EngineReply F)

/-- What ran. -/
abbrev CoordsRan (F : Type) := Coro.Ran (CoordsCall F) (Val F) (EngineReply F) Exc (Located F)

namespace CoordsPool

/-- The segments that run from `P` on. -/
def ran (P : CoordsPool F) (events : List (CoordsEvent F)) : List (CoordsRan F) :=
  Coro.Pool.trace CoordsCall.program P events

/-- A new episode: nothing is cached and nothing is in flight. -/
def new : CoordsPool F := .init .empty

/-- The pool after events on a new episode. -/
def after (events : List (CoordsEvent F)) : CoordsPool F :=
  Runs.final (Coro.Pool.step CoordsCall.program) new events

/-- Whether the engine gave the building of a key its point. -/
def Gives (k : Key F) (x : CoordsRan F) : Prop :=
  match x.1 with
  | .call _ => False
  | .answer _ b r => b.tokens = k ∧ r.point.isOk = true

instance (k : Key F) : DecidablePred (Gives k) := fun x =>
  match x with
  | (.call _, _) => inferInstanceAs (Decidable False)
  | (.answer _ b r, _) => inferInstanceAs (Decidable (b.tokens = k ∧ r.point.isOk = true))

/-- The engine answers a building with its point, or not at all. -/
def Consistent (point : Key F → Val F × Val F) (l : List (CoordsRan F)) : Prop :=
  ∀ c b r o, (Coro.Trigger.answer c b r, o) ∈ l → ∀ p, r.point = .ok p → p = point b.tokens

theorem Consistent.left {l l' : List (CoordsRan F)} (h : Consistent point (l ++ l')) : Consistent point l :=
  fun c b r o hm => h c b r o (List.mem_append_left _ hm)

theorem Consistent.right {l l' : List (CoordsRan F)} (h : Consistent point (l ++ l')) : Consistent point l' :=
  fun c b r o hm => h c b r o (List.mem_append_right _ hm)

theorem safe_new : (new : CoordsPool F).Safe (cacheContract point) := ⟨nofun, nofun⟩

/-- **One event**: it ran a segment that left the cache and did not get a point, or one that got the point of a
building, cached it and returned. -/
theorem step_spec {P : CoordsPool F} (hP : P.Safe (cacheContract point)) (e : CoordsEvent F)
    (hfair : Consistent point (Coro.Pool.step CoordsCall.program P e).1.toList) :
    (Coro.Pool.step CoordsCall.program P e).2.Safe (cacheContract point) ∧
      ((Coro.Pool.step CoordsCall.program P e).2.state = P.state ∧
          (∀ k x, (Coro.Pool.step CoordsCall.program P e).1 = some x → ¬ Gives k x) ∨
        ∃ c b r p v, (Coro.Pool.step CoordsCall.program P e).1 = some (.answer c b r, .done v) ∧ r.point = .ok p ∧
          (Coro.Pool.step CoordsCall.program P e).2.state = P.state.insert b.tokens p) := by
  obtain ⟨hsafe, hstep⟩ := Coro.Pool.step_segment (keeps_program point) hP e hfair
  refine ⟨hsafe, ?_⟩
  rcases hstep with h | ⟨t, o, h, hseg⟩
  · rw [h]
    refine .inl ⟨rfl, fun k x hx => ?_⟩
    cases hx
  · rw [h]
    cases t with
    | call c =>
      refine .inl ⟨hseg.1, fun k x hx => ?_⟩
      rw [← Option.some.inj hx]
      exact id
    | answer c b r =>
      rcases segment_answer_cases hseg with ⟨p, v, hr, hs, rfl, _⟩ | ⟨e, hr, hs, _⟩
      · exact .inr ⟨c, b, r, p, v, rfl, hr, hs⟩
      · refine .inl ⟨hs, fun k x hx => ?_⟩
        rw [← Option.some.inj hx]
        rintro ⟨_, hok⟩
        rw [hr] at hok
        cases hok

/-- What a segment returns. -/
theorem value_of_segment {t : Coro.Trigger (CoordsCall F) (Val F) (EngineReply F)} {s s' : CoordsCache F}
    {v : Located F} (h : (cacheContract point).segment t s (.done v) s') : t.kind.value point = .ok v := by
  cases t with
  | call c => exact h.2
  | answer c b r =>
    rcases segment_answer_cases h with ⟨p, v', _, _, hv, hval⟩ | ⟨e, _, _, ho⟩
    · cases hv
      exact hval
    · cases ho

/-- **What the cache holds was given**: an entry is there from the start, or the engine answered with it. -/
theorem get?_final (k : Key F) (p : Val F × Val F) (events : List (CoordsEvent F)) : ∀ {P : CoordsPool F},
    P.Safe (cacheContract point) → Consistent point (P.ran events) →
      (Runs.final (Coro.Pool.step CoordsCall.program) P events).state.get? k = some p →
        P.state.get? k = some p ∨
          ∃ c b r o, (Coro.Trigger.answer c b r, o) ∈ P.ran events ∧ b.tokens = k ∧ r.point = .ok p := by
  induction events with
  | nil => exact fun _ _ h => .inl h
  | cons e events ih =>
    intro P hP hfair h
    have hran : P.ran (e :: events) = _ := Coro.Pool.trace_cons P e events
    rw [hran] at hfair ⊢
    obtain ⟨hsafe, hstep⟩ := step_spec hP e hfair.left
    rcases ih hsafe hfair.right h with h | ⟨c, b, r, o, hm, hb, hr⟩
    · rcases hstep with ⟨hs, _⟩ | ⟨c, b, r, p', v, hx, hr, hs⟩
      · exact .inl (hs ▸ h)
      · rw [hs, OrdDict.get?_insert] at h
        split at h
        · next e =>
          refine .inr ⟨c, b, r, .done v, List.mem_append_left _ ?_, e.symm, (Option.some.inj h) ▸ hr⟩
          rw [hx]
          exact List.mem_singleton_self _
        · exact .inl h
    · exact .inr ⟨c, b, r, o, List.mem_append_right _ hm, hb, hr⟩

/-- One coroutine at most awaits the engine, for a building that is not cached. -/
structure Sequential (P : CoordsPool F) : Prop where
  one : ∀ i j c c' b b', P.Awaits i c b → P.Awaits j c' b' → i = j
  fresh : ∀ i c b, P.Awaits i c b → P.state.get? b.tokens = none

/-- Calls do not overlap: when one starts, none awaits the engine. -/
def NoOverlap (P : CoordsPool F) (events : List (CoordsEvent F)) : Prop :=
  ∀ pre c post, events = pre ++ .call c :: post →
    ∀ i c' b, ¬ (Runs.final (Coro.Pool.step CoordsCall.program) P pre).Awaits i c' b

theorem NoOverlap.tail {P : CoordsPool F} {e : CoordsEvent F} {events : List (CoordsEvent F)}
    (h : P.NoOverlap (e :: events)) : NoOverlap (Coro.Pool.step CoordsCall.program P e).2 events :=
  fun pre c post he => h (e :: pre) c post (congrArg _ he)

theorem Sequential.of_none {P : CoordsPool F} (h : ∀ i c b, ¬ P.Awaits i c b) : P.Sequential :=
  ⟨fun i _ c _ b _ hi => absurd hi (h i c b), fun i c b hi => absurd hi (h i c b)⟩

/-- **One event** of calls that do not overlap; an answer is for a building that is not cached. -/
theorem sequential_step {P : CoordsPool F} (hP : P.Safe (cacheContract point)) (hs : P.Sequential)
    (e : CoordsEvent F) (hidle : ∀ c, e = .call c → ∀ i c' b, ¬ P.Awaits i c' b)
    (hfair : Consistent point (Coro.Pool.step CoordsCall.program P e).1.toList) :
    Sequential (Coro.Pool.step CoordsCall.program P e).2 ∧
      ∀ c b r o, (Coro.Pool.step CoordsCall.program P e).1 = some (.answer c b r, o) →
        P.state.get? b.tokens = none := by
  rcases (Coro.Pool.step_segment (keeps_program point) hP e hfair).2 with h | ⟨t, o, h, hseg⟩
  · rw [h]
    refine ⟨hs, fun c b r o he => ?_⟩
    cases he
  · rcases Coro.Pool.event_of_step h with ⟨c, rfl, rfl⟩ | ⟨i, c, b, r, rfl, rfl, hi⟩
    · have hnew : ∀ {j c' b}, Coro.Pool.Awaits (Coro.Pool.step CoordsCall.program P (.call c)).2 j c' b →
          o = .await b ∧ j = P.tasks.length := by
        intro j c' b hj
        rcases Coro.Pool.awaits_of_step h hj with ⟨hj, _⟩ | ⟨ho, hlast⟩
        · exact absurd hj (hidle c rfl j c' b)
        · exact ⟨ho, hlast c rfl⟩
      refine ⟨⟨fun i j c₁ c₂ b₁ b₂ hi hj => (hnew hi).2.trans (hnew hj).2.symm, fun j c' b hj => ?_⟩, ?_⟩
      · rw [(hnew hj).1] at hseg
        rw [hseg.1]
        exact hseg.2
      · intro c' b r o' he
        rw [h] at he
        cases he
    · have hended : ∀ b', o ≠ .await b' := by
        rintro b' rfl
        rcases segment_answer_cases hseg with ⟨p, v, _, _, ho, _⟩ | ⟨e, _, _, ho⟩ <;> cases ho
      refine ⟨.of_none fun j c' b' hj => ?_, fun c' b' r' o' he => ?_⟩
      · rcases Coro.Pool.awaits_of_step h hj with ⟨hj, hne⟩ | ⟨ho, _⟩
        · obtain rfl := hs.one i j c c' b b' hi hj
          exact hne r rfl
        · exact hended b' ho
      · rw [h] at he
        cases he
        exact hs.fresh i c b hi

/-- **Calls that do not overlap** get a point for a building once, and none for one that is cached. -/
theorem countP_gives (k : Key F) (events : List (CoordsEvent F)) : ∀ {P : CoordsPool F},
    P.Safe (cacheContract point) → P.Sequential → P.NoOverlap events → Consistent point (P.ran events) →
      (P.ran events).countP (Gives k) ≤ if (P.state.get? k).isSome then 0 else 1 := by
  induction events with
  | nil => exact fun _ _ _ _ => Nat.zero_le _
  | cons e events ih =>
    intro P hP hs hno hfair
    have hran : P.ran (e :: events) = _ := Coro.Pool.trace_cons P e events
    rw [hran] at hfair ⊢
    have hidle : ∀ c, e = .call c → ∀ i c' b, ¬ P.Awaits i c' b := fun c he =>
      hno [] c events (congrArg (· :: events) he)
    obtain ⟨hsafe, hstep⟩ := step_spec hP e hfair.left
    obtain ⟨hs', hfresh⟩ := sequential_step hP hs e hidle hfair.left
    have hrest := ih hsafe hs' hno.tail hfair.right
    rw [List.countP_append]
    rcases hstep with ⟨hstate, hnot⟩ | ⟨c, b, r, p, v, hx, hr, hstate⟩
    · have hzero : (Coro.Pool.step CoordsCall.program P e).1.toList.countP (Gives k) = 0 := by
        refine List.countP_eq_zero.mpr fun x hx => ?_
        rw [decide_eq_true_iff]
        exact hnot k x (Option.mem_toList.mp hx)
      rw [hzero, Nat.zero_add, ← hstate]
      exact hrest
    · rw [hx, Option.toList_some, List.countP_singleton]
      rw [hstate, OrdDict.get?_insert] at hrest
      by_cases hk : k = b.tokens
      · rw [if_pos hk, Option.isSome_some, if_pos rfl, Nat.le_zero] at hrest
        have htail : ∀ P' : CoordsPool F, (P'.ran events).countP (Gives k) = 0 →
            (Coro.Pool.trace CoordsCall.program P' events).countP (Gives k) = 0 := fun _ h => h
        rw [htail _ hrest, hk, hfresh c b r _ hx, Option.isSome_none, if_neg Bool.false_ne_true]
        split <;> omega
      · rw [if_neg hk] at hrest
        have hnot : ¬ Gives k (.answer c b r, .done v) := fun h => hk h.1.symm
        rw [if_neg (by simpa using hnot), Nat.zero_add]
        exact hrest

/-- What `coords_of` does at once: it returns a point that is cached, and awaits the engine for one that is not. -/
theorem advance_coordsOf {b : Val F} (hb : b.requireHash = .ok ()) (s : CoordsCache F) :
    (∃ p, s.get? b.tokens = some p ∧
      (CoordsCall.coordsOf b).program.advance s = (.done (.point p), s)) ∨
    ∃ next, (CoordsCall.coordsOf b).program.advance s = (.await b next, s) := by
  have hprog : (CoordsCall.coordsOf b).program = (Async.coordsOf b).andThen fun p => .done (.point p) := rfl
  rw [hprog, Async.coordsOf_eq hb]
  cases hc : s.get? b.tokens with
  | some p =>
    refine .inl ⟨p, rfl, ?_⟩
    show (Coro.andThen (if (s.get? b.tokens).isNone then _ else _) _).advance s = _
    rw [hc, Option.isNone_some, if_neg Bool.false_ne_true]
    unfold Async.cached
    simp only [Coro.andThen, Coro.advance, hc]
  | none =>
    refine .inr ⟨fun r => Coro.andThen (match r.point with
      | .ok p => .get fun cache => .put (cache.insert b.tokens p) (Async.cached b)
      | .error e => .fail e) fun p => .done (.point p), ?_⟩
    show (Coro.andThen (if (s.get? b.tokens).isNone then _ else _) _).advance s = _
    rw [hc, Option.isNone_none, if_pos rfl]
    rfl

/-- The point of a building ends a `coords_of` that awaits it. -/
theorem step_answer_of_point {P : CoordsPool F} (hP : P.Safe (cacheContract point)) {i : Nat} {b : Val F}
    {next : EngineReply F → Async F (Located F)} (hi : P.tasks[i]? = some (.coordsOf b, .await b next))
    {r : EngineReply F} (hr : r.point = .ok (point b.tokens)) :
    (Coro.Pool.step CoordsCall.program P (.answer i r)).1 =
      some (.answer (.coordsOf b) b r, .done (.point (point b.tokens))) := by
  have hstep : Coro.Pool.step CoordsCall.program P (.answer i r) = _ := Coro.Pool.step_answer hi r
  have hfair : Consistent point (Coro.Pool.step CoordsCall.program P (.answer i r)).1.toList := by
    intro c b' r' o hm p hp
    rw [hstep] at hm
    cases List.mem_singleton.mp hm
    exact Except.ok.inj (hp.symm.trans hr)
  rcases (Coro.Pool.step_segment (keeps_program point) hP _ hfair).2 with hno | ⟨t, o, ho, hseg⟩
  · rw [hno] at hstep
    cases hstep
  · rw [hstep] at ho
    obtain ⟨rfl, rfl⟩ := Prod.mk.inj (Option.some.inj ho)
    rcases segment_answer_cases hseg with ⟨p, v, _, _, ho, hval⟩ | ⟨e, he, _⟩
    · have hv : v = .point (point b.tokens) := (Except.ok.inj hval).symm
      rw [hstep, ho, hv]
    · cases hr.symm.trans he

/-- **A building can be had**: `coords_of` returns its point, at once or when the engine gives it. -/
theorem ran_coordsOf {P : CoordsPool F} (hP : P.Safe (cacheContract point)) {b : Val F} {r : EngineReply F}
    (hb : b.requireHash = .ok ()) (hr : r.point = .ok (point b.tokens)) :
    P.ran [.call (.coordsOf b)] = [(.call (.coordsOf b), .done (.point (point b.tokens)))] ∨
      P.ran [.call (.coordsOf b), .answer P.tasks.length r] =
        [(.call (.coordsOf b), .await b), (.answer (.coordsOf b) b r, .done (.point (point b.tokens)))] := by
  have hcall : ∀ o s, (CoordsCall.coordsOf b).program.advance P.state = (o, s) →
      Coro.Pool.step CoordsCall.program P (.call (.coordsOf b)) =
        (some (.call (.coordsOf b), o.outcome), ⟨s, P.tasks ++ [(.coordsOf b, o)]⟩) := by
    intro o s h
    rw [Coro.Pool.step_call, h]
  rcases advance_coordsOf hb P.state with ⟨p, hp, h⟩ | ⟨next, h⟩
  · left
    have hran : P.ran [.call (.coordsOf b)] = _ := Coro.Pool.trace_cons P (.call (.coordsOf b)) []
    rw [hran, hcall _ _ h, hP.inv _ _ hp]
    rfl
  · right
    have hran : P.ran [.call (.coordsOf b), .answer P.tasks.length r] = _ :=
      Coro.Pool.trace_cons P (.call (.coordsOf b)) [.answer P.tasks.length r]
    have hfair : Consistent point (Coro.Pool.step CoordsCall.program P (.call (.coordsOf b))).1.toList := by
      intro c b' r' o hm
      rw [hcall _ _ h] at hm
      cases List.mem_singleton.mp hm
    have hsafe := (step_spec hP (.call (.coordsOf b)) hfair).1
    rw [hcall _ _ h] at hsafe
    have hanswer := step_answer_of_point hsafe List.getElem?_concat_length hr
    rw [hran, Coro.Pool.trace_cons, hcall _ _ h, hanswer]
    rfl

end CoordsPool

/-! ## Transparency -/

open CoordsPool

/-- **The cache is transparent**, over every interleaving of calls and of answers to them, where the engine gives a
building its point or fails. The cache holds what the engine gave for a building. A call that returns, returns what it
would return without the cache; an event that does not end in a return leaves the cache. Whatever happened before, the
point of a building can still be had. And when calls do not overlap, the engine gives the point of a building at most
once. -/
theorem coords_cache_transparent (point : Key F → Val F × Val F) (events : List (CoordsEvent F))
    (hengine : Consistent point ((new : CoordsPool F).ran events)) :
    (∀ k p, (after events).state.get? k = some p →
      ∃ c b r o, (Coro.Trigger.answer c b r, o) ∈ (new : CoordsPool F).ran events ∧
        b.tokens = k ∧ r.point = .ok p) ∧
    (∀ t v, (t, Coro.Outcome.done v) ∈ (new : CoordsPool F).ran events →
      ∀ engine : Val F → EngineReply F, (∀ b, (engine b).point = .ok (point b.tokens)) →
        t.kind.uncached engine = .ok v) ∧
    (∀ pre e post, events = pre ++ e :: post →
      (∀ t v, (Coro.Pool.step CoordsCall.program (after pre) e).1 ≠ some (t, .done v)) →
        (after (pre ++ [e])).state = (after pre).state) ∧
    (∀ b r, b.requireHash = .ok () → r.point = .ok (point b.tokens) →
      (after events).ran [.call (.coordsOf b)] =
          [(.call (.coordsOf b), .done (.point (point b.tokens)))] ∨
        (after events).ran [.call (.coordsOf b), .answer (after events).tasks.length r] =
          [(.call (.coordsOf b), .await b), (.answer (.coordsOf b) b r, .done (.point (point b.tokens)))]) ∧
    ((∀ pre c post, events = pre ++ .call c :: post → ∀ i c' b, ¬ (after pre).Awaits i c' b) →
      ∀ k : Key F, ((new : CoordsPool F).ran events).countP (Gives k) ≤ 1) := by
  have hsafe : ∀ l, l <+: events → (after l).Safe (cacheContract point) := by
    rintro l ⟨l', rfl⟩
    have hran : (new : CoordsPool F).ran (l ++ l') = _ := Coro.Pool.trace_append _ l l'
    rw [hran] at hengine
    exact (Coro.Pool.safe_final (keeps_program point) l safe_new hengine.left).1
  refine ⟨?_, ?_, ?_, ?_, ?_⟩
  · intro k p hk
    rcases get?_final k p events safe_new hengine hk with h | h
    · cases h
    · exact h
  · intro t v ht engine hpoint
    obtain ⟨s, s', hseg⟩ := (Coro.Pool.safe_final (keeps_program point) events safe_new hengine).2 t _ ht
    rw [CoordsCall.uncached_eq_value hpoint]
    exact value_of_segment hseg
  · rintro pre e post rfl hnot
    have hran : (new : CoordsPool F).ran (pre ++ e :: post) = _ := Coro.Pool.trace_append new pre (e :: post)
    rw [hran, Coro.Pool.trace_cons] at hengine
    have hlast : after (pre ++ [e]) = (Coro.Pool.step CoordsCall.program (after pre) e).2 :=
      Runs.final_append pre [e] new
    rcases (step_spec (hsafe pre (List.prefix_append _ _)) e hengine.right.left).2 with ⟨hs, _⟩ | ⟨c, b, r, p, v, hx, _⟩
    · rw [hlast, hs]
    · exact absurd hx (hnot _ _)
  · intro b r hb hr
    exact ran_coordsOf (hsafe events (List.prefix_refl _)) hb hr
  · intro hno k
    exact countP_gives k events (P := new) safe_new (.of_none fun i c b ⟨_, h⟩ => nomatch h) hno hengine

/-- What the engine answers for a building at (3, 4). -/
def threeFour : EngineReply Whole :=
  .ok ⟨false, some (.ofList [("point", .dict [("x", .int 3), ("y", .int 4)])])⟩

/-- Two calls for one building overlap; the engine fails the first and answers the second. -/
def overlapping : List (CoordsEvent Whole) :=
  [.call (.coordsOf (.str "b-1")), .call (.buildingToCoords (.str "b-1")), .answer 0 (.error ⟨.engineError, "busy"⟩),
    .answer 1 threeFour, .call (.coordsOf (.str "b-1"))]

theorem coords_cache_transparent_overlapping :
    ∃ c b r o, (Coro.Trigger.answer c b r, o) ∈ (new : CoordsPool Whole).ran overlapping ∧
      b.tokens = (Val.str "b-1" : Val Whole).tokens ∧ r.point = .ok (.int 3, .int 4) := by
  refine (coords_cache_transparent (fun _ => (.int 3, .int 4)) overlapping ?_).1 _ _ rfl
  intro c b r o h p hp
  have hran : (new : CoordsPool Whole).ran overlapping =
      [(.call (.coordsOf (.str "b-1")), .await (.str "b-1")),
        (.call (.buildingToCoords (.str "b-1")), .await (.str "b-1")),
        (.answer (.coordsOf (.str "b-1")) (.str "b-1") (.error ⟨.engineError, "busy"⟩), .fail ⟨.engineError, "busy"⟩),
        (.answer (.buildingToCoords (.str "b-1")) (.str "b-1") threeFour,
          .done (.reply (.ofList [("x", .int 3), ("y", .int 4)]))),
        (.call (.coordsOf (.str "b-1")), .done (.point (.int 3, .int 4)))] := rfl
  rw [hran] at h
  simp only [List.mem_cons, List.not_mem_nil, Prod.mk.injEq, reduceCtorEq, false_and, false_or, or_false] at h
  rcases h with ⟨h, _⟩ | ⟨h, _⟩
  · cases h
    cases hp
  · cases h
    exact (Except.ok.inj hp).symm

end Runs

end HadrAgent
