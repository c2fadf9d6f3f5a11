import HadrAgent.Lib.Coro
import HadrAgent.Runner.Episode

/-!
# The coordinate cache

`Episode.coords_of` of `runner.py` and the methods that go through it, as coroutines on the cache: they await the engine
between the look into the cache and the write. Any number of them may be in flight.

- `CoordsCall.body_cases`: a method looks at most one building up;
- `Async.exec_alone_coordsOf`: on its own, the coroutine is the method of `Runner.Episode`.
-/

namespace HadrAgent

variable {ε F : Type}

/-- `_coords_cache`. -/
abbrev CoordsCache (F : Type) := OrdDict (Key F) (Val F × Val F)

/-- What comes back from the session for `building_to_coords`. -/
abbrev EngineReply (F : Type) := Except Exc (ToolResult F)

/-- A coroutine of the episode: it awaits the engine's answer for a building. -/
abbrev Async (F : Type) := Coro (CoordsCache F) (Val F) (EngineReply F) Exc

/-- What a method returns. -/
inductive Located (F : Type) where
  | point (p : Val F × Val F)
  | reply (d : Dict F)
  | location (p : Option (Val F × Val F))

/-- A call of a method of the episode. -/
inductive CoordsCall (F : Type) where
  | coordsOf (buildingId : Val F)
  | buildingToCoords (buildingId : Val F)
  | locationCoords (loc : Val F)

section Methods

variable [Runtime F]

/-- `location_coords`. -/
def Episode.locationCoords {M : Type → Type} [Monad M] [MonadLiftT (Except Exc) M]
    (coordsOf : Val F → M (Val F × Val F)) (loc : Val F) : M (Option (Val F × Val F)) := do
  if !loc.truthy then return none
  let kind ← loc.getD "kind" .none
  if kind.eq (.str "building_id") then
    let point ← coordsOf (← loc.getItem "building_id")
    return some point
  if kind.eq (.str "coordinates") then
    let c ← loc.getItem "coordinates"
    return some (← c.getItem "x", ← c.getItem "y")
  return none

/-- A method, over a `coords_of`. -/
def CoordsCall.body {M : Type → Type} [Monad M] [MonadLiftT (Except Exc) M] (coordsOf : Val F → M (Val F × Val F)) :
    CoordsCall F → M (Located F)
  | .coordsOf buildingId => do return .point (← coordsOf buildingId)
  | .buildingToCoords buildingId => do
    let (x, y) ← coordsOf buildingId
    return .reply (.ofList [("x", x), ("y", y)])
  | .locationCoords loc => do return .location (← Episode.locationCoords coordsOf loc)

/-- What `_call` makes of it. -/
def EngineReply.unwrap (r : EngineReply F) : Except Exc (Dict F) := do
  let res ← r
  res.unwrap

/-- The point in what the engine answered: `r["point"]["x"]` and `r["point"]["y"]`. -/
def EngineReply.point (r : EngineReply F) : Except Exc (Val F × Val F) := do
  let r ← r.unwrap
  let p ← r.getItem "point"
  return (← p.getItem "x", ← p.getItem "y")

/-- `coords_of`. -/
def Async.coordsOf (buildingId : Val F) : Async F (Val F × Val F) := do
  buildingId.requireHash
  let cache ← Coro.read
  if (cache.get? buildingId.tokens).isNone then
    let r ← Coro.ask buildingId
    let point ← r.point
    let cache ← Coro.read
    Coro.write (cache.insert buildingId.tokens point)
  let cache ← Coro.read
  match cache.get? buildingId.tokens with
  | some point => return point
  | none => (Except.error ⟨.keyError, buildingId.repr⟩ : Except Exc (Val F × Val F))

section Lift

variable {M : Type → Type} [Monad M] [LawfulMonad M] [MonadLiftT (Except Exc) M] [LawfulMonadLiftT (Except Exc) M]

omit [LawfulMonad M] in
theorem liftM_ok {α : Type} (a : α) : (liftM (Except.ok a : Except Exc α) : M α) = pure a := liftM_pure a

/-- An exception ends a sequence, in every monad. -/
theorem liftM_error_bind {α β : Type} (e : Exc) (f : α → M β) :
    (liftM (Except.error e : Except Exc α) >>= f) = liftM (Except.error e : Except Exc β) := by
  have hlift : ∀ {γ : Type}, (liftM (Except.error e : Except Exc γ) : M γ) =
      liftM (Except.error e : Except Exc PEmpty) >>= fun a => a.elim := by
    intro γ
    have h := liftM_bind (n := M) (Except.error e : Except Exc PEmpty) fun a => (a.elim : Except Exc γ)
    refine h.trans (congrArg _ (funext fun a => a.elim))
  have hβ : (liftM (Except.error e : Except Exc β) : M β) = _ := hlift
  rw [hlift, hβ, bind_assoc]
  exact congrArg _ (funext fun a => a.elim)

theorem liftM_error_map {α β : Type} (e : Exc) (f : α → β) :
    f <$> (liftM (Except.error e : Except Exc α) : M α) = liftM (Except.error e : Except Exc β) := by
  rw [map_eq_pure_bind, liftM_error_bind]

end Lift

/-- **A method looks at most one building up**, in every monad. -/
theorem CoordsCall.body_cases (c : CoordsCall F) :
    (∃ x : Except Exc (Located F), ∀ {M : Type → Type} [Monad M] [LawfulMonad M] [MonadLiftT (Except Exc) M]
      [LawfulMonadLiftT (Except Exc) M] (coordsOf : Val F → M (Val F × Val F)), c.body coordsOf = liftM x) ∨
    ∃ b, ∃ g : Val F × Val F → Located F, ∀ {M : Type → Type} [Monad M] [LawfulMonad M] [MonadLiftT (Except Exc) M]
      [LawfulMonadLiftT (Except Exc) M] (coordsOf : Val F → M (Val F × Val F)),
        c.body coordsOf = do return g (← coordsOf b) := by
  cases c with
  | coordsOf b => exact .inr ⟨b, .point, fun coordsOf => rfl⟩
  | buildingToCoords b => exact .inr ⟨b, fun p => .reply (.ofList [("x", p.1), ("y", p.2)]), fun coordsOf => rfl⟩
  | locationCoords loc =>
    unfold body Episode.locationCoords
    cases ht : loc.truthy with
    | false => exact .inl ⟨.ok (.location none), fun coordsOf => by simp [ht, liftM_ok]⟩
    | true =>
      cases hk : loc.getD "kind" .none with
      | error e => exact .inl ⟨.error e, fun coordsOf => by simp [ht, hk, liftM_error_bind, liftM_error_map]⟩
      | ok kind =>
        cases hb : kind.eq (.str "building_id") with
        | true =>
          cases hi : loc.getItem "building_id" with
          | error e =>
            refine .inl ⟨.error e, fun coordsOf => ?_⟩
            simp [ht, hk, hb, hi, liftM_ok, liftM_error_bind, liftM_error_map]
          | ok b => exact .inr ⟨b, fun p => .location (some p), fun coordsOf => by simp [ht, hk, hb, hi, liftM_ok]⟩
        | false =>
          cases hx : kind.eq (.str "coordinates") with
          | true =>
            refine .inl ⟨do
              let c ← loc.getItem "coordinates"
              return .location (some (← c.getItem "x", ← c.getItem "y")), fun coordsOf => ?_⟩
            simp [ht, hk, hb, hx, liftM_ok]
          | false => exact .inl ⟨.ok (.location none), fun coordsOf => by simp [ht, hk, hb, hx, liftM_ok]⟩

/-- A method of the episode. -/
def CoordsCall.program (c : CoordsCall F) : Async F (Located F) := c.body Async.coordsOf

/-- A method without a cache: every look at a building is a question to the engine. -/
def CoordsCall.uncached (engine : Val F → EngineReply F) (c : CoordsCall F) : Except Exc (Located F) :=
  c.body fun buildingId => (engine buildingId).point

/-- What a method returns where every building has its point. -/
def CoordsCall.value (point : Key F → Val F × Val F) (c : CoordsCall F) : Except Exc (Located F) :=
  c.body fun buildingId => .ok (point buildingId.tokens)

theorem CoordsCall.uncached_eq_value {point : Key F → Val F × Val F} {engine : Val F → EngineReply F}
    (h : ∀ b, (engine b).point = .ok (point b.tokens)) (c : CoordsCall F) : c.uncached engine = c.value point := by
  unfold uncached value
  rw [funext h]

/-- The last line of `coords_of`. -/
def Async.cached (b : Val F) : Async F (Val F × Val F) :=
  .get fun cache => match cache.get? b.tokens with
    | some point => .done point
    | none => .fail ⟨.keyError, b.repr⟩

theorem Async.coordsOf_eq {b : Val F} (hb : b.requireHash = .ok ()) :
    Async.coordsOf b = .get fun cache =>
      if (cache.get? b.tokens).isNone then .await b fun r => match r.point with
        | .ok p => .get fun cache => .put (cache.insert b.tokens p) (cached b)
        | .error e => .fail e
      else cached b := by
  unfold coordsOf
  rw [hb]
  refine congrArg Coro.get (funext fun cache => ?_)
  show (if (cache.get? b.tokens).isNone = true then _ else _) = _
  cases (cache.get? b.tokens).isNone with
  | false => rfl
  | true =>
    refine congrArg (Coro.await b) (funext fun r => ?_)
    show Coro.andThen (liftM r.point) _ = _
    cases r.point <;> rfl

end Methods

/-! ## One method alone -/

section Alone

/-- What a computation returned or raised, as a value. -/
def attempt {α : Type} (m : Py ε α) : Py ε (Except Exc α) := fun e =>
  match m e with
  | .ok a e => .ok (.ok a) e
  | .error x e => .ok (.error x) e

theorem exec_attempt {α : Type} (m : Py ε α) (e : ε) : (attempt m).exec e = (.ok (m.exec e).1, (m.exec e).2) := by
  unfold attempt Py.exec
  dsimp only
  cases m e <;> rfl

/-- A method on its own: the session answers before anything else runs. -/
def Async.alone {α : Type} (session : Session ε F) : Async F α → Py (CoordsCache F × ε) α
  | .done a => pure a
  | .fail e => throw e
  | .get next => do
    let x ← get
    alone session (next x.1)
  | .put cache next => do
    modify fun x => (cache, x.2)
    alone session next
  | .await b next => do
    let r ← (attempt (session.callTool "building_to_coords" (.ofList [("building_id", b)]))).zoom Prod.snd
      fun e x => (x.1, e)
    alone session (next r)

variable [Runtime F]

/-- The runner's question to the engine. -/
theorem Episode.exec_onClient_buildingToCoords (session : Session ε F) {b : Val F} {ep : Episode ε F}
    {r : EngineReply F} {e : ε}
    (hr : (session.callTool "building_to_coords" (.ofList [("building_id", b)])).exec ep.client = (r, e)) :
    (onClient (session.buildingToCoords b)).exec ep = (r.unwrap, ({ ep with client := e } : Episode ε F)) := by
  unfold onClient Session.buildingToCoords Session.call
  rw [Py.exec_zoom, Py.exec_bind, hr]
  cases r with
  | ok res =>
    dsimp only
    rw [Py.exec_lift]
    rfl
  | error x => rfl

/-- The runner's `coords_of` on a miss. -/
theorem Episode.exec_coordsOf_of_miss (session : Session ε F) {b : Val F} {ep : Episode ε F}
    (hb : b.requireHash = .ok ()) (hc : ep.coordsCache.get? b.tokens = none) {r : EngineReply F} {e : ε}
    (hr : (session.callTool "building_to_coords" (.ofList [("building_id", b)])).exec ep.client = (r, e)) :
    (coordsOf session b).exec ep = match r.point with
      | .ok p => (.ok p, { ep with client := e, coordsCache := ep.coordsCache.insert b.tokens p })
      | .error x => (.error x, { ep with client := e }) := by
  unfold coordsOf EngineReply.point
  rw [hb, Py.exec_bind, Py.exec_lift]
  dsimp only
  rw [Py.exec_bind, Py.exec_get]
  dsimp only
  rw [hc]
  dsimp only
  rw [Py.exec_bind, exec_onClient_buildingToCoords session hr]
  cases r.unwrap with
  | error x => rfl
  | ok d =>
    simp only [Py.exec_bind, Py.exec_lift, Py.exec_modify, Py.exec_pure]
    cases hp : d.getItem "point" with
    | error x => simp [hp, bind, Except.bind]
    | ok p =>
      cases hx : p.getItem "x" with
      | error x => simp [hp, hx, bind, Except.bind]
      | ok x => cases hy : p.getItem "y" <;> simp [hp, hx, hy, bind, Except.bind, pure, Except.pure]

/-- **On its own**, the coroutine is the method of the runner. -/
theorem Async.exec_alone_coordsOf (session : Session ε F) (b : Val F) (ep : Episode ε F) :
    (Async.alone session (Async.coordsOf b)).exec (ep.coordsCache, ep.client) =
      (((Episode.coordsOf session b).exec ep).1,
        ((Episode.coordsOf session b).exec ep).2.coordsCache, ((Episode.coordsOf session b).exec ep).2.client) := by
  cases hb : b.requireHash with
  | error e =>
    unfold Episode.coordsOf Async.coordsOf
    rw [hb]
    rfl
  | ok u =>
    rw [Async.coordsOf_eq hb, Async.alone, Py.exec_bind, Py.exec_get]
    dsimp only
    cases hc : ep.coordsCache.get? b.tokens with
    | some p =>
      rw [Option.isNone_some, if_neg Bool.false_ne_true, Async.cached, Async.alone]
      simp [hc, hb, Async.alone, Episode.coordsOf]
    | none =>
      rw [Option.isNone_none, if_pos rfl, Async.alone, Py.exec_bind, Py.exec_zoom, exec_attempt]
      dsimp only
      cases hr : (session.callTool "building_to_coords" (.ofList [("building_id", b)])).exec ep.client with
      | mk r e =>
        rw [Episode.exec_coordsOf_of_miss session hb hc hr]
        dsimp only
        cases EngineReply.point r with
        | error x => rfl
        | ok p =>
          rw [Async.alone, Async.cached]
          simp [Async.alone, OrdDict.get?_insert_self]

end Alone

end HadrAgent
