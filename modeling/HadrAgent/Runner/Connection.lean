import HadrAgent.Python.Rules
import HadrAgent.Runner.CoordsCache

/-!
# The connection of a run

`engine_client.py` opens a stream and a session over it, each an asynchronous context on one exit stack, and
`run_episode` runs inside of `async with EngineClient(url)`. What the contexts do is a parameter (`Transport`).

- `exec_unwind`: an exit stack runs every callback once, whatever they raise;
- `exec_runEpisode_block`: a run in an open session is its block, and behind it its `return`.
-/

namespace HadrAgent

variable {ε κ F : Type}

/-! ## Contexts and exit stacks -/

/-- `__aexit__` of a context: it is given the exception of the block and says whether it swallows it. -/
abbrev ExitCallback (ε : Type) := Option Exc → Py ε Bool

/-- An asynchronous context manager. -/
structure Context (ε α : Type) where
  enter : Py ε α
  exit : ExitCallback ε

/-- `AsyncExitStack.aclose`, from the callback pushed last on: each is given what those before it raised, and may
swallow or replace it. -/
def unwind : List (ExitCallback ε) → Option Exc → Py ε Unit
  | [], none => pure ()
  | [], some e => throw e
  | callback :: callbacks, exc => do
    match ← attempt (callback exc) with
    | .ok swallowed => unwind callbacks (if swallowed then none else exc)
    | .error e => unwind callbacks (some e)

/-- What is raised in the end, when callbacks have come out like this: what one raises stands until a later one swallows
or replaces it. -/
def raisedBy : Option Exc → List (Except Exc Bool) → Except Exc Unit
  | exc, [] => exc.elim (.ok ()) .error
  | exc, .ok swallowed :: results => raisedBy (if swallowed then none else exc) results
  | _, .error e :: results => raisedBy (some e) results

/-- **Unwinding** runs every callback once, in order, whatever they raise. -/
theorem exec_unwind {τ L : Type} {read : ε → τ} {act : L → Except Exc Bool → τ → τ}
    {callbacks : List (ExitCallback ε)} {labels : List L}
    (h : List.Forall₂ (fun callback l => ∀ exc e,
      read ((callback exc).exec e).2 = act l ((callback exc).exec e).1 (read e)) callbacks labels) :
    ∀ exc e, ∃ results : List (Except Exc Bool), results.length = labels.length ∧
      ((unwind callbacks exc).exec e).1 = raisedBy exc results ∧
      read ((unwind callbacks exc).exec e).2 = (labels.zip results).foldl (fun x p => act p.1 p.2 x) (read e) := by
  induction h with
  | nil =>
    intro exc e
    cases exc with
    | none => exact ⟨[], rfl, rfl, rfl⟩
    | some x => exact ⟨[], rfl, rfl, rfl⟩
  | @cons callback l callbacks labels hcallback _ ih =>
    intro exc e
    have hhead := hcallback exc e
    rw [unwind, Py.exec_bind, exec_attempt]
    generalize (callback exc).exec e = run at hhead ⊢
    obtain ⟨r, e'⟩ := run
    cases r with
    | ok swallowed =>
      obtain ⟨results, hlength, hraised, hread⟩ := ih (if swallowed then none else exc) e'
      refine ⟨.ok swallowed :: results, congrArg Nat.succ hlength, hraised, ?_⟩
      rw [List.zip_cons_cons, List.foldl_cons, ← hhead]
      exact hread
    | error x =>
      obtain ⟨results, hlength, hraised, hread⟩ := ih (some x) e'
      refine ⟨.error x :: results, congrArg Nat.succ hlength, hraised, ?_⟩
      rw [List.zip_cons_cons, List.foldl_cons, ← hhead]
      exact hread

/-! ## The client object -/

/-- `mcp.ClientSession`. -/
structure ClientSession (ε F : Type) where
  /-- `initialize`. -/
  handshake : Py ε Unit
  tools : Session ε F

/-- `streamable_http_client(url)`, and `ClientSession` over its streams. -/
structure Transport (ε κ F : Type) where
  stream : Context ε κ
  session : κ → Context ε (ClientSession ε F)

/-- `self` of an `EngineClient`, and the world its connection is in. -/
structure EngineClient (ε F : Type) where
  world : ε
  stack : Option (List (ExitCallback ε))
  sess : Option (ClientSession ε F)

namespace EngineClient

/-- `EngineClient(url)`. -/
def new (world : ε) : EngineClient ε F := ⟨world, none, none⟩

/-- A computation on the world. -/
def onWorld {α : Type} (m : Py ε α) : Py (EngineClient ε F) α := m.zoom world fun e c => { c with world := e }

/-- `self._stack.enter_async_context`. -/
def enterContext {α : Type} (cm : Context ε α) : Py (EngineClient ε F) α := do
  let a ← onWorld cm.enter
  modify fun c => { c with stack := c.stack.map (cm.exit :: ·) }
  return a

/-- `__aenter__`. -/
def aenter (t : Transport ε κ F) : Py (EngineClient ε F) Unit := do
  modify fun c => { c with stack := some [] }
  let streams ← enterContext t.stream
  let sess ← enterContext (t.session streams)
  modify fun c => { c with sess := some sess }
  onWorld sess.handshake

/-- `__aexit__`. -/
def aexit : Py (EngineClient ε F) Unit := do
  match (← get).stack with
  | none => pure ()
  | some callbacks =>
    modify fun c => { c with stack := some [] }
    onWorld (unwind callbacks none)
  modify fun c => { c with stack := none, sess := none }

/-- `async with EngineClient(url)`. -/
def inConnection {α : Type} (t : Transport ε κ F) (block : Py (EngineClient ε F) α) : Py (EngineClient ε F) α := do
  aenter t
  let r ← attempt block
  aexit
  r

/-- `self._sess` as the methods of the client use it, behind the assertion that it is there. -/
def session : Session (EngineClient ε F) F where
  callTool op args := do
    match (← get).sess with
    | none => throw ⟨.other "AssertionError", ""⟩
    | some sess => onWorld (sess.tools.callTool op args)

end EngineClient

/-- The holes, for an episode on a client object: they do not see it. -/
def Holes.onClient (holes : Holes ε F) : Holes (EngineClient ε F) F where
  fold := holes.fold
  agentLoop incidents trucks tick client := holes.agentLoop incidents trucks tick client.world

section RunEpisode

variable [Runtime F]

/-- The block of `run_episode` on its episode. The `return` is evaluated behind the block, over what it has left. -/
def episodeBlock (session : Session ε F) (holes : Holes ε F) (scenarioId : String) (seed : Option Int) (fuel : Nat) :
    Py (Episode ε F) (Option (Except Exc (Summary F))) := do
  let start ← Episode.onClient (session.startEpisode scenarioId seed)
  let runId ← start.getItem "run_id"
  match ← tickLoop session holes fuel (← start.getItem "observation") .none with
  | none => return none
  | some (obs, outcome) => return some (summarize runId obs outcome (← get))

/-- The block of `run_episode`. -/
def block (session : Session ε F) (holes : Holes ε F) (environ : String → Option String) (scenarioId : String)
    (seed : Option Int) (useLlm : Bool) (fuel : Nat) : Py ε (Option (Except Exc (Summary F))) := do
  let ep ← Episode.new environ (← get) useLlm
  (episodeBlock session holes scenarioId seed fuel).zoom (fun e => { ep with client := e }) fun ep _ => ep.client

/-- The `return` of `run_episode`; `none` when its fuel ran out. -/
def returned : Option (Except Exc (Summary F)) → Except Exc (Option (Summary F))
  | none => .ok none
  | some s => s.map some

/-- A run of an episode is its block, and the `return` behind it. -/
theorem episodeRun_eq (session : Session ε F) (holes : Holes ε F) (scenarioId : String) (seed : Option Int)
    (fuel : Nat) : episodeRun session holes scenarioId seed fuel =
      (do returned (← episodeBlock session holes scenarioId seed fuel)) := by
  unfold episodeRun episodeBlock
  simp only [bind_assoc]
  refine bind_congr fun start => bind_congr fun runId => bind_congr fun obs => bind_congr fun r => ?_
  cases r with
  | none => rfl
  | some q =>
    simp only [bind_assoc, pure_bind]
    refine bind_congr fun ep => ?_
    cases summarize runId q.1 q.2 ep <;> rfl

/-- **A run in an open session** is its block, and the `return` behind it. -/
theorem exec_runEpisode_block (session : Session ε F) (holes : Holes ε F) (environ : String → Option String)
    (scenarioId : String) (seed : Option Int) (useLlm : Bool) (fuel : Nat) (e : ε) :
    (HadrAgent.runEpisode session holes environ scenarioId seed useLlm fuel).exec e =
      let r := (block session holes environ scenarioId seed useLlm fuel).exec e
      (r.1 >>= returned, r.2) := by
  unfold HadrAgent.runEpisode block
  rw [Py.exec_bind, Py.exec_bind, Py.exec_get]
  dsimp only
  rw [Py.exec_bind, Py.exec_bind, Py.exec_lift]
  cases Episode.new environ e useLlm with
  | error x => rfl
  | ok ep =>
    dsimp only
    rw [Py.exec_zoom, Py.exec_zoom, episodeRun_eq, Py.exec_bind_lift]

/-- `run_episode`. -/
def EngineClient.runEpisode (t : Transport ε κ F) (holes : Holes ε F) (environ : String → Option String)
    (scenarioId : String) (seed : Option Int) (useLlm : Bool) (fuel : Nat) :
    Py (EngineClient ε F) (Option (Summary F)) := do
  let s ← inConnection t (block session holes.onClient environ scenarioId seed useLlm fuel)
  returned s

end RunEpisode

end HadrAgent
