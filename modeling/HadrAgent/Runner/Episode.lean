import Mathlib.Data.Finset.Insert
import HadrAgent.Dispatch.AgentLoop
import HadrAgent.Runner.EngineClient
import HadrAgent.Stores.Reports

/-!
# The runner

`runner.py`: the state of an episode, its tools for the dispatcher, one tick, and the tick loop. What the stages leave
in the stores, and the agent loop, are parameters (`Holes`); `Holes.shipped` is what ships. Rounds of the tick loop are
bounded by a fuel.
-/

namespace HadrAgent

variable {ε F : Type}

/-! ## Model clients -/

/-- An OpenAI client, as far as it is configured here. -/
structure LlmClient where
  baseUrl : String
  apiKey : String

/-- `env` of `util.client`: the prefixed variable wins, unless it is empty. -/
def roleEnv (environ : String → Option String) (role name : String) : Option String :=
  ((environ (role ++ name)).filter (· ≠ "")).or (environ name)

/-- `util.client`. -/
def llmClient (environ : String → Option String) (role : String) : Except Exc LlmClient :=
  match (roleEnv environ role "OPENAI_KEY").filter (· ≠ "") with
  | none => .error ⟨.other "RuntimeError", "OPENAI_KEY not set (load .env)"⟩
  | some key => .ok ⟨(roleEnv environ role "OPENAI_BASE_URL").getD "https://opencode.ai/zen/go/v1", key⟩

/-! ## Episodes -/

/-- A value up to equality: what a set or a dictionary keeps of its keys. -/
abbrev Key (F : Type) := List (Val.Token F)

/-- `Episode`. The client is the state behind its session. -/
structure Episode (ε F : Type) where
  client : ε
  useLlm : Bool
  tick : Val F
  incidents : IncidentStore F
  reports : ReportStore F
  seen : Finset (Key F)
  intakeTokens : TokenUse
  dispatchTokens : TokenUse
  intakeLlm : Option LlmClient
  dispatchLlm : Option LlmClient
  coordsCache : OrdDict (Key F) (Val F × Val F)

/-- The two lists a tick sorts its contacts into. -/
structure Routed (F : Type) where
  newHuman : List (Val F)
  observations : List (Val F)

/-- What fills the holes, as far as it is modelled: what intake and reconciliation leave in the stores on a tick (they
ask the engine nothing here, raise nothing and report no tokens), and the agent loop with the message it reasons
over. -/
structure Holes (ε F : Type) where
  fold (routed : Routed F) (tick : Val F) (stores : IncidentStore F × ReportStore F) : IncidentStore F × ReportStore F
  agentLoop (incidents : IncidentStore F) (trucks tick : Val F) (world : ε) : AgentLoop F

/-- The holes as they ship: nothing is folded, and the message is not implemented. -/
def Holes.shipped : Holes ε F where
  fold _ _ stores := stores
  agentLoop _ _ _ _ := .raise ⟨.other "NotImplementedError", "stage 1/4: build the dispatch state message"⟩

namespace Episode

/-- The fields that `Episode(client, use_llm)` fills with their defaults. -/
def fresh (client : ε) (useLlm : Bool) (intakeLlm dispatchLlm : Option LlmClient) : Episode ε F where
  client := client
  useLlm := useLlm
  tick := .int 0
  incidents := .empty
  reports := .empty
  seen := ∅
  intakeTokens := .zero
  dispatchTokens := .zero
  intakeLlm := intakeLlm
  dispatchLlm := dispatchLlm
  coordsCache := .empty

/-- `Episode(client, use_llm)`. -/
def new (environ : String → Option String) (client : ε) (useLlm : Bool) : Except Exc (Episode ε F) :=
  if useLlm then do
    let intakeLlm ← llmClient environ "INTAKE_"
    let dispatchLlm ← llmClient environ "DISPATCH_"
    return fresh client useLlm (some intakeLlm) (some dispatchLlm)
  else .ok (fresh client useLlm none none)

/-- The totals of a role. -/
def tokenEntry (t : TokenUse) : Val F :=
  .dict [("read", .int t.read), ("write", .int t.write), ("cache_read", .int t.cacheRead)]

/-- `token_report`. -/
def tokenReport (ep : Episode ε F) : Val F :=
  .dict [("intake", tokenEntry ep.intakeTokens), ("dispatch", tokenEntry ep.dispatchTokens)]

/-- A computation on the client. -/
def onClient {α : Type} (m : Py ε α) : Py (Episode ε F) α := m.zoom Episode.client fun e ep => { ep with client := e }

/-- A session of the dispatcher: on the store of the episode, with the episode as its tools. -/
def inSession {α : Type} (m : Py (World (Episode ε F) F) α) : Py (Episode ε F) α :=
  m.zoom (fun ep => ⟨ep.incidents, .empty, ep⟩) fun w _ => { w.backend with incidents := w.incidents }

section Tools

variable [Runtime F]

/-- `coords_of`. -/
def coordsOf (session : Session ε F) (buildingId : Val F) : Py (Episode ε F) (Val F × Val F) := do
  buildingId.requireHash
  match (← get).coordsCache.get? buildingId.tokens with
  | some point => return point
  | none =>
    let r ← onClient (session.buildingToCoords buildingId)
    let p ← r.getItem "point"
    let point := (← p.getItem "x", ← p.getItem "y")
    modify fun ep => { ep with coordsCache := ep.coordsCache.insert buildingId.tokens point }
    return point

/-- The tools of the dispatcher: `building_to_coords`, `travel_time` and `dispatch`. -/
def tools (session : Session ε F) : DispatchTools (Episode ε F) F where
  buildingToCoords buildingId := do
    let (x, y) ← coordsOf session buildingId
    return .ofList [("x", x), ("y", y)]
  travelTime fromSpec toSpec := do
    let r ← onClient (session.travelTime fromSpec toSpec)
    return .ofList [("eta_ticks", r.getD "eta_ticks" .none), ("distance", r.getD "distance" .none)]
  dispatch vehicleId incidentId x y rationale := do
    let destination : Val F := .dict [("x", .float x), ("y", .float y)]
    let r ← onClient (session.dispatch (← get).tick vehicleId incidentId destination rationale)
    return .ofList [("accepted", .bool (r.getD "accepted" .none).truthy)]

end Tools

/-! ## One tick -/

section Tick

variable [Runtime F]

/-- The body of the loop over the contacts. -/
def routeContact (routed : Routed F) (c : Val F) : Py (Episode ε F) (Routed F) := do
  let contactId ← c.getItem "contact_id"
  contactId.requireHash
  if contactId.tokens ∈ (← get).seen then return routed
  else
    modify fun ep => { ep with seen := insert contactId.tokens ep.seen }
    if (← c.getD "payload_type" .none).eq (.str "truck_observation") then
      return { routed with observations := routed.observations ++ [← c.getItem "payload"] }
    else return { routed with newHuman := routed.newHuman ++ [c] }

/-- The loop over the contacts. -/
def routeContacts (routed : Routed F) : List (Val F) → Py (Episode ε F) (Routed F)
  | [] => pure routed
  | c :: contacts => do routeContacts (← routeContact routed c) contacts

/-- `_process_tick` up to its holes: the tick, and the two lists. -/
def passthrough (obs : Val F) : Py (Episode ε F) (Val F × Routed F) := do
  let tick ← obs.getItem "tick"
  modify fun ep => { ep with tick := tick }
  let contacts ← (← obs.getD "contacts" (.list [])).iter
  let routed ← routeContacts ⟨[], []⟩ contacts
  return (tick, routed)

/-- The holes of intake and reconciliation. -/
def foldReports (holes : Holes ε F) (routed : Routed F) (tick : Val F) : Py (Episode ε F) PUnit :=
  modify fun ep =>
    let stores := holes.fold routed tick (ep.incidents, ep.reports)
    { ep with incidents := stores.1, reports := stores.2 }

/-- `assert ep.dispatch_llm`. -/
def assertClient (ep : Episode ε F) : Except Exc Unit :=
  if ep.dispatchLlm.isNone then .error ⟨.other "AssertionError", ""⟩ else .ok ()

/-- The dispatch of a tick. -/
def dispatchTick (session : Session ε F) (holes : Holes ε F) (obs tick : Val F) : Py (Episode ε F) PUnit := do
  (← get).assertClient
  let trucks ← obs.getD "vehicles" (.list [])
  let ep ← get
  let loop := holes.agentLoop ep.incidents trucks tick ep.client
  let result ← inSession (runDispatch (tools session) noLog loop tick)
  modify fun ep => { ep with dispatchTokens := ep.dispatchTokens.add result.usage }

/-- `_process_tick` from its holes on. -/
def runHoles (session : Session ε F) (holes : Holes ε F) (obs tick : Val F) (routed : Routed F) :
    Py (Episode ε F) PUnit := do
  foldReports holes routed tick
  if (← get).useLlm then dispatchTick session holes obs tick

/-- `_process_tick`. -/
def processTick (session : Session ε F) (holes : Holes ε F) (obs : Val F) : Py (Episode ε F) PUnit := do
  let (tick, routed) ← passthrough obs
  runHoles session holes obs tick routed

end Tick

end Episode

/-! ## The tick loop -/

section RunEpisode

variable [Runtime F]

/-- What `run_episode` returns. -/
structure Summary (F : Type) where
  runId : Val F
  terminalReason : Val F
  tick : Val F
  casualties : Val F
  buildingsLost : Val F
  intakeTokens : TokenUse
  dispatchTokens : TokenUse

/-- `obs["lifecycle"] == "running"`. -/
def isRunning (obs : Val F) : Except Exc Bool := do return (← obs.getItem "lifecycle").eq (.str "running")

/-- The `while` loop: the last observation and the last outcome, unless the fuel runs out before. -/
def tickLoop (session : Session ε F) (holes : Holes ε F) :
    Nat → Val F → Val F → Py (Episode ε F) (Option (Val F × Val F))
  | 0, _, _ => pure none
  | fuel + 1, obs, outcome => do
    if ← isRunning obs then
      Episode.processTick session holes obs
      let expectedTick ← obs.getItem "tick"
      let tokens := (← get).tokenReport
      let res ← Episode.onClient (session.nextTick expectedTick (some tokens))
      tickLoop session holes fuel (← res.getItem "observation") (res.getD "outcome" .none)
    else return some (obs, outcome)

/-- `(outcome or {}).get(k)`. -/
def outcomeField (outcome : Val F) (k : String) : Except Exc (Val F) :=
  (if outcome.truthy then outcome else .dict []).getD k .none

/-- The summary, from the last observation and the last outcome. -/
def summarize (runId obs outcome : Val F) (ep : Episode ε F) : Except Exc (Summary F) := do
  return {
    runId := runId
    terminalReason := ← obs.getD "terminal_reason" .none
    tick := ← obs.getItem "tick"
    casualties := ← outcomeField outcome "casualties"
    buildingsLost := ← outcomeField outcome "buildings_lost"
    intakeTokens := ep.intakeTokens
    dispatchTokens := ep.dispatchTokens }

/-- `run_episode` on its episode. -/
def episodeRun (session : Session ε F) (holes : Holes ε F) (scenarioId : String) (seed : Option Int) (fuel : Nat) :
    Py (Episode ε F) (Option (Summary F)) := do
  let start ← Episode.onClient (session.startEpisode scenarioId seed)
  let runId ← start.getItem "run_id"
  match ← tickLoop session holes fuel (← start.getItem "observation") .none with
  | none => return none
  | some (obs, outcome) => return some (← summarize runId obs outcome (← get))

/-- `run_episode` in an open session; `none` when its fuel ran out. -/
def runEpisode (session : Session ε F) (holes : Holes ε F) (environ : String → Option String) (scenarioId : String)
    (seed : Option Int) (useLlm : Bool) (fuel : Nat) : Py ε (Option (Summary F)) := do
  let ep ← Episode.new environ (← get) useLlm
  (episodeRun session holes scenarioId seed fuel).zoom (fun e => { ep with client := e }) fun ep _ => ep.client

end RunEpisode

end HadrAgent
