import HadrAgent.Python.Value

/-!
# The engine client

`engine_client.py`: the operations of the engine over an MCP session. The session is a parameter (`Session`): its
answers are arbitrary, and a call may raise. `Session.recorded` is a session that writes down its calls.

- `exec_recorded_call`: through the client, a recorded session answers as the session does and adds the call to its
  record.
-/

namespace HadrAgent

variable {ε F : Type}

/-- What a tool of the engine answers: `isError` and `structuredContent`. -/
structure ToolResult (F : Type) where
  isError : Bool
  structuredContent : Option (Dict F)

/-- A session with the engine; `ε` is the state of the world on its other side. -/
structure Session (ε F : Type) where
  callTool (op : String) (args : Dict F) : Py ε (ToolResult F)

/-- `EngineError`. -/
structure EngineError (F : Type) where
  code : Val F
  message : Val F

/-- `structuredContent or {}`. -/
def ToolResult.content (res : ToolResult F) : Dict F := res.structuredContent.getD .empty

section Client

variable [Runtime F]

/-- The exception as `except` clauses see it. -/
def EngineError.exc (e : EngineError F) : Exc := ⟨.engineError, e.code.toStr ++ ": " ++ e.message.toStr⟩

/-- The error of a result. -/
def ToolResult.engineError (res : ToolResult F) : Except Exc (EngineError F) := do
  let err := res.content.getD "error" (.dict [])
  return ⟨← err.getD "code" (.str "ERROR"), ← err.getD "message" (.str "tool error")⟩

/-- What `_call` makes of a result. -/
def ToolResult.unwrap (res : ToolResult F) : Except Exc (Dict F) :=
  if res.isError then do throw (← res.engineError).exc else .ok res.content

namespace Session

/-- `_call`. -/
def call (session : Session ε F) (op : String) (args : Dict F) : Py ε (Dict F) := do
  let res ← session.callTool op args
  res.unwrap

/-- `list_scenarios`. -/
def listScenarios (session : Session ε F) : Py ε (Dict F) := session.call "list_scenarios" .empty

/-- The arguments of `start_episode`. -/
def startArgs (scenarioId : String) (seed : Option Int) : Dict F :=
  .ofList (("scenario_id", .str scenarioId) :: match seed with
    | some n => [("seed", .int n)]
    | none => [])

/-- `start_episode`. -/
def startEpisode (session : Session ε F) (scenarioId : String) (seed : Option Int) : Py ε (Dict F) :=
  session.call "start_episode" (startArgs scenarioId seed)

/-- `status`. -/
def status (session : Session ε F) : Py ε (Dict F) := session.call "status" .empty

/-- `building_to_coords`. -/
def buildingToCoords (session : Session ε F) (buildingId : Val F) : Py ε (Dict F) :=
  session.call "building_to_coords" (.ofList [("building_id", buildingId)])

/-- `travel_time`. -/
def travelTime (session : Session ε F) (fromSpec toSpec : Val F) : Py ε (Dict F) :=
  session.call "travel_time" (.ofList [("from", fromSpec), ("to", toSpec)])

/-- The arguments of `dispatch`. -/
def dispatchCommand (expectedTick vehicleId incidentId destination rationale : Val F) : Dict F :=
  .ofList [("expected_tick", expectedTick), ("vehicle_id", vehicleId), ("incident_id", incidentId),
    ("destination", destination), ("rationale", rationale)]

/-- `dispatch`. -/
def dispatch (session : Session ε F) (expectedTick vehicleId incidentId destination rationale : Val F) :
    Py ε (Dict F) :=
  session.call "dispatch" (dispatchCommand expectedTick vehicleId incidentId destination rationale)

/-- The arguments of `next_tick`. -/
def tickCommand (expectedTick : Val F) (tokens : Option (Val F)) : Dict F :=
  .ofList (("expected_tick", expectedTick) :: match tokens with
    | some t => [("tokens", t)]
    | none => [])

/-- `next_tick`. -/
def nextTick (session : Session ε F) (expectedTick : Val F) (tokens : Option (Val F)) : Py ε (Dict F) :=
  session.call "next_tick" (tickCommand expectedTick tokens)

end Session

/-! ## Records -/

/-- A call on the session, and what came back. -/
structure EngineCall (F : Type) where
  op : String
  args : Dict F
  result : Except Exc (ToolResult F)

namespace EngineCall

/-- What the client makes of it. -/
def answer (q : EngineCall F) : Except Exc (Dict F) := q.result >>= ToolResult.unwrap

/-- The tick a command says it is for. -/
def expectedTick (q : EngineCall F) : Option (Val F) := q.args.get? "expected_tick"

/-- Whether the call changes the engine: a dispatch or the end of a tick. -/
def isCommand (q : EngineCall F) : Bool := q.op = "dispatch" || q.op = "next_tick"

end EngineCall

namespace Session

/-- The session with a record of its calls. -/
def recorded (session : Session ε F) : Session (ε × List (EngineCall F)) F where
  callTool op args := fun p =>
    match session.callTool op args p.1 with
    | .ok res e => .ok res (e, p.2 ++ [⟨op, args, .ok res⟩])
    | .error x e => .error x (e, p.2 ++ [⟨op, args, .error x⟩])

/-- The call the record gets. -/
def entry (session : Session ε F) (op : String) (args : Dict F) (e : ε) : EngineCall F :=
  ⟨op, args, ((session.callTool op args).exec e).1⟩

/-- **A recorded call** answers as the session does, and is written down. -/
theorem exec_recorded_call (session : Session ε F) (op : String) (args : Dict F) (p : ε × List (EngineCall F)) :
    (session.recorded.call op args).exec p =
      ((session.entry op args p.1).answer,
        (((session.callTool op args).exec p.1).2, p.2 ++ [session.entry op args p.1])) := by
  have hrec : (session.recorded.callTool op args).exec p =
      (((session.callTool op args).exec p.1).1,
        (((session.callTool op args).exec p.1).2, p.2 ++ [session.entry op args p.1])) := by
    unfold Py.exec recorded entry Py.exec
    cases h : session.callTool op args p.1 <;> simp only [h]
  unfold call
  rw [Py.exec_bind, hrec]
  simp only [EngineCall.answer, entry, Py.exec_lift]
  cases ((session.callTool op args).exec p.1).1 <;> rfl

end Session

end Client

end HadrAgent
