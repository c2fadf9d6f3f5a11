import HadrAgent.Stores.Lifecycle

/-!
# The dispatcher's tools

`dispatch.py`: how a tool call of the model is executed. `runTool` answers every call; what a tool raises becomes the
text of an error reply. The backend behind the tools is arbitrary, and so is what the debug log of the incident store
does outside of it (`log`; `noLog` for a store without one).
-/

namespace HadrAgent

/-- `util.TokenUse`. -/
structure TokenUse where
  read : Int
  write : Int
  cacheRead : Int
deriving DecidableEq

/-- `TokenUse()`. -/
def TokenUse.zero : TokenUse := ⟨0, 0, 0⟩

/-- `add` of another `TokenUse`. -/
def TokenUse.add (t u : TokenUse) : TokenUse := ⟨t.read + u.read, t.write + u.write, t.cacheRead + u.cacheRead⟩

/-- `DispatchTools`: a backend with state `β`. -/
structure DispatchTools (β F : Type) where
  buildingToCoords (buildingId : Val F) : Py β (Dict F)
  travelTime (fromSpec toSpec : Val F) : Py β (Dict F)
  dispatch (vehicleId incidentId : Val F) (x y : F) (rationale : Val F) : Py β (Dict F)

/-- `DispatchResult`. -/
structure DispatchResult (F : Type) where
  usage : TokenUse
  dispatches : List (Dict F)
  rounds : Nat
  plan : String

/-- `DispatchResult()`. -/
def DispatchResult.empty {F : Type} : DispatchResult F := ⟨.zero, [], 0, ""⟩

/-- What the calls of one session share. -/
structure World (β F : Type) where
  incidents : IncidentStore F
  result : DispatchResult F
  backend : β

/-- What `_log` does outside of the store, and raises past its handler. -/
abbrev DebugLog (β F : Type) := IncidentStore F → Py β Unit

/-- The log of a store without a path. -/
def noLog {β F : Type} : DebugLog β F := fun _ => pure ()

section RunTool

variable {β F : Type} [Runtime F]

/-- `{"error": …}`. -/
def errorReply (text : String) : Dict F := .ofList [("error", .str text)]

/-- `{"ok": True}`. -/
def okReply : Dict F := .ofList [("ok", .bool true)]

/-- A computation on the backend. -/
def onBackend {α : Type} (m : Py β α) : Py (World β F) α := m.zoom World.backend fun b w => { w with backend := b }

/-- A mutator of the incident store; `_log` is its last statement. -/
def logged {α : Type} (log : DebugLog β F) (m : Py (IncidentStore F) α) : Py (World β F) α := do
  let a ← m.zoom World.incidents fun s w => { w with incidents := s }
  onBackend (log (← get).incidents)
  return a

/-- The arguments of `file_incident_update` that reach the store. -/
def updateFields (args : Dict F) : Dict F :=
  args.filter fun p => (p.1 = "status" || p.1 = "notes") && !p.2.isNone

/-- The tool `file_incident_update`. -/
def fileIncidentUpdate (log : DebugLog β F) (args : Dict F) (tick : Val F) : Py (World β F) (Dict F) := do
  let iid := args.getD "incident_id" (.str "")
  match ← (← get).incidents.get iid with
  | none => return errorReply ("no such incident " ++ iid.toStr)
  | some _ =>
    let fields := updateFields args
    if (fields.getD "status" .none).eq (.str "closed") then
      let notes := fields.getD "notes" .none
      let _ ← logged log (IncidentStore.close iid (if notes.truthy then notes else .str "closed by dispatch") tick)
    else
      let _ ← logged log (IncidentStore.update iid tick fields)
    return okReply

/-- An entry of `DispatchResult.dispatches`. -/
def dispatchEntry (vehicleId incidentId rationale : Val F) : Dict F :=
  .ofList [("vehicle_id", vehicleId), ("incident_id", incidentId), ("rationale", rationale)]

/-- The text that refuses an unfiled incident. -/
def unfiled (iid : Val F) : String :=
  "incident_id " ++ iid.repr ++ " is not a filed incident; open/reference a real incident before dispatching"

/-- The tool `dispatch`. -/
def dispatchTruck (tools : DispatchTools β F) (args : Dict F) : Py (World β F) (Dict F) := do
  let iid := args.getD "incident_id" (.str "")
  match ← (← get).incidents.get iid with
  | none => return errorReply (unfiled iid)
  | some _ =>
    let vehicleId ← args.getItem "vehicle_id"
    let x ← (← args.getItem "x").toFloat
    let y ← (← args.getItem "y").toFloat
    let rationale := args.getD "rationale" (.str "")
    let out ← onBackend (tools.dispatch vehicleId iid x y rationale)
    if (out.getD "accepted" .none).truthy then
      modify fun w => { w with result := { w.result with
        dispatches := w.result.dispatches ++ [dispatchEntry vehicleId iid rationale] } }
    return out

/-- `_run_tool` inside its `try`. -/
def callTool (tools : DispatchTools β F) (log : DebugLog β F) (name : String) (args : Dict F) (tick : Val F) :
    Py (World β F) (Dict F) :=
  if name = "building_to_coords" then do
    onBackend (tools.buildingToCoords (← args.getItem "building_id"))
  else if name = "travel_time" then
    onBackend (tools.travelTime (args.getD "from" (.dict [])) (args.getD "to" (.dict [])))
  else if name = "file_incident_update" then fileIncidentUpdate log args tick
  else if name = "dispatch" then dispatchTruck tools args
  else pure (errorReply ("unknown tool " ++ name))

/-- The two handlers of `_run_tool`. -/
def toolFailure (e : Exc) : Dict F :=
  match e.cls with
  | .keyError => errorReply ("missing argument " ++ e.text)
  | _ => errorReply (String.ofList (e.text.toList.take 200))

/-- `_run_tool`: the reply, and the session after it. -/
def runTool (tools : DispatchTools β F) (log : DebugLog β F) (name : String) (args : Dict F) (tick : Val F)
    (w : World β F) : Dict F × World β F :=
  match (callTool tools log name args tick).exec w with
  | (.ok reply, w) => (reply, w)
  | (.error e, w) => (toolFailure e, w)

/-- One call of a tool. -/
structure ToolCall (F : Type) where
  name : String
  args : Dict F
  tick : Val F

/-- A tool call in a session. -/
def World.step (tools : DispatchTools β F) (log : DebugLog β F) (w : World β F) (c : ToolCall F) :
    Dict F × World β F :=
  runTool tools log c.name c.args c.tick w

end RunTool

end HadrAgent
