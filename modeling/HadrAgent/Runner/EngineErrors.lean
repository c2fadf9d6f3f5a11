import HadrAgent.Runner.EngineClient

/-!
# Tool errors

"Typed helpers, raising EngineError on any tool error": `_call` navigates two levels into the reply of a failed tool
before it raises, and the second level need not be an object.

- `engineError_of_readable`, `readable_of_engineError`: when the `EngineError` can be built, and what it carries;
- `surfaces_unwrap_iff`: what `_call` makes of a result, as it is specified (`Surfaces`), is what it does make of it
  exactly if the entry of a failed tool is absent or an object (`Readable`);
- `EngineOp.surfaces_iff`: the same of each operation, in any session.
-/

namespace HadrAgent

variable {ε F : Type}

/-! ## Results -/

namespace ToolResult

/-- The `"error"` entry. -/
def errorEntry (res : ToolResult F) : Option (Val F) := res.content.get? "error"

/-- A field of the error object, when both are present. -/
def errorField (res : ToolResult F) (k : String) : Option (Val F) :=
  match res.errorEntry with
  | some (.dict items) => items.lookup k
  | _ => none

/-- The error `_call` has to raise: the fields of the error object, and defaults for the absent ones. -/
def specified (res : ToolResult F) : EngineError F where
  code := (res.errorField "code").getD (.str "ERROR")
  message := (res.errorField "message").getD (.str "tool error")

/-- The `"error"` entry has a `get`: it is absent or an object. -/
def Readable (res : ToolResult F) : Prop := ∀ v, res.errorEntry = some v → v.isDict = true

/-- What `.get("error", {})` gives. -/
theorem errorEntry_getD (res : ToolResult F) :
    res.content.getD "error" (.dict []) = res.errorEntry.getD (.dict []) := rfl

/-- An entry that is absent or an object has the two fields. -/
theorem engineError_of_readable {res : ToolResult F} (h : res.Readable) : res.engineError = .ok res.specified := by
  unfold engineError specified errorField
  rw [errorEntry_getD]
  cases he : res.errorEntry with
  | none => rfl
  | some v =>
    have hv := h v he
    cases v with
    | dict items => rfl
    | _ => exact absurd hv Bool.false_ne_true

/-- Any other entry raises on its own. -/
theorem readable_of_engineError {res : ToolResult F} {err : EngineError F} (h : res.engineError = .ok err) :
    res.Readable := by
  intro v he
  unfold engineError at h
  rw [errorEntry_getD, he] at h
  obtain ⟨code, hcode, -⟩ := Except.bind_eq_ok.mp h
  cases v with
  | dict items => rfl
  | _ => cases hcode

end ToolResult

/-! ## What an operation does -/

variable [Runtime F]

/-- The contract of an operation: it raises exactly on a tool error. The `EngineError` it builds has the fields of the
error object, and comes out. Otherwise it returns the content. -/
structure Surfaces (res : ToolResult F) (outcome : Except Exc (Dict F)) : Prop where
  raises_iff : (∃ x, outcome = .error x) ↔ res.isError = true
  raised : res.isError = true → res.engineError = .ok res.specified ∧ outcome = .error res.specified.exc
  returned : res.isError = false → outcome = .ok (res.structuredContent.getD .empty)

namespace ToolResult

theorem unwrap_of_ok {res : ToolResult F} (h : res.isError = false) : res.unwrap = .ok res.content := by
  unfold unwrap
  rw [h, if_neg Bool.false_ne_true]

theorem unwrap_of_error {res : ToolResult F} (h : res.isError = true) :
    res.unwrap = match res.engineError with
      | .ok err => .error err.exc
      | .error x => .error x := by
  unfold unwrap
  rw [if_pos h]
  cases res.engineError <;> rfl

/-- A failed tool raises something whatever its reply is. -/
theorem unwrap_raises_iff (res : ToolResult F) : (∃ x, res.unwrap = .error x) ↔ res.isError = true := by
  cases h : res.isError with
  | false =>
    rw [unwrap_of_ok h]
    refine iff_of_false ?_ Bool.false_ne_true
    rintro ⟨x, e⟩
    cases e
  | true =>
    rw [unwrap_of_error h]
    refine iff_of_true ?_ rfl
    cases res.engineError with
    | ok err => exact ⟨err.exc, rfl⟩
    | error x => exact ⟨x, rfl⟩

/-- **`_call` meets its contract** exactly when the path that reports an error meets a readable entry. -/
theorem surfaces_unwrap_iff (res : ToolResult F) :
    Surfaces res res.unwrap ↔ (res.isError = true → res.Readable) := by
  constructor
  · intro h hres
    obtain ⟨herr, -⟩ := h.raised hres
    exact readable_of_engineError herr
  · intro h
    refine ⟨unwrap_raises_iff res, ?_, unwrap_of_ok⟩
    intro hres
    have herr := engineError_of_readable (h hres)
    refine ⟨herr, ?_⟩
    rw [unwrap_of_error hres, herr]

end ToolResult

/-! ## Operations -/

/-- The operations of the client, each with its arguments. -/
inductive EngineOp (F : Type) where
  | listScenarios
  | startEpisode (scenarioId : String) (seed : Option Int)
  | status
  | buildingToCoords (buildingId : Val F)
  | travelTime (fromSpec toSpec : Val F)
  | dispatch (expectedTick vehicleId incidentId destination rationale : Val F)
  | nextTick (expectedTick : Val F) (tokens : Option (Val F))

namespace EngineOp

/-- The operation, in a session. -/
def run (session : Session ε F) : EngineOp F → Py ε (Dict F)
  | .listScenarios => session.listScenarios
  | .startEpisode scenarioId seed => session.startEpisode scenarioId seed
  | .status => session.status
  | .buildingToCoords buildingId => session.buildingToCoords buildingId
  | .travelTime fromSpec toSpec => session.travelTime fromSpec toSpec
  | .dispatch expectedTick vehicleId incidentId destination rationale =>
    session.dispatch expectedTick vehicleId incidentId destination rationale
  | .nextTick expectedTick tokens => session.nextTick expectedTick tokens

/-- The tool it calls. -/
def tool : EngineOp F → String
  | .listScenarios => "list_scenarios"
  | .startEpisode .. => "start_episode"
  | .status => "status"
  | .buildingToCoords .. => "building_to_coords"
  | .travelTime .. => "travel_time"
  | .dispatch .. => "dispatch"
  | .nextTick .. => "next_tick"

/-- The arguments it calls the tool with. -/
def args : EngineOp F → Dict F
  | .listScenarios => .empty
  | .startEpisode scenarioId seed => Session.startArgs scenarioId seed
  | .status => .empty
  | .buildingToCoords buildingId => .ofList [("building_id", buildingId)]
  | .travelTime fromSpec toSpec => .ofList [("from", fromSpec), ("to", toSpec)]
  | .dispatch expectedTick vehicleId incidentId destination rationale =>
    Session.dispatchCommand expectedTick vehicleId incidentId destination rationale
  | .nextTick expectedTick tokens => Session.tickCommand expectedTick tokens

/-- Every operation goes through `_call`. -/
theorem run_eq_call (session : Session ε F) (op : EngineOp F) : op.run session = session.call op.tool op.args := by
  cases op <;> rfl

/-- What an operation does with the result of its tool. -/
theorem exec_run {session : Session ε F} {op : EngineOp F} {res : ToolResult F} {e e' : ε}
    (h : (session.callTool op.tool op.args).exec e = (.ok res, e')) :
    (op.run session).exec e = (res.unwrap, e') := by
  rw [run_eq_call]
  unfold Session.call
  rw [Py.exec_bind, h]
  exact Py.exec_lift res.unwrap e'

/-- **An operation surfaces a tool error as an `EngineError`** exactly when the error entry of the reply, if there is
one, is an object. -/
theorem surfaces_iff {session : Session ε F} {op : EngineOp F} {res : ToolResult F} {e e' : ε}
    (h : (session.callTool op.tool op.args).exec e = (.ok res, e')) :
    Surfaces res ((op.run session).exec e).1 ↔
      (res.isError = true → ∀ v, res.content.get? "error" = some v → v.isDict = true) := by
  rw [exec_run h]
  exact res.surfaces_unwrap_iff

end EngineOp

/-! ## A reply with a text for an error -/

/-- A session in which every tool answers the same. -/
def Session.constant (res : ToolResult F) : Session Unit F where
  callTool _ _ := pure res

/-- A failed tool that puts its message where the error object belongs. -/
def textError : ToolResult Whole := ⟨true, some (.ofList [("error", .str "boom")])⟩

/-- The contract of `list_scenarios` on it: what comes out is an `AttributeError`. -/
theorem not_surfaces_textError :
    ¬ Surfaces textError (((EngineOp.listScenarios : EngineOp Whole).run (.constant textError)).exec ()).1 := by
  intro h
  obtain ⟨herr, -⟩ := h.raised rfl
  have hread := ToolResult.readable_of_engineError herr
  exact absurd (hread (.str "boom") rfl) Bool.false_ne_true

/-- A failed tool with an error object that has no message. -/
def codeError : ToolResult Whole := ⟨true, some (.ofList [("error", .dict [("code", .str "STALE_TICK")])])⟩

theorem surfaces_codeError :
    Surfaces codeError (((EngineOp.status : EngineOp Whole).run (.constant codeError)).exec ()).1 :=
  (EngineOp.surfaces_iff rfl).mpr fun _ v hv => by
    cases hv
    rfl

end HadrAgent
