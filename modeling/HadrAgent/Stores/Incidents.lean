import HadrAgent.Lib.Listsort
import HadrAgent.Stores.Record

/-!
# The incident store

`stores/incidents.py`: the agent's beliefs about suspected fires, a dictionary from incident ids to mutable records and
the counter that mints ids. The store is the one of a session without a debug log (`path=None`, as the runner builds
it): `_log`, the last statement of every mutator, returns at once.

Mutators are `Py` computations: they may raise, and what they wrote before stays.
-/

namespace HadrAgent

/-- `IncidentStore` without a debug log: `_by_id` and `_seq`. -/
structure IncidentStore (F : Type) where
  byId : OrdDict String (Incident F)
  seq : Nat

/-- The id minted at counter `n`. -/
def incId (n : Nat) : String := "inc-" ++ toString n

section Store

variable {F : Type} [Runtime F]

/-- Keyword arguments that repeat a parameter of the callee do not bind. -/
def bindOwn (callee : String) (own : List String) (fields : Dict F) : Except Exc Unit :=
  match fields.keys.find? (· ∈ own) with
  | some name => .error ⟨.typeError, callee ++ "() got multiple values for argument '" ++ name ++ "'"⟩
  | none => .ok ()

/-- `_check_status`. -/
def checkStatus (status : Val F) : Except Exc Unit := do
  status.requireHash
  match status with
  | .str "open" => .ok ()
  | .str "closed" => .ok ()
  | _ => .error ⟨.valueError, "status must be one of ['closed', 'open'], got " ++ status.repr⟩

/-- The parameters of `open`, `self` included. -/
def openParams : List String := ["self", "incident_type", "coords", "tick", "building_id"]

/-- The parameters of `update`, `self` included. -/
def updateParams : List String := ["self", "incident_id", "tick"]

/-- The keyword arguments `open` passes to `Incident` itself. -/
def openFills : List String :=
  ["incident_id", "incident_type", "coords", "created_tick", "updated_tick", "building_id"]

/-- `Incident(incident_id=…, …)` with the arguments `open` passes, the other fields at their defaults. -/
def Incident.fresh (id : String) (incidentType coords tick buildingId : Val F) : Incident F where
  incidentId := .str id
  incidentType := incidentType
  coords := coords
  status := .str statusOpen
  reportIds := .list []
  createdTick := tick
  updatedTick := tick
  buildingId := buildingId
  severity := .none
  closeReason := .none
  notes := .str ""

/-- The call `Incident(incident_id=…, …, **fields)` in `open`. -/
def newIncident (id : String) (incidentType coords tick buildingId : Val F) (fields : Dict F) :
    Except Exc (Incident F) :=
  match fields.keys.find? (· ∈ openFills) with
  | some name => .error ⟨.typeError,
      "hadr_agent.stores.incidents.Incident() got multiple values for keyword argument '" ++ name ++ "'"⟩
  | none => match fields.keys.find? (· ∉ fieldNames) with
    | some name => .error ⟨.typeError, "Incident.__init__() got an unexpected keyword argument '" ++ name ++ "'"⟩
    | none => .ok ((Incident.fresh id incidentType coords tick buildingId).setAll fields)

namespace IncidentStore

/-- `IncidentStore()`. -/
def empty : IncidentStore F := ⟨.empty, 0⟩

/-- The record under a key. Keys are strings: another hashable value finds nothing. -/
def lookup (s : IncidentStore F) : Val F → Option (Incident F)
  | .str id => s.byId.get? id
  | _ => none

/-- `get`: `self._by_id.get(incident_id)`. -/
protected def get (s : IncidentStore F) (incidentId : Val F) : Except Exc (Option (Incident F)) := do
  incidentId.requireHash
  return s.lookup incidentId

/-- `all`. -/
def all (s : IncidentStore F) : List (Incident F) := s.byId.values

/-- Write a record back under its key: the object in the dictionary was mutated. -/
def put (s : IncidentStore F) (incidentId : Val F) (i : Incident F) : IncidentStore F :=
  match incidentId with
  | .str id => { s with byId := s.byId.insert id i }
  | _ => s

/-- `_require`. -/
def require (incidentId : Val F) : Py (IncidentStore F) (Incident F) := do
  match ← (← get).get incidentId with
  | some incident => return incident
  | none => throw ⟨.unknownIncidentError, incidentId.toStr⟩

/-- `open`. -/
def openIncident (incidentType coords tick buildingId : Val F) (fields : Dict F) :
    Py (IncidentStore F) (Incident F) := do
  bindOwn "IncidentStore.open" openParams fields
  if "status" ∈ fields.keys then
    throw ⟨.valueError, "open() always creates an open incident; use close() to retire one"⟩
  modify fun s => { s with seq := s.seq + 1 }
  let id := incId (← get).seq
  let incident ← newIncident id incidentType coords tick buildingId fields
  modify fun s => { s with byId := s.byId.insert id incident }
  return incident

/-- `update`. The names are checked before the first write. -/
def update (incidentId tick : Val F) (fields : Dict F) : Py (IncidentStore F) (Incident F) := do
  bindOwn "IncidentStore.update" updateParams fields
  let incident ← require incidentId
  let unknown := (fields.keys.filter (· ∉ fieldNames)).insertionSort (· ≤ ·)
  if unknown ≠ [] then
    throw ⟨.valueError, "unknown incident field(s): " ++ ", ".intercalate (unknown.map (Val.reprStr F))⟩
  match fields.get? "status" with
  | some status => checkStatus status
  | none => pure ()
  let incident := (incident.setAll fields).bump tick
  modify fun s => s.put incidentId incident
  return incident

/-- `report_ids.append(report_id)`. -/
def append (reportIds reportId : Val F) : Except Exc (Val F) :=
  match reportIds with
  | .list ids => .ok (.list (ids ++ [reportId]))
  | _ => .error ⟨.attributeError, "'" ++ reportIds.typeName ++ "' object has no attribute 'append'"⟩

/-- `link`. -/
def link (incidentId reportId tick : Val F) : Py (IncidentStore F) (Incident F) := do
  let incident ← require incidentId
  let linked ← reportId.isIn incident.reportIds
  let reportIds ← if linked then pure incident.reportIds else append incident.reportIds reportId
  let incident := { incident with reportIds := reportIds }.bump tick
  modify fun s => s.put incidentId incident
  return incident

/-- `close`. -/
def close (incidentId reason tick : Val F) : Py (IncidentStore F) (Incident F) := do
  let incident ← require incidentId
  let incident := { incident with status := .str statusClosed, closeReason := reason }.bump tick
  modify fun s => s.put incidentId incident
  return incident

/-! ## Queries -/

/-- `d <= radius` for a distance `d`. -/
def withinRadius (d : F) (radius : Val F) : Except Exc Bool :=
  match radius with
  | .float r => .ok (Runtime.le d r)
  | .int n => .ok (Runtime.leInt d n)
  | .bool b => .ok (Runtime.leInt d (if b then 1 else 0))
  | _ => .error ⟨.typeError, "'<=' not supported between instances of 'float' and '" ++ radius.typeName ++ "'"⟩

/-- The body of the loop of `find`: whether the incident is appended. -/
def selects (near radius incidentType status : Val F) (i : Incident F) : Except Exc Bool :=
  if !status.isNone && !i.status.eq status then .ok false
  else if !incidentType.isNone && !i.incidentType.eq incidentType then .ok false
  else if !near.isNone && !radius.isNone then do withinRadius (← Runtime.dist i.coords near) radius
  else .ok true

/-- The loop of `find`. -/
def collect (near radius incidentType status : Val F) : List (Incident F) → Except Exc (List (Incident F))
  | [] => .ok []
  | i :: l => do
    let keep ← selects near radius incidentType status i
    let found ← collect near radius incidentType status l
    return if keep then i :: found else found

/-- The sort keys of `find`, each with its incident. -/
def distances (near : Val F) : List (Incident F) → Except Exc (List (F × Incident F))
  | [] => .ok []
  | i :: l => do
    let d ← Runtime.dist i.coords near
    let ds ← distances near l
    return (d, i) :: ds

/-- Comparison of sort keys. -/
def nearer (p q : F × Incident F) : Bool := Runtime.lt p.1 q.1

/-- `find`. `None` is given for what the caller leaves out. -/
def find (s : IncidentStore F) (near radius incidentType status : Val F) : Except Exc (List (Incident F)) := do
  let found ← collect near radius incidentType status s.all
  if near.isNone then return found
  let keyed ← distances near found
  return (Listsort.sort nearer keyed).map Prod.snd

end IncidentStore

end Store

end HadrAgent
