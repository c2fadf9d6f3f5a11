import Mathlib.Logic.Function.Basic
import HadrAgent.Lib.Refinement
import HadrAgent.Stores.IncidentCalls

/-!
# The incident store with its objects

In `stores/incidents.py` the dictionary holds objects: a call returns the object and not a copy of it, and `link`
appends to the list object that the field holds, which may be one the caller handed in. Here objects have addresses
(`Memory`); the store over values (`IncidentStore`) is what one sees of it (`ObjectStore.abs`).

A list is an object where a field holds it. What is inside of another value is a value: no method writes there.
-/

namespace HadrAgent

variable {F : Type}

/-- `isinstance(v, list)`. -/
def Val.isList : Val F → Bool
  | .list _ => true
  | _ => false

/-- What a field holds, or an argument is: a list object, or a value that is none. -/
inductive Ref (F : Type) where
  | list (address : Nat)
  | value (v : Val F) (h : v.isList = false)

/-- A string. -/
def Ref.str (s : String) : Ref F := .value (.str s) rfl

/-- `r is None`. -/
def Ref.isNone : Ref F → Bool
  | list _ => false
  | value v _ => v.isNone

/-- The attributes of an `Incident` object. -/
abbrev Attributes (F : Type) := Field → Ref F

namespace Attributes

/-- `setattr`. -/
def setattr (o : Attributes F) (name : String) (r : Ref F) : Attributes F :=
  match Field.ofName? name with
  | some f => Function.update o f r
  | none => o

/-- `for name, value in fields.items(): setattr(incident, name, value)`. -/
def setAll (o : Attributes F) (fields : OrdDict String (Ref F)) : Attributes F :=
  fields.items.foldl (fun o p => o.setattr p.1 p.2) o

/-- `if tick is not None: incident.updated_tick = tick`. -/
def bump (o : Attributes F) (tick : Ref F) : Attributes F :=
  if tick.isNone then o else Function.update o .updatedTick tick

/-- The attributes `Incident(…)` begins with. -/
def fresh (id : String) (incidentType coords tick buildingId reportIds : Ref F) : Attributes F
  | .incidentId => .str id
  | .incidentType => incidentType
  | .coords => coords
  | .status => .str statusOpen
  | .reportIds => reportIds
  | .createdTick => tick
  | .updatedTick => tick
  | .buildingId => buildingId
  | .severity => .value .none rfl
  | .closeReason => .value .none rfl
  | .notes => .str ""

end Attributes

/-! ## Memory -/

/-- The objects, by their addresses; addresses from the counts on are free. -/
structure Memory (F : Type) where
  incidents : Nat → Attributes F
  lists : Nat → List (Val F)
  incidentCount : Nat
  listCount : Nat

/-- The record with these fields. -/
def Incident.ofFields (v : Field → Val F) : Incident F where
  incidentId := v .incidentId
  incidentType := v .incidentType
  coords := v .coords
  status := v .status
  reportIds := v .reportIds
  createdTick := v .createdTick
  updatedTick := v .updatedTick
  buildingId := v .buildingId
  severity := v .severity
  closeReason := v .closeReason
  notes := v .notes

namespace Memory

/-- The value one sees. -/
def read (m : Memory F) : Ref F → Val F
  | .list address => .list (m.lists address)
  | .value v _ => v

/-- The record one sees at an address. -/
def look (m : Memory F) (address : Nat) : Incident F := Incident.ofFields fun f => m.read (m.incidents address f)

/-- Write the attributes of an object. -/
def write (m : Memory F) (address : Nat) (o : Attributes F) : Memory F :=
  { m with incidents := Function.update m.incidents address o }

/-- `reportIds.append(reportId)`. -/
def append (m : Memory F) (reportIds : Ref F) (reportId : Val F) : Except Exc (Memory F) :=
  match reportIds with
  | .list address => .ok { m with lists := Function.update m.lists address (m.lists address ++ [reportId]) }
  | .value v _ => .error ⟨.attributeError, "'" ++ v.typeName ++ "' object has no attribute 'append'"⟩

/-- `report_ids` of a new object: what is given, or a new list. -/
def reportIds (m : Memory F) (fields : OrdDict String (Ref F)) : Ref F × Memory F :=
  match fields.get? "report_ids" with
  | some r => (r, m)
  | none => (.list m.listCount,
      { m with lists := Function.update m.lists m.listCount [], listCount := m.listCount + 1 })

/-- `Incident(incident_id=…, …, **fields)`, where its arguments bind. -/
def newIncident (m : Memory F) (id : String) (incidentType coords tick buildingId : Ref F)
    (fields : OrdDict String (Ref F)) : Nat × Memory F :=
  let p := m.reportIds fields
  let o := (Attributes.fresh id incidentType coords tick buildingId p.1).setAll fields
  (m.incidentCount, { p.2.write m.incidentCount o with incidentCount := m.incidentCount + 1 })

end Memory

/-! ## The store -/

/-- `IncidentStore` without a debug log, in the memory it shares with its callers. -/
structure ObjectStore (F : Type) where
  byId : OrdDict String Nat
  seq : Nat
  memory : Memory F

namespace ObjectStore

/-- `IncidentStore()`. -/
def new (m : Memory F) : ObjectStore F := ⟨.empty, 0, m⟩

/-- The object under a key. -/
def addressOf (s : ObjectStore F) : Val F → Option Nat
  | .str id => s.byId.get? id
  | _ => none

variable [Runtime F]

/-- `get`. -/
protected def get (s : ObjectStore F) (incidentId : Ref F) : Except Exc (Option Nat) := do
  (s.memory.read incidentId).requireHash
  return s.addressOf (s.memory.read incidentId)

/-- `_require`. -/
def require (incidentId : Ref F) : Py (ObjectStore F) Nat := do
  let s ← get
  match ← s.get incidentId with
  | some incident => return incident
  | none => throw ⟨.unknownIncidentError, (s.memory.read incidentId).toStr⟩

/-- `open`. -/
def openIncident (incidentType coords tick buildingId : Ref F) (fields : OrdDict String (Ref F)) :
    Py (ObjectStore F) Nat := do
  let given := fields.map (← get).memory.read
  bindOwn "IncidentStore.open" openParams given
  if "status" ∈ fields.keys then
    throw ⟨.valueError, "open() always creates an open incident; use close() to retire one"⟩
  modify fun s => { s with seq := s.seq + 1 }
  let s ← get
  let id := incId s.seq
  -- only whether the arguments bind is of interest here
  let _ ← HadrAgent.newIncident id .none .none .none .none given
  let (incident, memory) := s.memory.newIncident id incidentType coords tick buildingId fields
  modify fun s => { s with byId := s.byId.insert id incident, memory := memory }
  return incident

/-- `update`. -/
def update (incidentId tick : Ref F) (fields : OrdDict String (Ref F)) : Py (ObjectStore F) Nat := do
  bindOwn "IncidentStore.update" updateParams (fields.map (← get).memory.read)
  let incident ← require incidentId
  let unknown := (fields.keys.filter (· ∉ fieldNames)).insertionSort (· ≤ ·)
  if unknown ≠ [] then
    throw ⟨.valueError, "unknown incident field(s): " ++ ", ".intercalate (unknown.map (Val.reprStr F))⟩
  let m := (← get).memory
  match fields.get? "status" with
  | some status => checkStatus (m.read status)
  | none => pure ()
  modify fun s => { s with memory := m.write incident (((m.incidents incident).setAll fields).bump tick) }
  return incident

/-- `link`. -/
def link (incidentId : Ref F) (reportId : Val F) (tick : Ref F) : Py (ObjectStore F) Nat := do
  let incident ← require incidentId
  let m := (← get).memory
  let reportIds := m.incidents incident .reportIds
  let linked ← reportId.isIn (m.read reportIds)
  let m ← if linked then pure m else m.append reportIds reportId
  modify fun s => { s with memory := m.write incident ((m.incidents incident).bump tick) }
  return incident

/-- `close`. -/
def close (incidentId reason tick : Ref F) : Py (ObjectStore F) Nat := do
  let incident ← require incidentId
  let m := (← get).memory
  let o : Attributes F := Function.update (m.incidents incident) .status (.str statusClosed)
  let o : Attributes F := Function.update o .closeReason reason
  modify fun s => { s with memory := m.write incident (o.bump tick) }
  return incident

end ObjectStore

/-- A call of a mutator on objects. -/
inductive ObjectCall (F : Type) where
  | openIncident (incidentType coords tick buildingId : Ref F) (fields : OrdDict String (Ref F))
  | update (incidentId tick : Ref F) (fields : OrdDict String (Ref F))
  | link (incidentId : Ref F) (reportId : Val F) (tick : Ref F)
  | close (incidentId reason tick : Ref F)

namespace ObjectCall

/-- The call on values that it is, where it is made. -/
def seen (m : Memory F) : ObjectCall F → IncidentCall F
  | openIncident incidentType coords tick buildingId fields =>
    .openIncident (m.read incidentType) (m.read coords) (m.read tick) (m.read buildingId) (fields.map m.read)
  | update incidentId tick fields => .update (m.read incidentId) (m.read tick) (fields.map m.read)
  | link incidentId reportId tick => .link (m.read incidentId) reportId (m.read tick)
  | close incidentId reason tick => .close (m.read incidentId) (m.read reason) (m.read tick)

/-- The method called. -/
def method [Runtime F] : ObjectCall F → Py (ObjectStore F) Nat
  | openIncident incidentType coords tick buildingId fields =>
    ObjectStore.openIncident incidentType coords tick buildingId fields
  | update incidentId tick fields => ObjectStore.update incidentId tick fields
  | link incidentId reportId tick => ObjectStore.link incidentId reportId tick
  | close incidentId reason tick => ObjectStore.close incidentId reason tick

end ObjectCall

namespace ObjectStore

/-- One call: its outcome and the store after it. -/
def step [Runtime F] (s : ObjectStore F) (c : ObjectCall F) : Except Exc Nat × ObjectStore F := c.method.exec s

/-- The store one sees. -/
def abs (s : ObjectStore F) : IncidentStore F := ⟨s.byId.map s.memory.look, s.seq⟩

end ObjectStore

end HadrAgent
