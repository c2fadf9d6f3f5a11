import HadrAgent.Python.Value

/-!
# The incident record

The `dataclass` of `stores/incidents.py`. Nothing enforces its annotations, so every field may hold any value. A record
is read and written through the names of its fields, as `setattr` does: `get_setAll` says what a field holds after a
set of keyword arguments was written.
-/

namespace HadrAgent

/-- The fields of `Incident`, in the order of their declaration. -/
inductive Field where
  | incidentId | incidentType | coords | status | reportIds | createdTick | updatedTick | buildingId | severity
  | closeReason | notes
deriving DecidableEq

namespace Field

/-- The attribute name. -/
def name : Field → String
  | .incidentId => "incident_id"
  | .incidentType => "incident_type"
  | .coords => "coords"
  | .status => "status"
  | .reportIds => "report_ids"
  | .createdTick => "created_tick"
  | .updatedTick => "updated_tick"
  | .buildingId => "building_id"
  | .severity => "severity"
  | .closeReason => "close_reason"
  | .notes => "notes"

/-- Every field. -/
def all : List Field :=
  [.incidentId, .incidentType, .coords, .status, .reportIds, .createdTick, .updatedTick, .buildingId, .severity,
    .closeReason, .notes]

/-- The field of that name. -/
def ofName? (s : String) : Option Field := all.find? fun f => f.name = s

theorem ofName?_name : ∀ f : Field, ofName? f.name = some f := by
  intro f; cases f <;> decide

theorem name_of_ofName? {s : String} {f : Field} (h : ofName? s = some f) : f.name = s := by
  simpa using List.find?_some h

theorem name_injective : Function.Injective name := fun f g h => by
  have hf := ofName?_name f
  rwa [h, ofName?_name, Option.some.injEq, eq_comm] at hf

end Field

/-- `_FIELD_NAMES`. -/
def fieldNames : List String := Field.all.map Field.name

/-- `Incident`. -/
structure Incident (F : Type) where
  incidentId : Val F
  incidentType : Val F
  coords : Val F
  status : Val F
  reportIds : Val F
  createdTick : Val F
  updatedTick : Val F
  buildingId : Val F
  severity : Val F
  closeReason : Val F
  notes : Val F

def statusOpen : String := "open"

def statusClosed : String := "closed"

namespace Incident

variable {F : Type}

/-- `getattr`. -/
def get (i : Incident F) : Field → Val F
  | .incidentId => i.incidentId
  | .incidentType => i.incidentType
  | .coords => i.coords
  | .status => i.status
  | .reportIds => i.reportIds
  | .createdTick => i.createdTick
  | .updatedTick => i.updatedTick
  | .buildingId => i.buildingId
  | .severity => i.severity
  | .closeReason => i.closeReason
  | .notes => i.notes

/-- The record with one field replaced. -/
def set (i : Incident F) (f : Field) (v : Val F) : Incident F :=
  match f with
  | .incidentId => { i with incidentId := v }
  | .incidentType => { i with incidentType := v }
  | .coords => { i with coords := v }
  | .status => { i with status := v }
  | .reportIds => { i with reportIds := v }
  | .createdTick => { i with createdTick := v }
  | .updatedTick => { i with updatedTick := v }
  | .buildingId => { i with buildingId := v }
  | .severity => { i with severity := v }
  | .closeReason => { i with closeReason := v }
  | .notes => { i with notes := v }

/-- `setattr(i, name, value)`; a name that is no field would not touch the record. -/
def setattr (i : Incident F) (name : String) (v : Val F) : Incident F :=
  match Field.ofName? name with
  | some f => i.set f v
  | none => i

/-- `for name, value in fields.items(): setattr(i, name, value)`. -/
def setAll (i : Incident F) (fields : Dict F) : Incident F :=
  fields.items.foldl (fun i p => i.setattr p.1 p.2) i

/-- `if tick is not None: i.updated_tick = tick`. -/
def bump (i : Incident F) (tick : Val F) : Incident F := if tick.isNone then i else { i with updatedTick := tick }

/-! ## Fields after writes -/

theorem get_set (i : Incident F) (f g : Field) (v : Val F) : (i.set f v).get g = if g = f then v else i.get g := by
  cases f <;> cases g <;> rfl

theorem get_setattr (i : Incident F) (name : String) (v : Val F) (g : Field) :
    (i.setattr name v).get g = if g.name = name then v else i.get g := by
  unfold setattr
  cases h : Field.ofName? name with
  | none =>
    have hne : g.name ≠ name := fun e => by
      rw [← e, Field.ofName?_name] at h
      cases h
    rw [if_neg hne]
  | some f =>
    have hf := Field.name_of_ofName? h
    subst hf
    simp only [get_set, Field.name_injective.eq_iff]

theorem get_foldl_setattr (g : Field) : ∀ (l : List (String × Val F)) (i : Incident F), (l.map Prod.fst).Nodup →
    (l.foldl (fun i p => i.setattr p.1 p.2) i).get g = (l.lookup g.name).getD (i.get g)
  | [], _, _ => rfl
  | (k, v) :: l, i, hn => by
    obtain ⟨hk, hl⟩ := List.nodup_cons.mp hn
    rw [List.foldl_cons, get_foldl_setattr g l _ hl, get_setattr, OrdDict.lookup_cons_ite]
    by_cases e : g.name = k
    · rw [if_pos e, if_pos e, OrdDict.lookup_eq_none_iff_notMem.mpr (e ▸ hk)]
      rfl
    · rw [if_neg e, if_neg e]

/-- **Keyword arguments overwrite the fields they name** and no others. -/
theorem get_setAll (i : Incident F) (fields : Dict F) (g : Field) :
    (i.setAll fields).get g = (fields.get? g.name).getD (i.get g) := get_foldl_setattr g fields.items i fields.nodup

theorem get_bump (i : Incident F) (tick : Val F) (g : Field) :
    (i.bump tick).get g = if g = .updatedTick ∧ tick.isNone = false then tick else i.get g := by
  unfold bump
  cases h : tick.isNone with
  | true => simp
  | false => cases g <;> simp [get]

theorem updatedTick_bump (i : Incident F) (tick : Val F) :
    (i.bump tick).updatedTick = if tick.isNone then i.updatedTick else tick := by
  unfold bump
  split <;> rfl

/-- `bump` keeps every field but the tick. -/
theorem get_bump_of_ne (i : Incident F) (tick : Val F) {g : Field} (hg : g ≠ .updatedTick) :
    (i.bump tick).get g = i.get g := by
  rw [get_bump, if_neg fun h => hg h.1]

end Incident

end HadrAgent
