import HadrAgent.Lib.FirstOcc
import HadrAgent.Lib.Runs
import HadrAgent.Python.Value

/-!
# The report store

`stores/reports.py`: extracted evidence, one row per contact, never changed after it was added. The store is a
dictionary without a debug log; what it means is a log of everything added, of which it shows the first row of each
contact (`Logs`). Every `add` keeps the two together (`Logs.add`), so the rows are append-only (`evidence_of_run`).
-/

namespace HadrAgent

/-- `Report`. -/
structure Report (F : Type) where
  contactId : String
  reportedLocation : Val F
  incidentType : Val F
  coords : Val F
  tick : Val F
  notes : Val F

/-- `ReportStore` without a debug log. -/
structure ReportStore (F : Type) where
  byId : OrdDict String (Report F)

namespace ReportStore

variable {F : Type}

/-- `ReportStore()`. -/
def empty : ReportStore F := ⟨.empty⟩

/-- `add`: a row of a known contact is ignored, and the stored one returned. -/
def add (s : ReportStore F) (report : Report F) : Report F × ReportStore F :=
  match s.byId.get? report.contactId with
  | some existing => (existing, s)
  | none => (report, ⟨s.byId.insert report.contactId report⟩)

/-- `get`. -/
protected def get (s : ReportStore F) (contactId : String) : Option (Report F) := s.byId.get? contactId

/-- `all`. -/
def all (s : ReportStore F) : List (Report F) := s.byId.values

/-! ## The log -/

/-- The store shows of everything added the first row of each contact. -/
def Logs (s : ReportStore F) (added : List (Report F)) : Prop :=
  s.byId.items = (firstOcc Report.contactId added).map fun r => (r.contactId, r)

namespace Logs

variable {s : ReportStore F} {added : List (Report F)}

theorem empty : (empty : ReportStore F).Logs [] := rfl

theorem all_eq (h : s.Logs added) : s.all = firstOcc Report.contactId added := by
  show s.byId.items.map Prod.snd = _
  rw [h, List.map_map]
  exact List.map_id _

theorem mem_keys (h : s.Logs added) {contactId : String} :
    contactId ∈ s.byId.keys ↔ contactId ∈ added.map Report.contactId := by
  rw [← mem_map_firstOcc]
  show contactId ∈ s.byId.items.map Prod.fst ↔ _
  rw [h, List.map_map]
  rfl

/-- Looking up a contact finds the first row added for it. -/
theorem get_eq (h : s.Logs added) (contactId : String) :
    s.get contactId = added.find? fun r => r.contactId = contactId := by
  rw [← find?_firstOcc]
  show s.byId.items.lookup contactId = _
  rw [h]
  induction firstOcc Report.contactId added with
  | nil => rfl
  | cons r l ih =>
    rw [List.map_cons, OrdDict.lookup_cons_ite, List.find?_cons, ih]
    by_cases e : r.contactId = contactId
    · simp [e]
    · simp [e, Ne.symm e]

/-- **One `add`**: the log grows by the row, and the stored row of its contact is returned. -/
theorem add (h : s.Logs added) (report : Report F) :
    (s.add report).2.Logs (added ++ [report]) ∧
      some (s.add report).1 = (added ++ [report]).find? fun r => r.contactId = report.contactId := by
  have hget : s.byId.get? report.contactId = added.find? fun r => r.contactId = report.contactId :=
    h.get_eq report.contactId
  unfold ReportStore.add
  rw [List.find?_append, ← hget]
  cases hf : s.byId.get? report.contactId with
  | some existing =>
    have hk := h.mem_keys.mp (OrdDict.mem_keys_of_get? hf)
    refine ⟨?_, rfl⟩
    rw [Logs, firstOcc_append_singleton, if_pos hk]
    exact h
  | none =>
    have hk := OrdDict.get?_eq_none.mp hf
    refine ⟨?_, by simp⟩
    rw [Logs, firstOcc_append_singleton, if_neg (mt h.mem_keys.mpr hk), List.map_append, ← h]
    exact OrdDict.items_insert_of_notMem hk report

end Logs

/-- What the `add`s of a run return: for each row the first one added for its contact. -/
theorem logs_run (reports : List (Report F)) : ∀ {s : ReportStore F} {added : List (Report F)}, s.Logs added →
    (Runs.final ReportStore.add s reports).Logs (added ++ reports) ∧
      (Runs.answers ReportStore.add s reports).map some =
        reports.map fun r => (added ++ reports).find? fun r' => r'.contactId = r.contactId := by
  induction reports with
  | nil => intro s added h; simpa using h
  | cons r reports ih =>
    intro s added h
    obtain ⟨hl, ha⟩ := h.add r
    obtain ⟨hl', ha'⟩ := ih hl
    rw [List.append_assoc] at hl' ha'
    refine ⟨hl', ?_⟩
    -- the row returned is found in the log so far, so what is added later does not matter
    have hr : (added ++ [r] ++ reports).find? (fun r' => r'.contactId = r.contactId) = some (s.add r).1 := by
      rw [List.find?_append, ← ha]
      rfl
    rw [Runs.answers_cons, List.map_cons, List.map_cons, ha', ← hr, List.append_assoc]
    rfl

/-- The store after `add`s on a new one. -/
def after (reports : List (Report F)) : ReportStore F := Runs.final ReportStore.add empty reports

/-- **Append-only evidence**, over every run of `add`s on a new store. -/
theorem evidence_of_run (reports : List (Report F)) :
    (after reports).all = firstOcc Report.contactId reports ∧
    (∀ contactId, (after reports).get contactId = reports.find? fun r => r.contactId = contactId) ∧
    (Runs.answers ReportStore.add empty reports).map some =
      reports.map (fun r => reports.find? fun r' => r'.contactId = r.contactId) ∧
    ∀ earlier, earlier <+: reports → (after earlier).all <+: (after reports).all := by
  have hlogs : ∀ l : List (Report F), (after l).Logs l := fun l => (logs_run l Logs.empty).1
  refine ⟨(hlogs reports).all_eq, (hlogs reports).get_eq, by simpa using (logs_run reports Logs.empty).2, ?_⟩
  intro earlier h
  rw [(hlogs earlier).all_eq, (hlogs reports).all_eq]
  exact firstOcc_prefix h

end ReportStore

end HadrAgent
