import HadrAgent.Python.JsonDumps
import HadrAgent.Stores.LogMirror

/-!
# The log reads back

`_log` writes its file whole each time, so one write that works makes up for all that failed before it: until the next
mutator that logs, the file is a JSON text of the rows of `all()` and of nothing else (`log_reads_back`). Of a value it
keeps what `json.dumps(…, default=str)` does: a tuple reads back as a list, an object as the text `str` gives.
-/

namespace HadrAgent

variable {F ω : Type}

/-! ## Rows -/

theorem Json.plainList_eq_map (xs : List (Val F)) : plainList xs = xs.map plain := by
  induction xs with
  | nil => rfl
  | cons x xs ih => exact congrArg (plain x :: ·) ih

theorem Json.plainDict_eq_map (items : List (String × Val F)) :
    plainDict items = items.map fun p => (p.1, plain p.2) := by
  induction items with
  | nil => rfl
  | cons item items ih => exact congrArg ((item.1, plain item.2) :: ·) ih

/-- What the rows of a log read back as. -/
def readRows (rows : List (Row F)) : Val F :=
  .list (rows.map fun row => .dict (row.map fun p => (p.1, Json.plain p.2)))

theorem plain_dict {row : Row F} (h : (row.map Prod.fst).Nodup) :
    Json.plain (.dict row) = .dict (row.map fun p => (p.1, Json.plain p.2)) := by
  have hnames : ((Json.plainDict row).map Prod.fst).Nodup := by
    rw [Json.plainDict_eq_map, List.map_map]
    exact h
  show Val.dict (OrdDict.ofList (Json.plainDict row)).items = _
  rw [OrdDict.items_ofList hnames, Json.plainDict_eq_map]

theorem nodup_incidentRow (i : Incident F) : (i.row.map Prod.fst).Nodup := by
  have hnames : i.row.map Prod.fst = Field.all.map Field.name := by
    unfold Incident.row
    rw [List.map_map]
    rfl
  rw [hnames]
  decide

theorem nodup_reportRow (r : Report F) : (r.row.map Prod.fst).Nodup := by
  have hnames : r.row.map Prod.fst =
      ["contact_id", "reported_location", "incident_type", "coords", "tick", "notes"] := rfl
  rw [hnames]
  decide

variable [Runtime F] {file : ω → String → Option String} {floatRepr : F → String}

/-- The file is a JSON text of the rows, and of nothing else. -/
def ReadsBack (file : ω → String → Option String) (path : String) (w : ω) (rows : List (Row F)) : Prop :=
  ∃ text, file w path = some text ∧ ∀ v, Json.Text text v ↔ v = readRows rows

/-- The text of rows with different names is read as those rows. -/
theorem text_logText_iff (hfloats : Json.FloatTexts floatRepr) {rows : List (Row F)}
    (h : ∀ row ∈ rows, (row.map Prod.fst).Nodup) (v : Val F) :
    Json.Text (logText id (Json.dumps floatRepr) rows) v ↔ v = readRows rows := by
  have hplain : Json.plain (.list (rows.map fun row => .dict (row.map fun p => (p.1, id p.2)))) = readRows rows := by
    show Val.list (Json.plainList _) = _
    rw [Json.plainList_eq_map, List.map_map]
    refine congrArg Val.list (List.map_congr_left fun row hrow => ?_)
    show Json.plain (.dict (row.map fun p => (p.1, id p.2))) = _
    have hid : row.map (fun p => (p.1, id p.2)) = row := List.map_id row
    rw [hid]
    exact plain_dict (h row hrow)
  unfold logText
  rw [Json.text_dumps_iff hfloats, hplain]

theorem readsBack_of_mirrors (hfloats : Json.FloatTexts floatRepr) {path : String} {w : ω} {rows : List (Row F)}
    (hmirrors : Mirrors file id (Json.dumps floatRepr) path w rows) (hne : rows.isEmpty = false)
    (h : ∀ row ∈ rows, (row.map Prod.fst).Nodup) : ReadsBack file path w rows := by
  unfold Mirrors at hmirrors
  rw [hne, if_neg Bool.false_ne_true] at hmirrors
  exact ⟨_, hmirrors, text_logText_iff hfloats h⟩

/-! ## Writes -/

variable {lib : Stdlib F ω} {path : String}

/-- **A write of the incidents** that works. -/
theorem IncidentStore.writes_readsBack (hlib : lib.Works file id (Json.dumps floatRepr))
    (hfloats : Json.FloatTexts floatRepr) {s : IncidentStore F} {c : IncidentCall F} {w : ω} (hlog : s.logs c = true)
    (hok : ∃ u, ((lib.rewrite path ((s.step c).2.all.map Incident.row)).exec w).1 = .ok u) :
    ∃ u w', writes lib (some path) (s.step c).2 w = (.ok u, w') ∧
      ReadsBack file path w' ((s.step c).2.all.map Incident.row) := by
  have hne : ((s.step c).2.all.map Incident.row).isEmpty = false :=
    List.isEmpty_eq_false_iff.mpr fun h => all_step_of_logs hlog (List.map_eq_nil_iff.mp h)
  obtain ⟨u, w', hw, hmirrors⟩ := hlib.log hne hok
  refine ⟨u, w', hw, readsBack_of_mirrors hfloats hmirrors hne ?_⟩
  intro row hrow
  obtain ⟨i, -, rfl⟩ := List.mem_map.mp hrow
  exact nodup_incidentRow i

omit [Runtime F] in
/-- An `add` that logs leaves a row. -/
theorem ReportStore.all_step_of_logs {s : ReportStore F} {r : Report F} (h : s.logs r = true) :
    (s.step r).2.all ≠ [] := by
  unfold logs at h
  unfold step add
  rw [Option.isNone_iff_eq_none.mp h]
  exact List.ne_nil_of_mem (OrdDict.mem_values_of_get? (OrdDict.get?_insert_self _ _ _))

omit [Runtime F] in
/-- An `add` that does not log leaves every row. -/
theorem ReportStore.all_step_of_not_logs {s : ReportStore F} {r : Report F} (h : s.logs r = false) :
    (s.step r).2.all = s.all := by
  unfold logs at h
  unfold step add
  cases hg : s.byId.get? r.contactId with
  | some existing => rfl
  | none =>
    rw [hg] at h
    cases h

/-- **A write of the reports** that works. -/
theorem ReportStore.writes_readsBack (hlib : lib.Works file id (Json.dumps floatRepr))
    (hfloats : Json.FloatTexts floatRepr) {s : ReportStore F} {r : Report F} {w : ω} (hlog : s.logs r = true)
    (hok : ∃ u, ((lib.rewrite path ((s.step r).2.all.map Report.row)).exec w).1 = .ok u) :
    ∃ u w', writes lib (some path) (s.step r).2 w = (.ok u, w') ∧
      ReadsBack file path w' ((s.step r).2.all.map Report.row) := by
  have hne : ((s.step r).2.all.map Report.row).isEmpty = false :=
    List.isEmpty_eq_false_iff.mpr fun h => all_step_of_logs hlog (List.map_eq_nil_iff.mp h)
  obtain ⟨u, w', hw, hmirrors⟩ := hlib.log hne hok
  refine ⟨u, w', hw, readsBack_of_mirrors hfloats hmirrors hne ?_⟩
  intro row hrow
  obtain ⟨q, -, rfl⟩ := List.mem_map.mp hrow
  exact nodup_reportRow q

/-! ## Over a run -/

/-- **The log reads back**: after any run on a store with a path, whatever failed in it before, if the write of the last
call that logs worked, the file is a JSON text of the rows of `all()` and of nothing else. -/
theorem log_reads_back (hlib : lib.Works file id (Json.dumps floatRepr)) (hfloats : Json.FloatTexts floatRepr)
    (path : String) (w : ω) :
    (∀ (s : IncidentStore F) (pre post : List (IncidentCall F)) (c : IncidentCall F),
      let run (calls : List (IncidentCall F)) := Runs.final (IncidentStore.logStep lib (some path)) (s, w) calls
      (run pre).1.logs c = true → IncidentStore.LogWorks lib path (run pre) c →
        (∀ mid d rest, post = mid ++ d :: rest → (run (pre ++ c :: mid)).1.logs d = false) →
          ReadsBack file path (run (pre ++ c :: post)).2 ((run (pre ++ c :: post)).1.all.map Incident.row)) ∧
    ∀ (s : ReportStore F) (pre post : List (Report F)) (r : Report F),
      let run (reports : List (Report F)) := Runs.final (ReportStore.logStep lib (some path)) (s, w) reports
      (run pre).1.logs r = true → ReportStore.LogWorks lib path (run pre) r →
        (∀ mid q rest, post = mid ++ q :: rest → (run (pre ++ r :: mid)).1.logs q = false) →
          ReadsBack file path (run (pre ++ r :: post)).2 ((run (pre ++ r :: post)).1.all.map Report.row) := by
  constructor
  · intro s pre post c run hlog hworks hrest
    obtain ⟨u, w', hw, hread⟩ := IncidentStore.writes_readsBack hlib hfloats hlog (hworks hlog)
    simp only [run, IncidentStore.logStep_eq, Runs.final_append] at hlog hw hread hrest ⊢
    exact Runs.shows_final_of_write (fun s : IncidentStore F => s.all.map Incident.row) (ReadsBack file path)
      (fun s d hd => congrArg _ (IncidentStore.all_step_of_not_logs hd)) hlog hw hread hrest
  · intro s pre post r run hlog hworks hrest
    obtain ⟨u, w', hw, hread⟩ := ReportStore.writes_readsBack hlib hfloats hlog (hworks hlog)
    simp only [run, ReportStore.logStep_eq, Runs.final_append] at hlog hw hread hrest ⊢
    exact Runs.shows_final_of_write (fun s : ReportStore F => s.all.map Report.row) (ReadsBack file path)
      (fun s q hq => congrArg _ (ReportStore.all_step_of_not_logs hq)) hlog hw hread hrest

/-! ## A disk that is full at first -/

/-- The float `0.0` alone. -/
inductive Origin where
  | zero
deriving DecidableEq

instance : Runtime Origin where
  decEq := inferInstance
  toInt? _ := some 0
  isNan _ := false
  lt _ _ := false
  le _ _ := true
  leInt _ n := decide (0 ≤ n)
  ofInt n := if n = 0 then some .zero else none
  ofStr s := if s = "0.0" then some .zero else none
  reprFloat _ := "0.0"
  isprintable c := c.isAlphanum
  dist _ _ := .ok .zero

theorem floatTexts_origin : Json.FloatTexts (Json.floatText : Origin → String) := by
  intro x
  cases x with
  | zero =>
    have htext : Runtime.ofStr (String.ofList (['0'] ++ ['.', '0'])) = some Origin.zero := if_pos rfl
    have hdigits : ∀ c ∈ ['0'], c.isDigit = true := List.all_eq_true.mp rfl
    have hpoint : Json.IsFraction ['.', '0'] := .point ⟨List.cons_ne_nil _ _, hdigits⟩
    exact .float (.inl rfl) ⟨List.cons_ne_nil _ _, hdigits, fun _ => rfl⟩ hpoint htext

/-- A disk that is full until a write has failed. -/
def fullDisk : Stdlib Origin Disk :=
  { diskLib with
    writeText := fun path text => do
      if (← get).warnings.isEmpty then throw ⟨.osError, "No space left on device"⟩
      else (diskLib : Stdlib Origin Disk).writeText path text }

theorem fullDisk_works : fullDisk.Works (fun d path => d.files.get? path) id (Json.dumps Json.floatText) where
  copyValue := diskLib_works.copyValue
  dumps := (diskLib_works (F := Origin)).dumps
  unlink := (diskLib_works (F := Origin)).unlink
  writeText path text w u w' h := by
    unfold fullDisk at h
    rw [Py.exec_bind, Py.exec_get] at h
    dsimp only at h
    split at h
    · cases h
    · exact diskLib_works.writeText path text w u w' h

/-- A fire at the origin, another one, and a call for an incident that is not on file. -/
def fires : List (IncidentCall Origin) :=
  let fire : IncidentCall Origin :=
    .openIncident (.str "fire") (.tuple [.float .zero, .float .zero]) (.int 1) .none .empty
  [fire, fire, .close (.str "inc-9") (.str "unknown") (.int 2)]

/-- The store and the disk after them. -/
def afterFires : IncidentStore Origin × Disk :=
  Runs.final (IncidentStore.logStep fullDisk (some "incidents.json")) (.empty, .empty) fires

/-- The first write fails, and the file holds both fires after the second one. -/
theorem log_reads_back_fires : afterFires.2.warnings.length = 1 ∧
    ReadsBack (fun d path => d.files.get? path) "incidents.json" afterFires.2
      (afterFires.1.all.map Incident.row) := by
  refine ⟨rfl, ?_⟩
  refine (log_reads_back fullDisk_works floatTexts_origin "incidents.json" .empty).1 .empty (fires.take 1)
    (fires.drop 2) fires[1] rfl (fun _ => ⟨(), rfl⟩) ?_
  intro mid d rest h
  rcases mid with _ | ⟨a, mid⟩
  · cases h
    rfl
  · simp [fires] at h

end HadrAgent
