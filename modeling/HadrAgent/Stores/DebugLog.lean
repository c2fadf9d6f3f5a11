import HadrAgent.Lib.SideLog
import HadrAgent.Python.JsonDumps
import HadrAgent.Stores.IncidentCalls
import HadrAgent.Stores.Reports

/-!
# The debug log

`_log` of `stores/incidents.py` and `stores/reports.py`: a store with a path rewrites a file at the end of every
mutator. What the standard library does is a parameter (`Stdlib`): each of its functions may raise any exception.

`_log` catches three classes of exceptions. A run with a path ends in the same store as one without
(`Runs.fst_final_sideStep`), but it answers the same only if nothing else is raised (`debug_log_transparent_iff`): a
`RecursionError` comes out of a mutator that has already changed the store.
-/

namespace HadrAgent

variable {F ω : Type}

/-- The attributes of a record, as `asdict` lists them. -/
abbrev Row (F : Type) := List (String × Val F)

/-- What `_log` and the constructors use of the standard library; `ω` is the state of the file system. -/
structure Stdlib (F ω : Type) where
  /-- `asdict` on the value of an attribute. -/
  copyValue (v : Val F) : Py ω (Val F)
  /-- `json.dumps(rows, indent=2, default=str)`. -/
  dumps (rows : Val F) : Py ω String
  /-- `path.parent.mkdir(parents=True, exist_ok=True)`. -/
  mkdir (path : String) : Py ω Unit
  /-- `path.unlink(missing_ok=True)`. -/
  unlink (path : String) : Py ω Unit
  /-- `path.write_text(text, encoding="utf-8")`. -/
  writeText (path text : String) : Py ω Unit
  /-- `log.warning`. -/
  warning (text : String) : ω → ω

namespace Stdlib

variable (lib : Stdlib F ω)

/-- `asdict` of one record. -/
def asdict : Row F → Py ω (Row F)
  | [] => pure []
  | (name, v) :: row => do
    let v ← lib.copyValue v
    let row ← asdict row
    return (name, v) :: row

/-- The comprehension of `_log`. -/
def asdicts : List (Row F) → Py ω (List (Val F))
  | [] => pure []
  | row :: rows => do
    let row ← lib.asdict row
    let rows ← asdicts rows
    return .dict row :: rows

/-- `_log` inside its `try`. -/
def rewrite (path : String) (rows : List (Row F)) : Py ω Unit := do
  let rows ← lib.asdicts rows
  let text ← lib.dumps (.list rows)
  lib.writeText path text

/-- `except (OSError, TypeError, ValueError)`. -/
def logCatches : ExcClass → Bool
  | .osError | .typeError | .valueError => true
  | _ => false

/-- `_log` of a store of `kind` records. -/
def log (kind : String) (path : Option String) (rows : List (Row F)) : Py ω Unit :=
  match path with
  | none => pure ()
  | some path => (lib.rewrite path rows).catching logCatches fun e =>
    modify (lib.warning (kind ++ " debug log write failed: " ++ e.text))

/-- `self._path` after the constructor of a store of `kind` records. -/
def openLog (kind : String) (path : Option String) : Py ω (Option String) :=
  match path with
  | none => return none
  | some path =>
    let clear : Py ω (Option String) := do
      lib.mkdir path
      lib.unlink path
      return some path
    clear.catching (fun c => c = .osError) fun e => do
      modify (lib.warning (kind ++ " debug log unavailable at " ++ path ++ ": " ++ e.text))
      return none

/-- What `_log` raises: what its `try` raises and its `except` does not catch. -/
theorem exec_log_ok_iff (kind path : String) (rows : List (Row F)) (w : ω) :
    (∃ u, ((lib.log kind (some path) rows).exec w).1 = .ok u) ↔
      ∀ e, ((lib.rewrite path rows).exec w).1 = .error e → logCatches e.cls = true := by
  unfold log
  rw [Py.exec_catching]
  cases h : ((lib.rewrite path rows).exec w).1 with
  | ok u => exact iff_of_true ⟨u, rfl⟩ nofun
  | error e =>
    cases hc : logCatches e.cls with
    | true => exact iff_of_true ⟨⟨⟩, by simp [hc]⟩ fun e' he => Except.error.inj he ▸ hc
    | false =>
      refine iff_of_false (by simp [hc]) fun hall => ?_
      rw [hall e rfl] at hc
      cases hc

end Stdlib

/-! ## Stores with a path

The state is the store and the file system. -/

section Stores

variable (lib : Stdlib F ω) (path : Option String)

/-- The row of an incident. -/
def Incident.row (i : Incident F) : Row F := Field.all.map fun f => (f.name, i.get f)

/-- The row of a report. -/
def Report.row (r : Report F) : Row F :=
  [("contact_id", .str r.contactId), ("reported_location", r.reportedLocation), ("incident_type", r.incidentType),
    ("coords", r.coords), ("tick", r.tick), ("notes", r.notes)]

/-- A computation on the file system. -/
def onFiles {σ α : Type} (m : Py ω α) : Py (σ × ω) α := m.zoom Prod.snd fun w x => (x.1, w)

namespace IncidentStore

/-- `_log`. -/
def log : Py (IncidentStore F × ω) Unit := do
  onFiles (lib.log "incident" path ((← get).1.all.map Incident.row))

/-- A mutator of a store with a path: `_log` is its last statement. -/
def mutate {α : Type} (m : Py (IncidentStore F) α) : Py (IncidentStore F × ω) α := do
  let a ← m.zoom Prod.fst fun s x => (s, x.2)
  log lib path
  return a

variable [Runtime F]

/-- A call on a store with a path. -/
def logStep (x : IncidentStore F × ω) (c : IncidentCall F) : Except Exc (Incident F) × IncidentStore F × ω :=
  (mutate lib path c.method).exec x

end IncidentStore

namespace ReportStore

/-- `_log`. -/
def log : Py (ReportStore F × ω) Unit := do
  onFiles (lib.log "report" path ((← get).1.all.map Report.row))

/-- `add` on a store with a path. -/
def addLogged (report : Report F) : Py (ReportStore F × ω) (Report F) := do
  match (← get).1.byId.get? report.contactId with
  | some existing => return existing
  | none =>
    modify fun x => (⟨x.1.byId.insert report.contactId report⟩, x.2)
    log lib path
    return report

/-- `add` on a store with a path, as a step. -/
def logStep (x : ReportStore F × ω) (report : Report F) : Except Exc (Report F) × ReportStore F × ω :=
  (addLogged lib path report).exec x

/-- `add` on a store without one, as a step. -/
def step (s : ReportStore F) (report : Report F) : Except Exc (Report F) × ReportStore F :=
  (.ok (s.add report).1, (s.add report).2)

end ReportStore

end Stores

/-! ## Stores as machines with a side log -/

section Machines

variable (lib : Stdlib F ω) (path : Option String)

namespace IncidentStore

variable [Runtime F]

/-- A call that does not raise logs. -/
def logs (s : IncidentStore F) (c : IncidentCall F) : Bool := (s.step c).1.isOk

/-- `_log` on the file system. -/
def writes (s : IncidentStore F) (w : ω) : Except Exc Unit × ω :=
  (lib.log "incident" path (s.all.map Incident.row)).exec w

theorem exists_ok_of_logs (s : IncidentStore F) (c : IncidentCall F) (h : s.logs c = true) :
    ∃ i, (s.step c).1 = .ok i := by
  unfold logs at h
  cases hs : (s.step c).1 with
  | ok i => exact ⟨i, rfl⟩
  | error e =>
    rw [hs] at h
    cases h

theorem logStep_eq : logStep lib path = Runs.sideStep step logs (writes lib path) := by
  funext x c
  have hmut : logStep lib path x c = (mutate lib path c.method).exec x := rfl
  rw [hmut]
  unfold mutate log onFiles Runs.sideStep logs writes step
  rw [Py.exec_bind, Py.exec_zoom]
  cases hs : c.method.exec x.1 with
  | mk r s =>
    cases r with
    | error e => rfl
    | ok i =>
      simp only [Py.exec_bind, Py.exec_get, Py.exec_zoom, Py.exec_pure, Except.isOk, Except.toBool, if_true]
      cases hw : (lib.log "incident" path (s.all.map Incident.row)).exec x.2 with
      | mk q w => cases q <;> rfl

end IncidentStore

namespace ReportStore

/-- An `add` of a new contact logs. -/
def logs (s : ReportStore F) (report : Report F) : Bool := (s.byId.get? report.contactId).isNone

/-- `_log` on the file system. -/
def writes (s : ReportStore F) (w : ω) : Except Exc Unit × ω :=
  (lib.log "report" path (s.all.map Report.row)).exec w

theorem logStep_eq : logStep lib path = Runs.sideStep step logs (writes lib path) := by
  funext x r
  have hadd : logStep lib path x r = (addLogged lib path r).exec x := rfl
  rw [hadd]
  unfold addLogged log onFiles Runs.sideStep logs writes step add
  rw [Py.exec_bind]
  cases hg : x.1.byId.get? r.contactId with
  | some existing => simp [hg]
  | none =>
    simp only [Py.exec_get, hg, Py.exec_bind, Py.exec_modify, Py.exec_zoom, Py.exec_pure, Option.isNone_none, if_true]
    cases hw : (lib.log "report" path ((all ⟨x.1.byId.insert r.contactId r⟩).map Report.row)).exec x.2 with
    | mk q w => cases q <;> rfl

end ReportStore

end Machines

/-! ## Transparency -/

/-- A call does not reach `_log`, or its `_log` raises nothing: what the rows, their text or the file raise is
caught. -/
def IncidentStore.LogQuiet [Runtime F] (lib : Stdlib F ω) (path : String) (x : IncidentStore F × ω)
    (c : IncidentCall F) : Prop :=
  x.1.logs c = true → ∀ e, ((lib.rewrite path ((x.1.step c).2.all.map Incident.row)).exec x.2).1 = .error e →
    Stdlib.logCatches e.cls = true

/-- An `add` does not reach `_log`, or its `_log` raises nothing. -/
def ReportStore.LogQuiet (lib : Stdlib F ω) (path : String) (x : ReportStore F × ω) (r : Report F) : Prop :=
  x.1.logs r = true → ∀ e, ((lib.rewrite path ((x.1.add r).2.all.map Report.row)).exec x.2).1 = .error e →
    Stdlib.logCatches e.cls = true

section Transparency

variable (lib : Stdlib F ω) (path : String)

theorem IncidentStore.writeOk_iff [Runtime F] (x : IncidentStore F × ω) (c : IncidentCall F) :
    Runs.WriteOk step logs (writes lib (some path)) x c ↔ LogQuiet lib path x c :=
  imp_congr_right fun _ => lib.exec_log_ok_iff _ _ _ _

theorem ReportStore.writeOk_iff (x : ReportStore F × ω) (r : Report F) :
    Runs.WriteOk step logs (writes lib (some path)) x r ↔ LogQuiet lib path x r :=
  imp_congr_right fun _ => lib.exec_log_ok_iff _ _ _ _

/-- Without a path nothing is written. -/
theorem IncidentStore.writeOk_none [Runtime F] (x : IncidentStore F × ω) (c : IncidentCall F) :
    Runs.WriteOk step logs (writes lib none) x c := fun _ => ⟨(), rfl⟩

theorem ReportStore.writeOk_none (x : ReportStore F × ω) (r : Report F) :
    Runs.WriteOk step logs (writes lib none) x r := fun _ => ⟨(), rfl⟩

/-- **The debug log**, over every run of either store: with a path and without one the run ends in the same store, and
it answers the same exactly when no call has an exception come out of `_log`. -/
theorem debug_log_transparent_iff [Runtime F] (w : ω) :
    (∀ (s : IncidentStore F) calls,
      (Runs.answers (IncidentStore.logStep lib (some path)) (s, w) calls =
          Runs.answers (IncidentStore.logStep lib none) (s, w) calls ∧
        (Runs.final (IncidentStore.logStep lib (some path)) (s, w) calls).1 =
          (Runs.final (IncidentStore.logStep lib none) (s, w) calls).1) ↔
      ∀ pre c post, calls = pre ++ c :: post →
        IncidentStore.LogQuiet lib path (Runs.final (IncidentStore.logStep lib (some path)) (s, w) pre) c) ∧
    ∀ (s : ReportStore F) reports,
      (Runs.answers (ReportStore.logStep lib (some path)) (s, w) reports =
          Runs.answers (ReportStore.logStep lib none) (s, w) reports ∧
        (Runs.final (ReportStore.logStep lib (some path)) (s, w) reports).1 =
          (Runs.final (ReportStore.logStep lib none) (s, w) reports).1) ↔
      ∀ pre r post, reports = pre ++ r :: post →
        ReportStore.LogQuiet lib path (Runs.final (ReportStore.logStep lib (some path)) (s, w) pre) r := by
  constructor
  · intro s calls
    have hlogs := @IncidentStore.exists_ok_of_logs F _
    have hnone := (Runs.answers_sideStep_iff hlogs calls (s, w)).mpr fun pre c post _ =>
      IncidentStore.writeOk_none lib (Runs.final _ (s, w) pre) c
    simp only [IncidentStore.logStep_eq, Runs.fst_final_sideStep, and_true, hnone, Runs.answers_sideStep_iff hlogs,
      IncidentStore.writeOk_iff]
  · intro s reports
    have hlogs : ∀ (s : ReportStore F) r, s.logs r = true → ∃ b, (s.step r).1 = .ok b := fun s r _ => ⟨_, rfl⟩
    have hnone := (Runs.answers_sideStep_iff hlogs reports (s, w)).mpr fun pre r post _ =>
      ReportStore.writeOk_none lib (Runs.final _ (s, w) pre) r
    simp only [ReportStore.logStep_eq, Runs.fst_final_sideStep, and_true, hnone, Runs.answers_sideStep_iff hlogs,
      ReportStore.writeOk_iff]

end Transparency

/-! ## A disk -/

namespace Val

mutual

/-- How deep containers are nested. -/
def depth : Val F → Nat
  | .list xs => depthIn xs + 1
  | .tuple xs => depthIn xs + 1
  | .dict items => depthItems items + 1
  | _ => 0

def depthIn : List (Val F) → Nat
  | [] => 0
  | x :: xs => max x.depth (depthIn xs)

def depthItems : List (String × Val F) → Nat
  | [] => 0
  | (_, v) :: items => max v.depth (depthItems items)

end

end Val

/-- Files, and the warnings so far. -/
structure Disk where
  files : OrdDict String String
  warnings : List String

/-- No file, no warning. -/
def Disk.empty : Disk := ⟨.empty, []⟩

/-- What `asdict` raises on a value that is nested too deeply. -/
def recursionError : Exc := ⟨.other "RecursionError", "maximum recursion depth exceeded"⟩

/-- A library that works, on values that are not nested too deeply. -/
def diskLib [Runtime F] : Stdlib F Disk where
  copyValue v := if 1000 < v.depth then throw recursionError else pure v
  dumps rows := pure (Json.dumps Json.floatText rows)
  mkdir _ := pure ()
  unlink path := modify fun d => { d with files := d.files.filter fun p => p.1 ≠ path }
  writeText path text := modify fun d => { d with files := d.files.insert path text }
  warning text d := { d with warnings := d.warnings ++ [text] }

/-- `[[…[0]…]]`. -/
def nested : Nat → Val F
  | 0 => .int 0
  | n + 1 => .list [nested n]

theorem depth_nested (n : Nat) : (nested n : Val F).depth = n := by
  induction n with
  | zero => rfl
  | succ n ih =>
    show max (nested n : Val F).depth 0 + 1 = n + 1
    rw [ih, Nat.max_zero]

/-- One value that is nested too deeply, and the row cannot be made. -/
theorem asdict_of_deep [Runtime F] (d : Disk) : ∀ {row : Row F}, (∃ p ∈ row, 1000 < p.2.depth) →
    ((diskLib : Stdlib F Disk).asdict row).exec d = (.error recursionError, d)
  | [], h => by
    obtain ⟨_, h, _⟩ := h
    cases h
  | (name, v) :: row, h => by
    unfold Stdlib.asdict
    rw [Py.exec_bind]
    by_cases hv : 1000 < v.depth
    · simp [diskLib, hv]
    · have hrow : ∃ p ∈ row, 1000 < p.2.depth := by
        obtain ⟨p, hp, hd⟩ := h
        rcases List.mem_cons.mp hp with rfl | hp
        · exact absurd hd hv
        · exact ⟨p, hp, hd⟩
      have ih := asdict_of_deep d hrow
      simp only [diskLib, hv, if_false, Py.exec_pure, Py.exec_bind] at ih ⊢
      rw [ih]

/-- The call that opens an incident with notes `v`. -/
def openNoted (v : Val F) : IncidentCall F :=
  .openIncident (.str "fire") (.tuple [.int 0, .int 0]) (.int 1) .none (.ofList [("notes", v)])

/-- The incident it makes in a new store. -/
def firstNoted (v : Val F) : Incident F :=
  { Incident.fresh "inc-1" (.str "fire") (.tuple [.int 0, .int 0]) (.int 1) .none with notes := v }

variable [Runtime F]

theorem step_openNoted (v : Val F) :
    IncidentStore.empty.step (openNoted v) = (.ok (firstNoted v), ⟨.ofList [("inc-1", firstNoted v)], 1⟩) := by
  with_unfolding_all rfl

theorem logs_openNoted (v : Val F) : IncidentStore.empty.logs (openNoted v) = true := by
  unfold IncidentStore.logs
  rw [step_openNoted]
  rfl

theorem writes_of_deep {v : Val F} (hv : 1000 < v.depth) (path : String) (d : Disk) :
    IncidentStore.writes diskLib (some path) (IncidentStore.empty.step (openNoted v)).2 d =
      (.error recursionError, d) := by
  have hrow : ∃ p ∈ (firstNoted v).row, 1000 < p.2.depth :=
    ⟨("notes", v), by simp [Incident.row, Field.all, firstNoted, Incident.get, Field.name], hv⟩
  have hrows : ((diskLib : Stdlib F Disk).rewrite path [(firstNoted v).row]).exec d = (.error recursionError, d) := by
    unfold Stdlib.rewrite Stdlib.asdicts
    simp only [Py.exec_bind, asdict_of_deep d hrow]
  rw [step_openNoted]
  show ((diskLib.rewrite path [(firstNoted v).row]).catching Stdlib.logCatches _).exec d = _
  rw [Py.exec_catching, hrows]
  rfl

/-- An incident is opened with notes that are nested too deeply: the store has it, but with a path the call raises. -/
theorem debug_log_nested :
    Runs.answers (IncidentStore.logStep diskLib (some "incidents.json")) (.empty, .empty)
        [(openNoted (nested 1001) : IncidentCall Whole)] = [.error recursionError] ∧
      Runs.answers (IncidentStore.logStep diskLib none) (.empty, .empty)
        [(openNoted (nested 1001) : IncidentCall Whole)] = [.ok (firstNoted (nested 1001))] ∧
      (Runs.final (IncidentStore.logStep diskLib (some "incidents.json")) (.empty, .empty)
        [(openNoted (nested 1001) : IncidentCall Whole)]).1.all = [firstNoted (nested 1001)] := by
  have hdeep : 1000 < (nested 1001 : Val Whole).depth := by
    rw [depth_nested]
    decide
  have hlogs : (IncidentStore.empty, Disk.empty).1.logs (openNoted (nested 1001) : IncidentCall Whole) = true :=
    logs_openNoted _
  have hstep : (IncidentStore.empty, Disk.empty).1.step (openNoted (nested 1001) : IncidentCall Whole) = _ :=
    step_openNoted _
  refine ⟨?_, ?_, ?_⟩
  · rw [Runs.answers_cons, IncidentStore.logStep_eq, Runs.sideStep_of_error hlogs (writes_of_deep hdeep _ .empty)]
    rfl
  · have hwrite : ∀ s : IncidentStore Whole, IncidentStore.writes diskLib none s Disk.empty = (.ok (), .empty) :=
      fun s => rfl
    rw [Runs.answers_cons, IncidentStore.logStep_eq, Runs.sideStep_of_ok hlogs (hwrite _), hstep]
    rfl
  · rw [IncidentStore.logStep_eq, Runs.fst_final_sideStep, Runs.final_cons, hstep]
    rfl

end HadrAgent
