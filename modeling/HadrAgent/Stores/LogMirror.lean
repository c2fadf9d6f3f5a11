import HadrAgent.Stores.DebugLog

/-!
# The log mirrors the store

On a file system that does its work, the file of a store with a path is absent as long as nothing is stored, and holds
the rows of `all()` from then on: `_log` follows the last write of every mutator that changes a row
(`log_mirrors_store`).
-/

namespace HadrAgent

variable {F ω : Type}

/-- What a library does where it does not raise: a copy of a value depends on the value and the text of rows on the
rows, a removed file is absent and a written one holds its text. -/
structure Stdlib.Works (lib : Stdlib F ω) (file : ω → String → Option String) (copy : Val F → Val F)
    (json : Val F → String) : Prop where
  copyValue : ∀ v w c w', (lib.copyValue v).exec w = (.ok c, w') → c = copy v
  dumps : ∀ rows w text w', (lib.dumps rows).exec w = (.ok text, w') → text = json rows
  unlink : ∀ path w u w', (lib.unlink path).exec w = (.ok u, w') → file w' path = none
  writeText : ∀ path text w u w', (lib.writeText path text).exec w = (.ok u, w') → file w' path = some text

/-- The text of a log: one entry for each record. -/
def logText (copy : Val F → Val F) (json : Val F → String) (rows : List (Row F)) : String :=
  json (.list (rows.map fun row => .dict (row.map fun p => (p.1, copy p.2))))

/-- What the file of a store is: absent, or the text of its rows. -/
def Mirrors (file : ω → String → Option String) (copy : Val F → Val F) (json : Val F → String) (path : String)
    (w : ω) (rows : List (Row F)) : Prop :=
  file w path = if rows.isEmpty then none else some (logText copy json rows)

namespace Stdlib

variable {lib : Stdlib F ω} {file : ω → String → Option String} {copy : Val F → Val F} {json : Val F → String}

theorem Works.asdict (h : lib.Works file copy json) : ∀ {row row' : Row F} {w w' : ω},
    (lib.asdict row).exec w = (.ok row', w') → row' = row.map fun p => (p.1, copy p.2)
  | [], row', w, w', hr => by
    cases hr
    rfl
  | (name, v) :: row, row', w, w', hr => by
    obtain ⟨c, w₁, hc, hr⟩ := Py.exec_bind_eq_ok.mp hr
    obtain ⟨rest, w₂, hrest, hr⟩ := Py.exec_bind_eq_ok.mp hr
    cases hr
    rw [h.copyValue _ _ _ _ hc, h.asdict hrest]
    rfl

theorem Works.asdicts (h : lib.Works file copy json) : ∀ {rows : List (Row F)} {vs : List (Val F)} {w w' : ω},
    (lib.asdicts rows).exec w = (.ok vs, w') → vs = rows.map fun row => .dict (row.map fun p => (p.1, copy p.2))
  | [], vs, w, w', hr => by
    cases hr
    rfl
  | row :: rows, vs, w, w', hr => by
    obtain ⟨row', w₁, hrow, hr⟩ := Py.exec_bind_eq_ok.mp hr
    obtain ⟨rest, w₂, hrest, hr⟩ := Py.exec_bind_eq_ok.mp hr
    cases hr
    rw [h.asdict hrow, h.asdicts hrest]
    rfl

/-- **A rewritten file** holds the rows. -/
theorem Works.rewrite (h : lib.Works file copy json) {path : String} {rows : List (Row F)} {w w' : ω} {u : Unit}
    (hr : (lib.rewrite path rows).exec w = (.ok u, w')) : file w' path = some (logText copy json rows) := by
  obtain ⟨vs, w₁, hvs, hr⟩ := Py.exec_bind_eq_ok.mp hr
  obtain ⟨text, w₂, htext, hr⟩ := Py.exec_bind_eq_ok.mp hr
  rw [h.writeText _ _ _ _ _ hr, h.dumps _ _ _ _ htext, h.asdicts hvs]
  rfl

/-- `_log` of a store that is not empty, when nothing fails. -/
theorem Works.log (h : lib.Works file copy json) {kind path : String} {rows : List (Row F)} {w : ω}
    (hne : rows.isEmpty = false) (hok : ∃ u, ((lib.rewrite path rows).exec w).1 = .ok u) :
    ∃ u w', (lib.log kind (some path) rows).exec w = (.ok u, w') ∧ Mirrors file copy json path w' rows := by
  obtain ⟨u, hu⟩ := hok
  have hr : (lib.rewrite path rows).exec w = (.ok u, ((lib.rewrite path rows).exec w).2) := Prod.ext hu rfl
  refine ⟨u, ((lib.rewrite path rows).exec w).2, ?_, ?_⟩
  · unfold Stdlib.log
    rw [Py.exec_catching, hu]
  · unfold Mirrors
    rw [hne, if_neg Bool.false_ne_true]
    exact h.rewrite hr

/-- The constructor clears the file. -/
theorem Works.openLog (h : lib.Works file copy json) {kind path : String} {w₀ w : ω}
    (hw : (lib.openLog kind (some path)).exec w₀ = (.ok (some path), w)) : Mirrors file copy json path w [] := by
  unfold Stdlib.openLog at hw
  rw [Py.exec_catching] at hw
  cases hclear : (do lib.mkdir path; lib.unlink path; return some path : Py ω (Option String)).exec w₀ with
  | mk r w' =>
    rw [hclear] at hw
    cases r with
    | ok p =>
      obtain ⟨_, w₁, _, hclear⟩ := Py.exec_bind_eq_ok.mp hclear
      obtain ⟨_, w₂, hunlink, hclear⟩ := Py.exec_bind_eq_ok.mp hclear
      cases hclear
      cases hw
      exact h.unlink _ _ _ _ hunlink
    | error e =>
      dsimp only at hw
      split at hw
      · rw [Py.exec_bind] at hw
        cases hw
      · cases hw

end Stdlib

/-! ## The mutators -/

namespace IncidentStore

variable [Runtime F]

/-- No conversion and no write of a call fails. -/
def LogWorks (lib : Stdlib F ω) (path : String) (x : IncidentStore F × ω) (c : IncidentCall F) : Prop :=
  x.1.logs c = true → ∃ u, ((lib.rewrite path ((x.1.step c).2.all.map Incident.row)).exec x.2).1 = .ok u

/-- A call that does not log leaves every row. -/
theorem all_step_of_not_logs {s : IncidentStore F} {c : IncidentCall F} (h : s.logs c = false) :
    (s.step c).2.all = s.all := by
  rcases s.step_cases c with ⟨e, he⟩ | ⟨_, e, he⟩ | ⟨_, i, _, he⟩ | ⟨id, i, i', _, _, _, he⟩
  · rw [he]
  · rw [he]
    rfl
  · unfold logs at h
    rw [he] at h
    cases h
  · unfold logs at h
    rw [he] at h
    cases h

/-- A call that logs leaves a row. -/
theorem all_step_of_logs {s : IncidentStore F} {c : IncidentCall F} (h : s.logs c = true) :
    (s.step c).2.all ≠ [] := by
  have hget : ∀ {d : OrdDict String (Incident F)} {id : String} {i : Incident F}, d.get? id = some i → d.values ≠ [] :=
    fun hg => List.ne_nil_of_mem (OrdDict.mem_values_of_get? hg)
  obtain ⟨i, hi⟩ := exists_ok_of_logs s c h
  rcases s.step_cases c with ⟨e, he⟩ | ⟨_, e, he⟩ | ⟨_, i, _, he⟩ | ⟨id, i, i', _, _, _, he⟩
  · rw [he] at hi
    cases hi
  · rw [he] at hi
    cases hi
  · rw [he]
    exact hget (OrdDict.get?_insert_self _ _ _)
  · rw [he]
    exact hget (OrdDict.get?_insert_self _ _ _)

/-- **One call** on a store whose file mirrors it. -/
theorem mirrors_logStep {lib : Stdlib F ω} {file : ω → String → Option String} {copy : Val F → Val F}
    {json : Val F → String} (hlib : lib.Works file copy json) {path : String} (x : IncidentStore F × ω)
    (c : IncidentCall F) (hx : Mirrors file copy json path x.2 (x.1.all.map Incident.row))
    (hc : LogWorks lib path x c) :
    Mirrors file copy json path (logStep lib (some path) x c).2.2
      ((logStep lib (some path) x c).2.1.all.map Incident.row) := by
  rw [logStep_eq]
  refine Runs.shows_sideStep (fun s : IncidentStore F => s.all.map Incident.row) (Mirrors file copy json path)
    (fun s w => ∃ u, ((lib.rewrite path (s.all.map Incident.row)).exec w).1 = .ok u) ?_ ?_ hx hc
  · intro s b hb
    exact congrArg _ (all_step_of_not_logs hb)
  · intro s b w hb hok
    refine hlib.log ?_ hok
    rw [List.isEmpty_eq_false_iff]
    exact fun h => all_step_of_logs hb (List.map_eq_nil_iff.mp h)

end IncidentStore

namespace ReportStore

/-- No conversion and no write of an `add` fails. -/
def LogWorks (lib : Stdlib F ω) (path : String) (x : ReportStore F × ω) (r : Report F) : Prop :=
  x.1.logs r = true → ∃ u, ((lib.rewrite path ((x.1.add r).2.all.map Report.row)).exec x.2).1 = .ok u

/-- **One `add`** on a store whose file mirrors it. -/
theorem mirrors_logStep {lib : Stdlib F ω} {file : ω → String → Option String} {copy : Val F → Val F}
    {json : Val F → String} (hlib : lib.Works file copy json) {path : String} (x : ReportStore F × ω)
    (r : Report F) (hx : Mirrors file copy json path x.2 (x.1.all.map Report.row)) (hr : LogWorks lib path x r) :
    Mirrors file copy json path (logStep lib (some path) x r).2.2
      ((logStep lib (some path) x r).2.1.all.map Report.row) := by
  rw [logStep_eq]
  refine Runs.shows_sideStep (fun s : ReportStore F => s.all.map Report.row) (Mirrors file copy json path)
    (fun s w => ∃ u, ((lib.rewrite path (s.all.map Report.row)).exec w).1 = .ok u) ?_ ?_ hx hr
  · intro s q hq
    unfold logs at hq
    unfold step add
    cases hg : s.byId.get? q.contactId with
    | some existing => rfl
    | none =>
      rw [hg] at hq
      cases hq
  · intro s q w hq hok
    refine hlib.log ?_ hok
    rw [List.isEmpty_eq_false_iff]
    intro h
    unfold logs at hq
    have hadd : (s.add q).2 = ⟨s.byId.insert q.contactId q⟩ := by
      unfold add
      rw [Option.isNone_iff_eq_none.mp hq]
    have hmem : q ∈ (s.add q).2.all := by
      rw [hadd]
      exact OrdDict.mem_values_of_get? (OrdDict.get?_insert_self _ _ _)
    rw [show (s.step q).2.all = (s.add q).2.all from rfl, List.map_eq_nil_iff] at h
    rw [h] at hmem
    cases hmem

end ReportStore

/-! ## Over a run -/

/-- **The log mirrors the store**, after every call of every run on a store that its constructor made with a path, where
no conversion and no write fails: the file is absent if nothing is stored yet, and otherwise holds the text of the rows
of `all()`, one for each record and in their order. -/
theorem log_mirrors_store [Runtime F] {lib : Stdlib F ω} {file : ω → String → Option String} {copy : Val F → Val F}
    {json : Val F → String} (hlib : lib.Works file copy json) (path : String) (w₀ w : ω) :
    ((lib.openLog "incident" (some path)).exec w₀ = (.ok (some path), w) → ∀ calls : List (IncidentCall F),
      (∀ pre c post, calls = pre ++ c :: post →
        IncidentStore.LogWorks lib path (Runs.final (IncidentStore.logStep lib (some path)) (.empty, w) pre) c) →
      ∀ pre, pre <+: calls →
        let x := Runs.final (IncidentStore.logStep lib (some path)) (.empty, w) pre
        file x.2 path = if x.1.all.isEmpty then none else some (logText copy json (x.1.all.map Incident.row))) ∧
    ((lib.openLog "report" (some path)).exec w₀ = (.ok (some path), w) → ∀ reports : List (Report F),
      (∀ pre r post, reports = pre ++ r :: post →
        ReportStore.LogWorks lib path (Runs.final (ReportStore.logStep lib (some path)) (.empty, w) pre) r) →
      ∀ pre, pre <+: reports →
        let x := Runs.final (ReportStore.logStep lib (some path)) (.empty, w) pre
        file x.2 path = if x.1.all.isEmpty then none else some (logText copy json (x.1.all.map Report.row))) := by
  constructor
  · intro hw calls hok pre hpre x
    have hx : Mirrors file copy json path x.2 (x.1.all.map Incident.row) :=
      Runs.final_prefix_induction (fun y c => IncidentStore.mirrors_logStep hlib y c) calls _ (hlib.openLog hw) hok
        pre hpre
    rwa [Mirrors, List.isEmpty_map] at hx
  · intro hw reports hok pre hpre x
    have hx : Mirrors file copy json path x.2 (x.1.all.map Report.row) :=
      Runs.final_prefix_induction (fun y r => ReportStore.mirrors_logStep hlib y r) reports _ (hlib.openLog hw) hok
        pre hpre
    rwa [Mirrors, List.isEmpty_map] at hx

/-- A disk does its work. -/
theorem diskLib_works [Runtime F] :
    (diskLib : Stdlib F Disk).Works (fun d path => d.files.get? path) id (Json.dumps Json.floatText) where
  copyValue v w c w' h := by
    unfold diskLib at h
    dsimp only at h
    split at h
    · cases h
    · cases h
      rfl
  dumps rows w text w' h := by
    cases h
    rfl
  unlink path w u w' h := by
    cases h
    show (w.files.filter _).get? path = none
    rw [OrdDict.get?_filter]
    cases w.files.get? path <;> simp
  writeText path text w u w' h := by
    cases h
    exact OrdDict.get?_insert_self _ _ _

/-- A fire that is filed and closed. -/
def burntOut : List (IncidentCall Whole) :=
  [.openIncident (.str "fire") (.tuple [.int 0, .int 0]) (.int 1) .none .empty,
    .close (.str "inc-1") (.str "burnt out") (.int 2)]

/-- The store and the disk after it. -/
def afterBurntOut : IncidentStore Whole × Disk :=
  Runs.final (IncidentStore.logStep diskLib (some "incidents.json")) (.empty, .empty) burntOut

theorem log_mirrors_store_burntOut : afterBurntOut.2.files.get? "incidents.json" =
    some (logText id (Json.dumps Json.floatText) (afterBurntOut.1.all.map Incident.row)) := by
  refine (log_mirrors_store diskLib_works "incidents.json" Disk.empty Disk.empty).1 rfl burntOut ?_ burntOut
    (List.prefix_refl _)
  intro pre c post h
  rcases pre with _ | ⟨a, _ | ⟨b, pre⟩⟩
  · cases h
    exact fun _ => ⟨(), rfl⟩
  · cases h
    exact fun _ => ⟨(), rfl⟩
  · simp [burntOut] at h

end HadrAgent
