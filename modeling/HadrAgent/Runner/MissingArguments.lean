import HadrAgent.Dispatch.Effects
import HadrAgent.Runner.Episode

/-!
# Missing arguments

`_run_tool` answers a `KeyError` with `missing argument k`. A required argument that is absent raises one, before the
call does anything; but so may what the call reaches outside of the dispatcher (`reached`). The reply blames the model
rightly exactly when nothing of the latter kind happens (`missing_argument_iff`).
-/

namespace HadrAgent

variable {β F : Type}

/-- `{"error": "missing argument …"}`. -/
def missingReply (t : String) : Dict F := errorReply ("missing argument " ++ t)

/-- The arguments a tool looks up without a default. -/
def requiredArgs (name : String) : List String :=
  if name = "building_to_coords" then ["building_id"]
  else if name = "dispatch" then ["vehicle_id", "x", "y"]
  else []

/-- An outcome that is answered as a missing argument: a `KeyError`, or an error or a reply that reads like one. -/
def ReadsAsMissing (r : Except Exc (Dict F)) : Prop :=
  match r with
  | .ok reply => ∃ t, reply = missingReply t
  | .error e => e.cls = .keyError ∨ ∃ t, String.ofList (e.text.toList.take 200) = "missing argument " ++ t

theorem errorReply_injective {a b : String} (h : (errorReply a : Dict F) = errorReply b) : a = b := by
  have hitems : [("error", (Val.str a : Val F))] = [("error", .str b)] := congrArg OrdDict.items h
  simpa using hitems

theorem missingReply_injective {t t' : String} (h : (missingReply t : Dict F) = missingReply t') : t = t' := by
  have htext := congrArg String.toList (errorReply_injective h)
  rw [String.toList_append, String.toList_append] at htext
  exact String.toList_inj.mp (List.append_cancel_left htext)

theorem toolFailure_of_keyError {e : Exc} (h : e.cls = .keyError) : (toolFailure e : Dict F) = missingReply e.text := by
  unfold toolFailure
  rw [h]
  rfl

theorem toolFailure_of_ne {e : Exc} (h : e.cls ≠ .keyError) :
    (toolFailure e : Dict F) = errorReply (String.ofList (e.text.toList.take 200)) := by
  unfold toolFailure
  split
  · next hc => exact absurd hc h
  · rfl

/-- It is answered as one. -/
theorem readsAsMissing_iff {r : Except Exc (Dict F)} : ReadsAsMissing r ↔ ∃ t, replyOf r = missingReply t := by
  cases r with
  | ok reply => exact Iff.rfl
  | error e =>
    by_cases hc : e.cls = .keyError
    · exact iff_of_true (.inl hc) ⟨e.text, toolFailure_of_keyError hc⟩
    · refine (or_iff_right hc).trans (exists_congr fun t => ?_)
      show _ ↔ toolFailure e = missingReply t
      rw [toolFailure_of_ne hc]
      exact ⟨fun h => congrArg errorReply h, fun h => errorReply_injective h⟩

/-- An exception of the dispatcher or the store that is no missing argument: its text begins otherwise. -/
def Exc.Innocent (e : Exc) : Prop := e.cls ≠ .keyError ∧ e.text.toList.head? ≠ some 'm'

theorem Exc.Innocent.not_readsAsMissing {e : Exc} (h : e.Innocent) :
    ¬ ReadsAsMissing (.error e : Except Exc (Dict F)) := by
  rintro (hc | ⟨t, ht⟩)
  · exact h.1 hc
  · have hhead := congrArg (fun s => s.toList.head?) ht
    rw [String.toList_append, String.toList_ofList, List.head?_take, if_neg (by decide)] at hhead
    exact h.2 hhead

theorem not_readsAsMissing_errorReply {text : String} (h : text.toList.head? ≠ some 'm') :
    ¬ ReadsAsMissing (.ok (errorReply text) : Except Exc (Dict F)) := by
  rintro ⟨t, ht⟩
  have hhead := congrArg (fun s => s.toList.head?) (errorReply_injective ht)
  rw [String.toList_append] at hhead
  exact h hhead

/-- A text that begins with a fixed part. -/
theorem head?_append_ne {a : String} (b : String) (h : a.toList.head?.isSome ∧ a.toList.head? ≠ some 'm') :
    (a ++ b).toList.head? ≠ some 'm' := by
  rw [String.toList_append, List.head?_append]
  obtain ⟨c, hc⟩ := Option.isSome_iff_exists.mp h.1
  rw [hc] at h ⊢
  exact h.2

/-! ## What the dispatcher and the store raise -/

theorem Val.requireHash_innocent {v : Val F} {e : Exc} (h : v.requireHash = .error e) : e.Innocent := by
  unfold Val.requireHash at h
  split at h
  · injection h with h
    subst h
    refine ⟨nofun, ?_⟩
    rw [String.append_assoc]
    exact head?_append_ne _ (by decide)
  · cases h

variable [Runtime F]

theorem checkStatus_innocent {status : Val F} {e : Exc} (h : checkStatus status = .error e) : e.Innocent := by
  unfold checkStatus at h
  cases hh : status.requireHash with
  | error e' =>
    rw [hh] at h
    injection h with h
    subst h
    exact Val.requireHash_innocent hh
  | ok u =>
    rw [hh] at h
    simp only [bind, Except.bind] at h
    split at h
    · cases h
    · cases h
    · injection h with h
      subst h
      exact ⟨nofun, head?_append_ne _ (by decide)⟩

theorem Incident.updated_innocent {tick : Val F} {fields : Dict F} {i : Incident F} {e : Exc}
    (h : i.updated tick fields = .error e) : e.Innocent := by
  unfold Incident.updated at h
  simp only [] at h
  split at h
  · injection h with h
    subst h
    exact ⟨ExcClass.noConfusion, head?_append_ne _ (by decide)⟩
  · cases hs : fields.get? "status" with
    | none =>
      rw [hs] at h
      cases h
    | some status =>
      rw [hs] at h
      cases hc : checkStatus status with
      | ok u =>
        simp only [hc] at h
        cases h
      | error e' =>
        simp only [hc] at h
        injection h with h
        subst h
        exact checkStatus_innocent hc

/-- Closing raises nothing; updating raises what `update` does. -/
theorem Incident.refiled_innocent {args : Dict F} {tick : Val F} {i : Incident F} {e : Exc}
    (h : i.refiled args tick = .error e) : e.Innocent := by
  unfold Incident.refiled at h
  split at h
  · cases h
  · exact updated_innocent h

theorem Val.toFloat_innocent {v : Val F} {e : Exc} (h : v.toFloat = .error e) : e.Innocent := by
  have helim : ∀ {o : Option F} {e' : Exc}, o.elim (.error e') Except.ok = .error e → e'.Innocent → e.Innocent := by
    intro o e' ho he'
    cases o with
    | none =>
      injection ho with ho
      exact ho ▸ he'
    | some x => cases ho
  have hother : v.toFloat = .error ⟨.typeError, "float() argument must be a string or a real number, not '" ++
      v.typeName ++ "'"⟩ → e.Innocent := by
    intro ho
    injection h.symm.trans ho with he
    subst he
    refine ⟨nofun, ?_⟩
    rw [String.append_assoc]
    exact head?_append_ne _ (by decide)
  cases v with
  | float x => cases h
  | bool b => exact helim h ⟨nofun, by decide⟩
  | int n => exact helim h ⟨nofun, by decide⟩
  | str s => exact helim h ⟨nofun, head?_append_ne _ (by decide)⟩
  | none => exact hother rfl
  | list xs => exact hother rfl
  | tuple xs => exact hother rfl
  | dict items => exact hother rfl
  | obj o => exact hother rfl

/-! ## Answers -/

/-- How a call that requires some arguments is answered: by what it reached outside, for want of an argument, or in a
way that reads otherwise. -/
inductive Answered (args : Dict F) (required : List String) :
    Option (Except Exc (Dict F)) → Except Exc (Dict F) → Prop
  | outside {r : Except Exc (Dict F)} (h : ∀ k ∈ required, args.get? k ≠ none) : Answered args required (some r) r
  | missing {k : String} (hk : k ∈ required) (h : args.get? k = none) :
      Answered args required none (.error (Val.keyError F k))
  | own {r : Except Exc (Dict F)} (h : ¬ ReadsAsMissing r) : Answered args required none r

/-- What a call gets from outside of the dispatcher: the outcome of the backend method it awaits, or of the debug log
after the record it names was rewritten. -/
def reached (tools : DispatchTools β F) (log : DebugLog β F) (w : World β F) (c : ToolCall F) :
    Option (Except Exc (Dict F)) :=
  if c.name = "building_to_coords" then
    (c.args.get? "building_id").map fun v => ((tools.buildingToCoords v).exec w.backend).1
  else if c.name = "travel_time" then
    some ((tools.travelTime (c.args.getD "from" (.dict [])) (c.args.getD "to" (.dict []))).exec w.backend).1
  else if c.name = "file_incident_update" then
    let iid := c.args.getD "incident_id" (.str "")
    (w.incidents.lookup iid).bind fun i => match i.refiled c.args c.tick with
      | .error _ => none
      | .ok i' => some (((log (w.incidents.put iid i')).exec w.backend).1.map fun _ => okReply)
  else if c.name = "dispatch" then
    let iid := c.args.getD "incident_id" (.str "")
    (w.incidents.lookup iid).bind fun _ => match dispatchArgs c.args with
      | .error _ => none
      | .ok (vehicleId, x, y) =>
        some ((tools.dispatch vehicleId iid x y (c.args.getD "rationale" (.str ""))).exec w.backend).1
  else none

theorem getItem_cases (args : Dict F) (k : String) :
    (∃ v, args.get? k = some v ∧ args.getItem k = .ok v) ∨
      args.get? k = none ∧ args.getItem k = .error (Val.keyError F k) := by
  unfold Dict.getItem
  cases args.get? k with
  | none => exact .inr ⟨rfl, rfl⟩
  | some v => exact .inl ⟨v, rfl, rfl⟩

/-- The arguments of `dispatch` are all given, or one is missing, or one is no number. -/
theorem dispatchArgs_cases (args : Dict F) :
    (∃ p, dispatchArgs args = .ok p ∧ ∀ k ∈ requiredArgs "dispatch", args.get? k ≠ none) ∨
      ∃ e, dispatchArgs args = .error e ∧ (e.Innocent ∨
        ∃ k ∈ requiredArgs "dispatch", args.get? k = none ∧ e = Val.keyError F k) := by
  unfold dispatchArgs
  simp only [bind, Except.bind]
  obtain ⟨v, hv, hv'⟩ | ⟨hv, hv'⟩ := getItem_cases args "vehicle_id"
  · obtain ⟨vx, hx, hx'⟩ | ⟨hx, hx'⟩ := getItem_cases args "x"
    · cases hfx : vx.toFloat with
      | error e => exact .inr ⟨e, by simp only [hv', hx', hfx], .inl (Val.toFloat_innocent hfx)⟩
      | ok x =>
        obtain ⟨vy, hy, hy'⟩ | ⟨hy, hy'⟩ := getItem_cases args "y"
        · cases hfy : vy.toFloat with
          | error e => exact .inr ⟨e, by simp only [hv', hx', hfx, hy', hfy], .inl (Val.toFloat_innocent hfy)⟩
          | ok y =>
            refine .inl ⟨(v, x, y), by simp only [hv', hx', hfx, hy', hfy]; rfl, fun k hk => ?_⟩
            have hk : k = "vehicle_id" ∨ k = "x" ∨ k = "y" := by simpa [requiredArgs] using hk
            rcases hk with rfl | rfl | rfl <;> simp [hv, hx, hy]
        · exact .inr ⟨_, by simp only [hv', hx', hfx, hy'], .inr ⟨"y", by decide, hy, rfl⟩⟩
    · exact .inr ⟨_, by simp only [hv', hx'], .inr ⟨"x", by decide, hx, rfl⟩⟩
  · exact .inr ⟨_, by simp only [hv'], .inr ⟨"vehicle_id", by decide, hv, rfl⟩⟩

theorem fileIncidentUpdate_answered (tools : DispatchTools β F) (log : DebugLog β F) (w : World β F) {c : ToolCall F}
    (hname : c.name = "file_incident_update") :
    Answered c.args (requiredArgs c.name) (reached tools log w c)
      ((fileIncidentUpdate log c.args c.tick).exec w).1 := by
  have hreq : requiredArgs c.name = [] := by rw [hname]; rfl
  have hr : reached tools log w c = (w.incidents.lookup (c.args.getD "incident_id" (.str ""))).bind fun i =>
      match i.refiled c.args c.tick with
        | .error _ => none
        | .ok i' => some (((log (w.incidents.put (c.args.getD "incident_id" (.str "")) i')).exec w.backend).1.map
            fun _ => okReply) := by
    simp only [reached, hname]
    rfl
  rw [exec_fileIncidentUpdate log rfl, hr, hreq]
  cases hh : (c.args.getD "incident_id" (.str "")).requireHash with
  | error e =>
    rw [IncidentStore.lookup_of_unhashable hh]
    exact .own (Val.requireHash_innocent hh).not_readsAsMissing
  | ok u =>
    cases hl : w.incidents.lookup (c.args.getD "incident_id" (.str "")) with
    | none => exact .own (not_readsAsMissing_errorReply (head?_append_ne _ (by decide)))
    | some i =>
      simp only [Option.bind_some]
      cases hi : i.refiled c.args c.tick with
      | error e => exact .own (Incident.refiled_innocent hi).not_readsAsMissing
      | ok i' => exact .outside nofun

theorem dispatchTruck_answered (tools : DispatchTools β F) (log : DebugLog β F) (w : World β F) {c : ToolCall F}
    (hname : c.name = "dispatch") :
    Answered c.args (requiredArgs c.name) (reached tools log w c) ((dispatchTruck tools c.args).exec w).1 := by
  have hr : reached tools log w c = (w.incidents.lookup (c.args.getD "incident_id" (.str ""))).bind fun _ =>
      match dispatchArgs c.args with
        | .error _ => none
        | .ok (vehicleId, x, y) => some ((tools.dispatch vehicleId (c.args.getD "incident_id" (.str "")) x y
            (c.args.getD "rationale" (.str ""))).exec w.backend).1 := by
    simp only [reached, hname]
    rfl
  rw [exec_dispatchTruck tools rfl rfl, hr, hname]
  cases hh : (c.args.getD "incident_id" (.str "")).requireHash with
  | error e =>
    rw [IncidentStore.lookup_of_unhashable hh]
    exact .own (Val.requireHash_innocent hh).not_readsAsMissing
  | ok u =>
    cases hl : w.incidents.lookup (c.args.getD "incident_id" (.str "")) with
    | none =>
      refine .own (not_readsAsMissing_errorReply ?_)
      rw [unfiled, String.append_assoc]
      exact head?_append_ne _ (by decide)
    | some i =>
      simp only [Option.bind_some]
      obtain ⟨p, hp, hgiven⟩ | ⟨e, he, hraised⟩ := dispatchArgs_cases c.args
      · rw [hp]
        exact .outside hgiven
      · rw [he]
        rcases hraised with hin | ⟨k, hk, hnone, rfl⟩
        · exact .own hin.not_readsAsMissing
        · exact .missing hk hnone

/-- **Every call is answered in one of the three ways.** -/
theorem callTool_answered (tools : DispatchTools β F) (log : DebugLog β F) (w : World β F) (c : ToolCall F) :
    Answered c.args (requiredArgs c.name) (reached tools log w c)
      ((callTool tools log c.name c.args c.tick).exec w).1 := by
  unfold callTool
  split
  · next hname =>
    have hr : reached tools log w c =
        (c.args.get? "building_id").map fun v => ((tools.buildingToCoords v).exec w.backend).1 := if_pos hname
    have hreq : requiredArgs c.name = ["building_id"] := if_pos hname
    rw [Py.exec_bind, Py.exec_lift, hr, hreq]
    obtain ⟨v, hv, hv'⟩ | ⟨hv, hv'⟩ := getItem_cases c.args "building_id"
    · rw [hv, hv']
      simp only [exec_onBackend, Option.map_some]
      refine .outside fun k hk => ?_
      rw [List.mem_singleton.mp hk, hv]
      exact Option.some_ne_none v
    · rw [hv, hv']
      exact .missing (List.mem_singleton_self _) hv
  · next hbuilding =>
    split
    · next hname =>
      have hr : reached tools log w c = some ((tools.travelTime (c.args.getD "from" (.dict []))
          (c.args.getD "to" (.dict []))).exec w.backend).1 := by
        simp only [reached, hname]
        rfl
      have hreq : requiredArgs c.name = [] := by rw [hname]; rfl
      rw [exec_onBackend, hr, hreq]
      exact .outside fun k hk => absurd hk List.not_mem_nil
    · next htravel =>
      split
      · next hname => exact fileIncidentUpdate_answered tools log w hname
      · next hfile =>
        split
        · next hname => exact dispatchTruck_answered tools log w hname
        · next hdispatch =>
          have hr : reached tools log w c = none := by
            simp only [reached, if_neg hbuilding, if_neg htravel, if_neg hfile, if_neg hdispatch]
          rw [hr]
          exact .own (not_readsAsMissing_errorReply (head?_append_ne c.name (by decide)))

/-- **A `missing argument` reply blames the model rightly** exactly when what the call reaches outside, if anything,
does not read as one. -/
theorem missing_argument_iff (tools : DispatchTools β F) (log : DebugLog β F) (w : World β F) (c : ToolCall F) :
    (∀ t, (w.step tools log c).1 = missingReply t →
      ∃ k ∈ requiredArgs c.name, t = Val.reprStr F k ∧ c.args.get? k = none) ↔
      ∀ r, reached tools log w c = some r → ¬ ReadsAsMissing r := by
  have h := callTool_answered tools log w c
  rw [step_eq]
  generalize ((callTool tools log c.name c.args c.tick).exec w).1 = r at h ⊢
  generalize reached tools log w c = outside at h ⊢
  cases h with
  | outside hgiven =>
    constructor
    · intro hblame r' hr' hreads
      cases hr'
      obtain ⟨t, ht⟩ := readsAsMissing_iff.mp hreads
      obtain ⟨k, hk, -, hnone⟩ := hblame t ht
      exact hgiven k hk hnone
    · intro hquiet t ht
      exact absurd (readsAsMissing_iff.mpr ⟨t, ht⟩) (hquiet _ rfl)
  | @missing k hk hnone =>
    refine iff_of_true (fun t ht => ⟨k, hk, ?_, hnone⟩) nofun
    have hreply : (toolFailure (Val.keyError F k) : Dict F) = missingReply (Val.reprStr F k) :=
      toolFailure_of_keyError (e := Val.keyError F k) rfl
    exact (missingReply_injective (hreply.symm.trans ht)).symm
  | own hown => exact iff_of_true (fun t ht => absurd (readsAsMissing_iff.mpr ⟨t, ht⟩) hown) nofun

/-! ## The engine leaves out a location -/

/-- A session whose answers are empty. -/
def Session.blank : Session Unit Whole := ⟨fun _ _ => pure ⟨false, some .empty⟩⟩

/-- A session of the dispatcher in a new episode. -/
def blankWorld : World (Episode Unit Whole) Whole := ⟨.empty, .empty, .fresh () false none none⟩

/-- A call that gives the one argument it requires. -/
def locate : ToolCall Whole := ⟨"building_to_coords", .ofList [("building_id", .str "b-1")], .int 1⟩

/-- The engine's answer has no `point`, and the model is told that it left one out. -/
theorem missing_argument_blank :
    ¬ ∀ t, (blankWorld.step (Episode.tools .blank) noLog locate).1 = missingReply t →
      ∃ k ∈ requiredArgs locate.name, t = Val.reprStr Whole k ∧ locate.args.get? k = none := by
  intro hblame
  obtain ⟨k, hk, -, hnone⟩ := hblame "'point'" rfl
  cases List.mem_singleton.mp hk
  cases hnone

end HadrAgent
