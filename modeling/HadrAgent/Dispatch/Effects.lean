import HadrAgent.Dispatch.RunTool

/-!
# What the tools do

- `exec_fileIncidentUpdate`, `exec_dispatchTruck`: the two tools that touch the session;
- `step_incidents`: a call leaves the store alone or rewrites the one record it names.
-/

namespace HadrAgent

variable {β F : Type}

theorem exec_onBackend {α : Type} (m : Py β α) (w : World β F) :
    (onBackend m).exec w = ((m.exec w.backend).1, { w with backend := (m.exec w.backend).2 }) := Py.exec_zoom ..

theorem exec_logged {α : Type} (log : DebugLog β F) (m : Py (IncidentStore F) α) (w : World β F) :
    (logged log m).exec w = match m.exec w.incidents with
      | (.error e, s) => (.error e, { w with incidents := s })
      | (.ok a, s) => (((log s).exec w.backend).1.map fun _ => a,
          { w with incidents := s, backend := ((log s).exec w.backend).2 }) := by
  simp only [logged, Py.exec_bind, Py.exec_zoom, Py.exec_get, exec_onBackend, Py.exec_pure]
  cases hm : m.exec w.incidents with
  | mk r s =>
    cases r with
    | error e => rfl
    | ok a =>
      cases hl : (log s).exec w.backend with
      | mk r b => cases r <;> simp [hl, Except.map]

theorem updateFields_keys {args : Dict F} {name : String} (h : name ∈ (updateFields args).keys) :
    name = "status" ∨ name = "notes" := by
  obtain ⟨p, hp, rfl⟩ := List.mem_map.mp h
  have hf := (List.mem_filter.mp hp).2
  simp only [Bool.and_eq_true, Bool.or_eq_true, decide_eq_true_eq] at hf
  exact hf.1

theorem errorReply_ne_okReply (text : String) : (errorReply text : Dict F) ≠ okReply := fun h => by
  have hk : ["error"] = ["ok"] := congrArg OrdDict.keys h
  exact absurd hk (by decide)

/-- The reply that an outcome becomes. -/
def replyOf : Except Exc (Dict F) → Dict F
  | .ok reply => reply
  | .error e => toolFailure e

theorem toolFailure_ne_okReply (e : Exc) : (toolFailure e : Dict F) ≠ okReply := by
  unfold toolFailure
  split <;> exact errorReply_ne_okReply _

theorem replyOf_ne_okReply {r : Except Exc (Dict F)} (h : r ≠ .ok okReply) : replyOf r ≠ okReply := by
  cases r with
  | ok reply => exact fun e => h (congrArg Except.ok e)
  | error e => exact toolFailure_ne_okReply e

variable [Runtime F]

/-- Whether the arguments of `file_incident_update` close the incident. -/
def closing (args : Dict F) : Bool := ((updateFields args).getD "status" .none).eq (.str "closed")

/-- The reason `file_incident_update` gives. -/
def closingReason (args : Dict F) : Val F :=
  if ((updateFields args).getD "notes" .none).truthy then (updateFields args).getD "notes" .none
  else .str "closed by dispatch"

/-- What `file_incident_update` makes of the record it names. -/
def Incident.refiled (args : Dict F) (tick : Val F) (i : Incident F) : Except Exc (Incident F) :=
  if closing args then .ok (i.closed (closingReason args) tick) else i.updated tick (updateFields args)

/-- A logged mutator on a record of the store, and the reply after it. -/
theorem exec_logged_act {log : DebugLog β F} {m : Py (IncidentStore F) (Incident F)} {w : World β F} {iid : Val F}
    {i : Incident F} {f : Incident F → Except Exc (Incident F)} (hm : m.exec w.incidents = w.incidents.act iid f)
    (hh : iid.requireHash = .ok ()) (hl : w.incidents.lookup iid = some i) (reply : Dict F) :
    (logged log m >>= fun _ => pure reply : Py (World β F) (Dict F)).exec w = match f i with
      | .error e => (.error e, w)
      | .ok i' =>
        let s := w.incidents.put iid i'
        (((log s).exec w.backend).1.map fun _ => reply,
          { w with incidents := s, backend := ((log s).exec w.backend).2 }) := by
  rw [Py.exec_bind, exec_logged, hm]
  simp only [IncidentStore.act, hh, hl]
  cases f i with
  | error e => rfl
  | ok i' =>
    simp only [Py.exec_pure]
    cases ((log (w.incidents.put iid i')).exec w.backend).1 <;> rfl

/-- **`file_incident_update`** raises or refuses before it writes, or rewrites the record it names. -/
theorem exec_fileIncidentUpdate (log : DebugLog β F) {args : Dict F} {iid : Val F}
    (hid : args.getD "incident_id" (.str "") = iid) (tick : Val F) (w : World β F) :
    (fileIncidentUpdate log args tick).exec w = match iid.requireHash with
      | .error e => (.error e, w)
      | .ok () => match w.incidents.lookup iid with
        | none => (.ok (errorReply ("no such incident " ++ iid.toStr)), w)
        | some i => match i.refiled args tick with
          | .error e => (.error e, w)
          | .ok i' =>
            let s := w.incidents.put iid i'
            (((log s).exec w.backend).1.map fun _ => okReply,
              { w with incidents := s, backend := ((log s).exec w.backend).2 }) := by
  subst hid
  simp only [fileIncidentUpdate, Py.exec_bind, Py.exec_get, Py.exec_lift]
  generalize args.getD "incident_id" (.str "") = iid
  cases hh : iid.requireHash with
  | error e => simp only [IncidentStore.get_of_unhashable hh]
  | ok u =>
    simp only [IncidentStore.get_of_hashable hh]
    cases hl : w.incidents.lookup iid with
    | none => rfl
    | some i =>
      unfold Incident.refiled closing
      by_cases hc : ((updateFields args).getD "status" .none).eq (.str "closed") = true
      · simp only [if_pos hc]
        exact exec_logged_act (IncidentStore.exec_close ..) hh hl okReply
      · have hown : bindOwn "IncidentStore.update" updateParams (updateFields args) = .ok () :=
          bindOwn_of_notMem fun name hn => by rcases updateFields_keys hn with rfl | rfl <;> decide
        have hm := IncidentStore.exec_update iid tick (updateFields args) w.incidents
        rw [hown] at hm
        simp only [if_neg hc]
        exact exec_logged_act hm hh hl okReply

/-- The arguments `dispatch` needs besides the incident. -/
def dispatchArgs (args : Dict F) : Except Exc (Val F × F × F) := do
  let vehicleId ← args.getItem "vehicle_id"
  let x ← (← args.getItem "x").toFloat
  let y ← (← args.getItem "y").toFloat
  return (vehicleId, x, y)

/-- A computation that reads these arguments first. -/
theorem exec_dispatchArgs {σ α : Type} (args : Dict F) (k : Val F → F → F → Py σ α) (w : σ) :
    (do
      let vehicleId ← args.getItem "vehicle_id"
      let x ← (← args.getItem "x").toFloat
      let y ← (← args.getItem "y").toFloat
      k vehicleId x y : Py σ α).exec w = match dispatchArgs args with
        | .error e => (.error e, w)
        | .ok (vehicleId, x, y) => (k vehicleId x y).exec w := by
  simp only [dispatchArgs, Py.exec_bind, Py.exec_lift]
  cases args.getItem "vehicle_id" with
  | error e => rfl
  | ok vehicleId =>
    cases args.getItem "x" with
    | error e => rfl
    | ok vx =>
      simp only [bind, Except.bind]
      cases vx.toFloat with
      | error e => rfl
      | ok x =>
        cases args.getItem "y" with
        | error e => rfl
        | ok vy =>
          simp only []
          cases vy.toFloat with
          | error e => rfl
          | ok y => rfl

/-- What a dispatch command adds to the result. -/
def acceptedEntries (vehicleId incidentId rationale : Val F) : Except Exc (Dict F) → List (Dict F)
  | .ok out => if (out.getD "accepted" .none).truthy then [dispatchEntry vehicleId incidentId rationale] else []
  | .error _ => []

/-- **`dispatch`** refuses or raises without a command, or issues one and records it when it was accepted. -/
theorem exec_dispatchTruck (tools : DispatchTools β F) {args : Dict F} {iid rationale : Val F}
    (hid : args.getD "incident_id" (.str "") = iid) (hrat : args.getD "rationale" (.str "") = rationale)
    (w : World β F) :
    (dispatchTruck tools args).exec w = match iid.requireHash with
      | .error e => (.error e, w)
      | .ok () => match w.incidents.lookup iid with
        | none => (.ok (errorReply (unfiled iid)), w)
        | some _ => match dispatchArgs args with
          | .error e => (.error e, w)
          | .ok (vehicleId, x, y) =>
            let r := (tools.dispatch vehicleId iid x y rationale).exec w.backend
            (r.1, { w with
              backend := r.2
              result := { w.result with
                dispatches := w.result.dispatches ++ acceptedEntries vehicleId iid rationale r.1 } }) := by
  subst hid hrat
  simp only [dispatchTruck, Py.exec_bind, Py.exec_get, Py.exec_lift]
  generalize args.getD "incident_id" (.str "") = iid
  generalize args.getD "rationale" (.str "") = rationale
  cases hh : iid.requireHash with
  | error e => simp only [IncidentStore.get_of_unhashable hh]
  | ok u =>
    simp only [IncidentStore.get_of_hashable hh]
    cases hl : w.incidents.lookup iid with
    | none => rfl
    | some i =>
      refine (exec_dispatchArgs args _ w).trans ?_
      cases dispatchArgs args with
      | error e => rfl
      | ok p =>
        obtain ⟨vehicleId, x, y⟩ := p
        simp only [Py.exec_bind, exec_onBackend]
        cases ((tools.dispatch vehicleId iid x y rationale).exec w.backend).1 with
        | error e => simp only [acceptedEntries, List.append_nil]
        | ok out =>
          simp only [acceptedEntries]
          by_cases ha : (out.getD "accepted" .none).truthy = true
          · simp only [if_pos ha]
            rfl
          · simp only [if_neg ha, List.append_nil]
            rfl

/-! ## Calls -/

/-- What a tool call may do: an outcome and the session after it. -/
inductive ToolEffect (tools : DispatchTools β F) (log : DebugLog β F) (c : ToolCall F) (w : World β F) :
    Except Exc (Dict F) × World β F → Prop
  /-- Nothing: it refused, or raised before it did anything. -/
  | quiet {r : Except Exc (Dict F)} (hr : r ≠ .ok okReply) : ToolEffect tools log c w (r, w)
  /-- It asked the backend for a location or a travel time. -/
  | asked {m : Py β (Dict F)} (hname : c.name ≠ "file_incident_update")
      (hm : (∃ v, m = tools.buildingToCoords v) ∨ ∃ v v', m = tools.travelTime v v') :
      ToolEffect tools log c w ((m.exec w.backend).1, { w with backend := (m.exec w.backend).2 })
  /-- It rewrote a record, and logged that. -/
  | refiled {id : String} {i i' : Incident F} {s : IncidentStore F} (hname : c.name = "file_incident_update")
      (hid : c.args.getD "incident_id" (.str "") = .str id) (hi : w.incidents.byId.get? id = some i)
      (hi' : i.refiled c.args c.tick = .ok i') (hs : s = w.incidents.put (.str id) i') :
      ToolEffect tools log c w (((log s).exec w.backend).1.map fun _ => okReply,
        { w with incidents := s, backend := ((log s).exec w.backend).2 })
  /-- It issued a dispatch command, and recorded it when it was accepted. -/
  | dispatched {id : String} {i : Incident F} {vehicleId rationale : Val F} {x y : F} {r : Except Exc (Dict F)} {b : β}
      (hname : c.name = "dispatch") (hid : c.args.getD "incident_id" (.str "") = .str id)
      (hi : w.incidents.byId.get? id = some i) (hargs : dispatchArgs c.args = .ok (vehicleId, x, y))
      (hrat : c.args.getD "rationale" (.str "") = rationale)
      (hr : (tools.dispatch vehicleId (.str id) x y rationale).exec w.backend = (r, b)) :
      ToolEffect tools log c w (r, { w with
        backend := b
        result := { w.result with
          dispatches := w.result.dispatches ++ acceptedEntries vehicleId (.str id) rationale r } })

theorem fileIncidentUpdate_effect (tools : DispatchTools β F) (log : DebugLog β F) (w : World β F) {c : ToolCall F}
    (hname : c.name = "file_incident_update") :
    ToolEffect tools log c w ((fileIncidentUpdate log c.args c.tick).exec w) := by
  rw [exec_fileIncidentUpdate log rfl]
  cases (c.args.getD "incident_id" (.str "")).requireHash with
  | error e => exact .quiet nofun
  | ok u =>
    cases hl : w.incidents.lookup (c.args.getD "incident_id" (.str "")) with
    | none => exact .quiet fun h => errorReply_ne_okReply _ (Except.ok.inj h)
    | some i =>
      obtain ⟨id, hid, hi⟩ := IncidentStore.exists_str_of_lookup hl
      simp only [hid]
      cases hi' : i.refiled c.args c.tick with
      | error e => exact .quiet nofun
      | ok i' => exact .refiled hname hid hi hi' rfl

theorem dispatchTruck_effect (tools : DispatchTools β F) (log : DebugLog β F) (w : World β F) {c : ToolCall F}
    (hname : c.name = "dispatch") : ToolEffect tools log c w ((dispatchTruck tools c.args).exec w) := by
  rw [exec_dispatchTruck tools rfl rfl]
  cases (c.args.getD "incident_id" (.str "")).requireHash with
  | error e => exact .quiet nofun
  | ok u =>
    cases hl : w.incidents.lookup (c.args.getD "incident_id" (.str "")) with
    | none => exact .quiet fun h => errorReply_ne_okReply _ (Except.ok.inj h)
    | some i =>
      obtain ⟨id, hid, hi⟩ := IncidentStore.exists_str_of_lookup hl
      simp only [hid]
      cases ha : dispatchArgs c.args with
      | error e => exact .quiet nofun
      | ok args => exact .dispatched hname hid hi ha rfl rfl

/-- **What a call does**: one of the four effects. -/
theorem callTool_effect (tools : DispatchTools β F) (log : DebugLog β F) (w : World β F) (c : ToolCall F) :
    ToolEffect tools log c w ((callTool tools log c.name c.args c.tick).exec w) := by
  unfold callTool
  split
  · next hname =>
    rw [Py.exec_bind, Py.exec_lift]
    cases c.args.getItem "building_id" with
    | error e => exact .quiet nofun
    | ok v =>
      simp only [exec_onBackend]
      exact .asked (by rw [hname]; decide) (.inl ⟨v, rfl⟩)
  · split
    · next hname =>
      rw [exec_onBackend]
      exact .asked (by rw [hname]; decide) (.inr ⟨_, _, rfl⟩)
    · split
      · next hname => exact fileIncidentUpdate_effect tools log w hname
      · split
        · next hname => exact dispatchTruck_effect tools log w hname
        · exact .quiet fun h => errorReply_ne_okReply _ (Except.ok.inj h)

theorem step_eq (tools : DispatchTools β F) (log : DebugLog β F) (w : World β F) (c : ToolCall F) :
    w.step tools log c = (replyOf ((callTool tools log c.name c.args c.tick).exec w).1,
      ((callTool tools log c.name c.args c.tick).exec w).2) := by
  unfold World.step runTool
  cases h : (callTool tools log c.name c.args c.tick).exec w with
  | mk r w' => cases r <;> rfl

/-- **The store after a call**: as it was, or with the record named rewritten. -/
theorem step_incidents (tools : DispatchTools β F) (log : DebugLog β F) (w : World β F) (c : ToolCall F) :
    (w.step tools log c).2.incidents = w.incidents ∨
      ∃ id i i', c.name = "file_incident_update" ∧ c.args.getD "incident_id" (.str "") = .str id ∧
        w.incidents.byId.get? id = some i ∧ i.refiled c.args c.tick = .ok i' ∧
        (w.step tools log c).2.incidents = { w.incidents with byId := w.incidents.byId.insert id i' } := by
  have heff := callTool_effect tools log w c
  rw [step_eq]
  generalize (callTool tools log c.name c.args c.tick).exec w = r at heff ⊢
  cases heff with
  | quiet hr => exact .inl rfl
  | asked hname hm => exact .inl rfl
  | refiled hname hid hi hi' hs => exact .inr ⟨_, _, _, hname, hid, hi, hi', hs⟩
  | dispatched hname hid hi hargs hrat hr => exact .inl rfl

end HadrAgent
