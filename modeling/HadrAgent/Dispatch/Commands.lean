import HadrAgent.Dispatch.Effects

/-!
# Issued commands

A backend that writes down the dispatch commands it is given (`DispatchTools.recorded`), and what the tool executor
issues to it: every command names an incident on file, the result lists exactly the accepted ones, and a call without
its arguments issues none (`commands_of_run`).
-/

namespace HadrAgent

/-- A dispatch command given to the backend, and what came back. -/
structure Command (F : Type) where
  vehicleId : Val F
  incidentId : Val F
  x : F
  y : F
  rationale : Val F
  reply : Except Exc (Dict F)

namespace Command

variable {F : Type}

/-- The entry an accepted command makes in the result. -/
def entry (q : Command F) : Dict F := dispatchEntry q.vehicleId q.incidentId q.rationale

/-- Whether the reply had a truthy `accepted`. -/
def accepted [Runtime F] (q : Command F) : Bool :=
  match q.reply with
  | .ok out => (out.getD "accepted" .none).truthy
  | .error _ => false

theorem acceptedEntries_eq [Runtime F] (q : Command F) :
    acceptedEntries q.vehicleId q.incidentId q.rationale q.reply = ([q].filter accepted).map entry := by
  unfold acceptedEntries
  cases hr : q.reply with
  | error e =>
    have ha : q.accepted = false := by simp only [accepted, hr]
    simp [ha]
  | ok out =>
    have ha : q.accepted = (out.getD "accepted" .none).truthy := by simp only [accepted, hr]
    simp only [List.filter_singleton, ha]
    cases (out.getD "accepted" .none).truthy <;> rfl

end Command

section Recorded

variable {β F : Type}

/-- The backend with a record of its dispatch commands. -/
def DispatchTools.recorded (tools : DispatchTools β F) : DispatchTools (β × List (Command F)) F where
  buildingToCoords v := (tools.buildingToCoords v).zoom Prod.fst fun b p => (b, p.2)
  travelTime v v' := (tools.travelTime v v').zoom Prod.fst fun b p => (b, p.2)
  dispatch vehicleId incidentId x y rationale := fun p =>
    match tools.dispatch vehicleId incidentId x y rationale p.1 with
    | .ok out b => .ok out (b, p.2 ++ [⟨vehicleId, incidentId, x, y, rationale, .ok out⟩])
    | .error e b => .error e (b, p.2 ++ [⟨vehicleId, incidentId, x, y, rationale, .error e⟩])

/-- The log next to the record. -/
def DebugLog.recorded (log : DebugLog β F) : DebugLog (β × List (Command F)) F :=
  fun s => (log s).zoom Prod.fst fun b p => (b, p.2)

theorem exec_recorded_dispatch (tools : DispatchTools β F) (vehicleId incidentId : Val F) (x y : F)
    (rationale : Val F) (p : β × List (Command F)) :
    (tools.recorded.dispatch vehicleId incidentId x y rationale).exec p =
      (((tools.dispatch vehicleId incidentId x y rationale).exec p.1).1,
        (((tools.dispatch vehicleId incidentId x y rationale).exec p.1).2, p.2 ++
          [⟨vehicleId, incidentId, x, y, rationale, ((tools.dispatch vehicleId incidentId x y rationale).exec p.1).1⟩]))
    := by
  unfold Py.exec DispatchTools.recorded
  cases h : tools.dispatch vehicleId incidentId x y rationale p.1 <;> simp only [h]

variable [Runtime F]

/-- The arguments of a call that cannot become a command: no number for a coordinate, no vehicle, or an incident that is
not on file. -/
def Unissuable (s : IncidentStore F) (args : Dict F) : Prop :=
  (∀ v x, args.get? "x" = some v → v.toFloat ≠ .ok x) ∨ (∀ v y, args.get? "y" = some v → v.toFloat ≠ .ok y) ∨
    args.get? "vehicle_id" = none ∨ ∀ i, s.get (args.getD "incident_id" (.str "")) ≠ .ok (some i)

theorem getItem_eq_ok {d : Dict F} {k : String} {v : Val F} (h : d.getItem k = .ok v) : d.get? k = some v := by
  unfold Dict.getItem at h
  cases hv : d.get? k with
  | none => rw [hv] at h; cases h
  | some v' => rw [hv] at h; exact congrArg some (Except.ok.inj h)

theorem dispatchArgs_eq_ok {args : Dict F} {vehicleId : Val F} {x y : F}
    (h : dispatchArgs args = .ok (vehicleId, x, y)) :
    args.get? "vehicle_id" = some vehicleId ∧ (∃ v, args.get? "x" = some v ∧ v.toFloat = .ok x) ∧
      ∃ v, args.get? "y" = some v ∧ v.toFloat = .ok y := by
  unfold dispatchArgs at h
  obtain ⟨v, hv, h⟩ := Except.bind_eq_ok.mp h
  obtain ⟨vx, hvx, h⟩ := Except.bind_eq_ok.mp h
  obtain ⟨x', hx, h⟩ := Except.bind_eq_ok.mp h
  obtain ⟨vy, hvy, h⟩ := Except.bind_eq_ok.mp h
  obtain ⟨y', hy, h⟩ := Except.bind_eq_ok.mp h
  cases h
  exact ⟨getItem_eq_ok hv, ⟨vx, getItem_eq_ok hvx, hx⟩, ⟨vy, getItem_eq_ok hvy, hy⟩⟩

/-- **One call**: at most one command, on an incident that is on file, from a call that has its arguments; the result
lists it when it was accepted. -/
theorem step_commands (tools : DispatchTools β F) (log : DebugLog β F) (w : World (β × List (Command F)) F)
    (c : ToolCall F) :
    ∃ issued, (w.step tools.recorded (DebugLog.recorded log) c).2.backend.2 = w.backend.2 ++ issued ∧
      (w.step tools.recorded (DebugLog.recorded log) c).2.result.dispatches =
        w.result.dispatches ++ (issued.filter Command.accepted).map Command.entry ∧
      issued.length ≤ 1 ∧ ∀ q ∈ issued, (∃ i, w.incidents.get q.incidentId = .ok (some i)) ∧
        ¬ Unissuable w.incidents c.args := by
  have heff := callTool_effect tools.recorded (DebugLog.recorded log) w c
  rw [step_eq]
  generalize (callTool tools.recorded (DebugLog.recorded log) c.name c.args c.tick).exec w = r at heff ⊢
  cases heff with
  | quiet hr => exact ⟨[], by simp, by simp, by simp, nofun⟩
  | asked hname hm =>
    refine ⟨[], ?_, by simp, by simp, nofun⟩
    rcases hm with ⟨v, rfl⟩ | ⟨v, v', rfl⟩
    · simp [DispatchTools.recorded]
    · simp [DispatchTools.recorded]
  | refiled hname hid hi hi' hs => exact ⟨[], by simp [DebugLog.recorded], by simp, by simp, nofun⟩
  | @dispatched id i vehicleId rationale x y r b hname hid hi hargs hrat hr =>
    rw [exec_recorded_dispatch] at hr
    obtain ⟨rfl, rfl⟩ := Prod.mk.inj hr
    refine ⟨[_], rfl, ?_, by simp, fun q hq => ?_⟩
    · rw [← Command.acceptedEntries_eq]
    · rw [List.mem_singleton.mp hq]
      refine ⟨⟨i, IncidentStore.get_of_get? hi⟩, ?_⟩
      obtain ⟨hv, ⟨vx, hx, hx'⟩, ⟨vy, hy, hy'⟩⟩ := dispatchArgs_eq_ok hargs
      rintro (h | h | h | h)
      · exact h vx x hx hx'
      · exact h vy y hy hy'
      · rw [hv] at h
        cases h
      · rw [hid] at h
        exact h i (IncidentStore.get_of_get? hi)

/-- An incident on file stays on file. -/
theorem get_step (tools : DispatchTools β F) (log : DebugLog β F) {w : World β F} {v : Val F}
    (h : ∃ i, w.incidents.get v = .ok (some i)) (c : ToolCall F) :
    ∃ i, (w.step tools log c).2.incidents.get v = .ok (some i) := by
  obtain ⟨i, hi⟩ := h
  obtain ⟨id, rfl, hid⟩ := IncidentStore.exists_str_of_get hi
  rcases step_incidents tools log w c with he | ⟨id', j, j', _, _, hj, _, he⟩
  · rw [he]
    exact ⟨i, hi⟩
  · have hk : id ∈ (w.step tools log c).2.incidents.byId.keys := by
      rw [he]
      simp only [OrdDict.keys_insert_of_mem (OrdDict.mem_keys_of_get? hj)]
      exact OrdDict.mem_keys_of_get? hid
    obtain ⟨i', hi'⟩ := OrdDict.exists_get?_of_mem hk
    exact ⟨i', IncidentStore.get_of_get? hi'⟩

theorem get_final (tools : DispatchTools β F) (log : DebugLog β F) {w : World β F} {v : Val F}
    (h : ∃ i, w.incidents.get v = .ok (some i)) (calls : List (ToolCall F)) :
    ∃ i, (Runs.final (World.step tools log) w calls).incidents.get v = .ok (some i) :=
  Runs.final_induction (I := fun w : World β F => ∃ i, w.incidents.get v = .ok (some i))
    (fun _ c _ h => get_step tools log h c) h

/-- Along a run the record of the backend and the list of the result grow together. -/
theorem final_commands (tools : DispatchTools β F) (log : DebugLog β F) (calls : List (ToolCall F)) :
    ∀ w : World (β × List (Command F)) F,
      ∃ issued, (Runs.final (World.step tools.recorded (DebugLog.recorded log)) w calls).backend.2 =
          w.backend.2 ++ issued ∧
        (Runs.final (World.step tools.recorded (DebugLog.recorded log)) w calls).result.dispatches =
          w.result.dispatches ++ (issued.filter Command.accepted).map Command.entry := by
  induction calls with
  | nil => intro w; exact ⟨[], by simp, by simp⟩
  | cons c calls ih =>
    intro w
    obtain ⟨issued, hb, hd, _⟩ := step_commands tools log w c
    obtain ⟨later, hb', hd'⟩ := ih (w.step tools.recorded (DebugLog.recorded log) c).2
    refine ⟨issued ++ later, ?_, ?_⟩
    · rw [Runs.final_cons, hb', hb, List.append_assoc]
    · rw [Runs.final_cons, hd', hd, List.filter_append, List.map_append, List.append_assoc]

/-- The session after calls, with the record of the commands. -/
def afterCalls (tools : DispatchTools β F) (log : DebugLog β F) (incidents : IncidentStore F)
    (result : DispatchResult F) (backend : β) (calls : List (ToolCall F)) : World (β × List (Command F)) F :=
  Runs.final (World.step tools.recorded (DebugLog.recorded log)) ⟨incidents, result, (backend, [])⟩ calls

/-- **Only filed incidents are dispatched to**, over every run of tool calls and every backend: (a) and (c) a call
adds at most one command; its incident is on file when it is issued and at the end; a call that lacks an argument, or
names an unfiled incident, adds none. (b) The result grows by the entries of the accepted commands, in their order. -/
theorem commands_of_run (tools : DispatchTools β F) (log : DebugLog β F) (incidents : IncidentStore F)
    (result : DispatchResult F) (backend : β) (calls : List (ToolCall F)) :
    (∀ pre c post, calls = pre ++ c :: post → ∃ issued : List (Command F),
      (afterCalls tools log incidents result backend (pre ++ [c])).backend.2 =
        (afterCalls tools log incidents result backend pre).backend.2 ++ issued ∧ issued.length ≤ 1 ∧
      (∀ q ∈ issued,
        (∃ i, (afterCalls tools log incidents result backend pre).incidents.get q.incidentId = .ok (some i)) ∧
        ∃ i, (afterCalls tools log incidents result backend calls).incidents.get q.incidentId = .ok (some i)) ∧
      (Unissuable (afterCalls tools log incidents result backend pre).incidents c.args → issued = [])) ∧
    (afterCalls tools log incidents result backend calls).result.dispatches = result.dispatches ++
      ((afterCalls tools log incidents result backend calls).backend.2.filter Command.accepted).map Command.entry := by
  constructor
  · rintro pre c post rfl
    obtain ⟨issued, hb, _, hlen, hq⟩ := step_commands tools log (afterCalls tools log incidents result backend pre) c
    refine ⟨issued, ?_, hlen, fun q hm => ⟨(hq q hm).1, ?_⟩, fun hu => ?_⟩
    · rw [afterCalls, Runs.final_append]
      exact hb
    · rw [afterCalls, Runs.final_append]
      exact get_final _ _ (hq q hm).1 _
    · rw [List.eq_nil_iff_forall_not_mem]
      exact fun q hm => (hq q hm).2 hu
  · obtain ⟨issued, hb, hd⟩ := final_commands tools log calls ⟨incidents, result, (backend, [])⟩
    rw [afterCalls, hd, hb]
    rfl

end Recorded

end HadrAgent
