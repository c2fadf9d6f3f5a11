import HadrAgent.Dispatch.WriteAuthority

/-!
# Reasons of closed incidents

The agent opens, links and closes incidents itself and lets the model update them through its tools. Since the tool
executor routes a closing request to `close`, every closed incident has a reason (`closed_with_reason`).
-/

namespace HadrAgent

variable {β F : Type} [Runtime F]

/-- A step of the running agent: a call of a mutator, or a tool call of the model. -/
inductive AgentStep (F : Type) where
  | store (c : IncidentCall F)
  | tool (c : ToolCall F)

namespace AgentStep

/-- What the agent itself calls: `open`, `link`, and `close` with a reason; the model may call what it likes. -/
def Reasoned : AgentStep F → Prop
  | store (.openIncident ..) => True
  | store (.link ..) => True
  | store (.close _ reason _) => reason.truthy = true
  | store (.update ..) => False
  | tool _ => True

instance (a : AgentStep F) : Decidable a.Reasoned :=
  match a with
  | store (.openIncident ..) => inferInstanceAs (Decidable True)
  | store (.link ..) => inferInstanceAs (Decidable True)
  | store (.close _ reason _) => inferInstanceAs (Decidable (reason.truthy = true))
  | store (.update ..) => inferInstanceAs (Decidable False)
  | tool _ => inferInstanceAs (Decidable True)

/-- The session after a step. -/
def run (tools : DispatchTools β F) (log : DebugLog β F) (w : World β F) : AgentStep F → World β F
  | store c => ((logged log c.method).exec w).2
  | tool c => (w.step tools log c).2

theorem incidents_store (tools : DispatchTools β F) (log : DebugLog β F) (w : World β F) (c : IncidentCall F) :
    ((store c).run tools log w).incidents = (w.incidents.step c).2 := by
  show ((logged log c.method).exec w).2.incidents = (c.method.exec w.incidents).2
  rw [exec_logged]
  cases c.method.exec w.incidents with
  | mk r s => cases r <;> rfl

end AgentStep

/-- A record is open, or closed with a reason. -/
def Incident.Accounted (i : Incident F) : Prop :=
  i.status.LegalStatus ∧ (i.status = .str statusClosed → i.closeReason ≠ .none ∧ i.closeReason.truthy = true)

theorem ne_none_of_truthy {v : Val F} (h : v.truthy = true) : v ≠ .none := fun e => by
  rw [e] at h
  cases h

/-- A record whose status and reason did not change. -/
theorem Incident.Accounted.congr {i i' : Incident F} (h : i.Accounted) (hs : i'.status = i.status)
    (hr : i'.closeReason = i.closeReason) : i'.Accounted := by
  unfold Accounted
  rw [hs, hr]
  exact h

/-- What the agent calls keeps records accounted for. -/
theorem onRecord_accounted {c : IncidentCall F} (hc : (AgentStep.store c).Reasoned) {i i' : Incident F}
    (h : c.onRecord i = .ok i') (hi : i.Accounted) : i'.Accounted := by
  cases c with
  | openIncident incidentType coords tick buildingId fields => exact Except.ok.inj h ▸ hi
  | update incidentId tick fields => exact hc.elim
  | link incidentId reportId tick =>
    exact hi.congr (Incident.get_linked h (g := .status) nofun nofun)
      (Incident.get_linked h (g := .closeReason) nofun nofun)
  | close incidentId reason tick =>
    obtain rfl := Except.ok.inj h
    have hr : (i.closed reason tick).closeReason = reason := Incident.get_closed reason tick i (g := .closeReason) nofun
    refine ⟨.inr (Incident.get_closed reason tick i (g := .status) nofun), fun _ => ?_⟩
    rw [hr]
    exact ⟨ne_none_of_truthy hc, hc⟩

theorem opened_accounted {c : IncidentCall F} {id : String} {i : Incident F} (h : c.OpenedAs id i) :
    i.Accounted := by
  have hs := h.status_eq
  refine ⟨.inl hs, fun e => ?_⟩
  rw [hs] at e
  exact absurd (Val.str.inj e) (by decide)

/-- A record that the model updated stays accounted for: a closing request gives a reason, another request keeps it. -/
theorem refiled_accounted {args : Dict F} {tick : Val F} {i i' : Incident F} (h : i.refiled args tick = .ok i')
    (hi : i.Accounted) : i'.Accounted := by
  have hr := refiled_spec h
  by_cases hc : given args "status" = some (.str "closed")
  · obtain ⟨hstatus, hreason, _⟩ := hr.closed hc
    refine ⟨.inr hstatus, fun _ => ?_⟩
    have ht : i'.closeReason.truthy = true := by
      rw [hreason]
      cases hf : (given args "notes").filter Val.truthy with
      | none => rfl
      | some v => exact (Option.filter_eq_some_iff.mp hf).2
    exact ⟨ne_none_of_truthy ht, ht⟩
  · obtain ⟨hstatus, _, hreason⟩ := hr.updated hc
    cases hg : given args "status" with
    | none =>
      rw [hg] at hstatus
      exact hi.congr hstatus hreason
    | some status =>
      rw [hg] at hstatus hc
      have hopen : status = .str statusOpen := (hr.legal status hg).resolve_right fun e => hc (congrArg some e)
      refine ⟨.inl (hstatus.trans hopen), fun e => ?_⟩
      rw [hstatus, Option.getD_some, hopen] at e
      exact absurd (Val.str.inj e) (by decide)

/-- Every record is accounted for. -/
def IncidentStore.Accounted (s : IncidentStore F) : Prop := ∀ id i, s.byId.get? id = some i → i.Accounted

theorem IncidentStore.accounted_empty : (empty : IncidentStore F).Accounted := nofun

theorem accounted_run (tools : DispatchTools β F) (log : DebugLog β F) {w : World β F} {a : AgentStep F}
    (ha : a.Reasoned) (h : w.incidents.Accounted) : (a.run tools log w).incidents.Accounted := by
  cases a with
  | store c =>
    intro id i hi
    rw [AgentStep.incidents_store] at hi
    have hcall : ∀ b ∈ [c], ∀ j j', b.onRecord j = .ok j' → j.Accounted → j'.Accounted := by
      intro b hb j j' hj
      rw [List.mem_singleton.mp hb] at hj
      exact onRecord_accounted ha hj
    exact IncidentStore.records_final (fun b _ _ _ hb => opened_accounted hb) hcall h id i hi
  | tool c =>
    intro id j hj
    have hj' : (w.step tools log c).2.incidents.byId.get? id = some j := hj
    rcases step_incidents tools log w c with he | ⟨id', i, i', _, _, hi, hr, he⟩
    · rw [he] at hj'
      exact h id j hj'
    · rw [he] at hj'
      simp only [OrdDict.get?_insert] at hj'
      split at hj'
      · exact Option.some.inj hj' ▸ refiled_accounted hr (h id' i hi)
      · exact h id j hj'

theorem accounted_foldl (tools : DispatchTools β F) (log : DebugLog β F) (steps : List (AgentStep F)) :
    ∀ w : World β F, (∀ a ∈ steps, a.Reasoned) → w.incidents.Accounted →
      (steps.foldl (AgentStep.run tools log) w).incidents.Accounted := by
  induction steps with
  | nil => intro w _ hw; exact hw
  | cons a steps ih =>
    intro w h hw
    exact ih _ (fun b hb => h b (List.mem_cons_of_mem _ hb)) (accounted_run tools log (h a List.mem_cons_self) hw)

/-- **No incident is closed without a reason**, over every run of the agent on a new store. -/
theorem closed_with_reason (tools : DispatchTools β F) (log : DebugLog β F) (result : DispatchResult F) (backend : β)
    {steps : List (AgentStep F)} (h : ∀ a ∈ steps, a.Reasoned) {id : String} {i : Incident F}
    (hi : (steps.foldl (AgentStep.run tools log) ⟨.empty, result, backend⟩).incidents.byId.get? id = some i) :
    (i.status = .str statusOpen ∨ i.status = .str statusClosed) ∧
      (i.status = .str statusClosed → i.closeReason ≠ .none ∧ i.closeReason.truthy = true) :=
  accounted_foldl tools log steps _ h IncidentStore.accounted_empty id i hi

/-- A backend that raises. -/
def deadTools : DispatchTools Unit Whole where
  buildingToCoords _ := throw ⟨.engineError, "UNAVAILABLE: engine is down"⟩
  travelTime _ _ := throw ⟨.engineError, "UNAVAILABLE: engine is down"⟩
  dispatch _ _ _ _ _ := throw ⟨.engineError, "UNAVAILABLE: engine is down"⟩

/-- Opened by the agent, then closed, reopened and closed again by the model. -/
def reclosed : List (AgentStep Whole) :=
  [.store (.openIncident (.str "fire") (.tuple [.int 0, .int 0]) (.int 1) .none .empty),
    .tool ⟨"file_incident_update", .ofList [("incident_id", .str "inc-1"), ("status", .str "closed"),
      ("notes", .str "no smoke left")], .int 2⟩,
    .tool ⟨"file_incident_update", .ofList [("incident_id", .str "inc-1"), ("status", .str "open")], .int 3⟩,
    .tool ⟨"file_incident_update", .ofList [("incident_id", .str "inc-1"), ("status", .str "closed"),
      ("notes", .none)], .int 4⟩]

theorem closed_with_reason_reclosed :
    ∃ i, (reclosed.foldl (AgentStep.run deadTools noLog) ⟨.empty, .empty, ()⟩).incidents.byId.get? "inc-1" = some i ∧
      (i.status = .str statusOpen ∨ i.status = .str statusClosed) ∧
        (i.status = .str statusClosed → i.closeReason ≠ .none ∧ i.closeReason.truthy = true) :=
  ⟨_, rfl, @closed_with_reason Unit Whole _ deadTools noLog .empty () reclosed (by decide) "inc-1" _ rfl⟩

end HadrAgent
