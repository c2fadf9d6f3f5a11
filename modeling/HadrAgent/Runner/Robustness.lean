import HadrAgent.Runner.EpisodeSteps
import HadrAgent.Runner.Routing
import HadrAgent.Runner.Termination

/-!
# What can end a run

A tool that fails does not fail its tick: the dispatcher reads the failure in the reply, and goes on. So where the
engine keeps to its interface for the start of an episode and for its ticks (`Session.Conforms`), whatever it answers to
the tools, a run returns its summary, unless a client of the model is not configured or the agent loop raises by itself
(`outcome_of_run`).

- `AgentLoop.barring_run`: what a loop raises, it raises after some replies to its calls (`AgentLoop.Raises`);
- `Episode.Ready`: what a tick needs of its episode, and leaves it with, also where it raises (`Ready.after`);
- `barring_tickLoop`: from tick to tick, the observation stays one the runner can read (`Legible`).
-/

namespace HadrAgent

variable {β ε F : Type}

/-! ## Loops that raise -/

/-- The exceptions of a loop: those it raises after some replies to its calls. -/
inductive AgentLoop.Raises : AgentLoop F → Exc → Prop
  | here (e : Exc) : Raises (.raise e) e
  | after {name : String} {args : Dict F} {next : Dict F → AgentLoop F} {e : Exc} (reply : Dict F)
      (h : Raises (next reply) e) : Raises (.call name args next) e

/-- The exceptions of the loops that fill the hole. -/
def Holes.Raises (holes : Holes ε F) (e : Exc) : Prop :=
  ∃ incidents trucks tick world, (holes.agentLoop incidents trucks tick world).Raises e

variable [Runtime F]

/-- **A loop with its tools** returns, or raises by itself: no tool call raises. -/
theorem AgentLoop.barring_run (tools : DispatchTools β F) (log : DebugLog β F) (tick : Val F) (loop : AgentLoop F) :
    ∀ w : World β F, (loop.run tools log tick).Barring loop.Raises (fun _ _ => True) w := by
  induction loop with
  | done r => exact fun w => Py.barring_pure trivial
  | raise e => exact fun w => Py.barring_throw (.here e)
  | call name args next ih =>
    intro w
    let c : ToolCall F := ⟨name, args, tick⟩
    have hrest := ih (w.step tools log c).1 (w.step tools log c).2
    exact hrest.mono (fun e he => .after _ he) fun _ _ _ => trivial

theorem barring_runDispatch (tools : DispatchTools β F) (log : DebugLog β F) (loop : AgentLoop F) (tick : Val F)
    (w : World β F) : (runDispatch tools log loop tick).Barring loop.Raises (fun _ _ => True) w := by
  refine Py.barring_bind (P := fun _ _ => True) (Py.barring_modify trivial) fun _ w₁ _ => ?_
  refine Py.barring_bind (loop.barring_run tools log tick w₁) fun r w₂ _ => ?_
  refine Py.barring_bind (P := fun _ _ => True) (Py.barring_modify trivial) fun _ w₃ _ => ?_
  exact Py.post_get_bind (Py.barring_pure trivial)

/-! ## Engines that keep to their interface -/

/-- An observation with its tick, its contacts and its lifecycle, and an outcome that is an object if it is there. -/
structure Legible (obs outcome : Val F) : Prop where
  observation : ∃ o : Observation F, obs = o.toVal ∧ ∃ v, o.fields.get? "lifecycle" = some v
  outcome : outcome = .none ∨ ∃ items : List (String × Val F), outcome = .dict items

/-- The engine answers, with what the runner reads. -/
structure Session.Conforms (session : Session ε F) : Prop where
  start : ∀ args e, ∃ res runId obs, ((session.call "start_episode" args).exec e).1 = .ok res ∧
    res.getItem "run_id" = .ok runId ∧ res.getItem "observation" = .ok obs ∧ Legible obs .none
  next : ∀ args e, ∃ res obs, ((session.call "next_tick" args).exec e).1 = .ok res ∧
    res.getItem "observation" = .ok obs ∧ Legible obs (res.getD "outcome" .none)

namespace Legible

variable {obs outcome : Val F}

theorem isRunning (h : Legible obs outcome) : ∃ running, isRunning obs = .ok running := by
  obtain ⟨o, rfl, v, hv⟩ := h.observation
  have hitem : o.toVal.getItem "lifecycle" = .ok v := by
    show ((o.fields.get? "lifecycle").elim _ _ : Except Exc (Val F)) = _
    rw [hv]
    rfl
  unfold HadrAgent.isRunning
  rw [hitem]
  exact ⟨_, rfl⟩

theorem outcomeField (h : Legible obs outcome) (k : String) : ∃ v, outcomeField outcome k = .ok v := by
  rcases h.outcome with rfl | ⟨items, rfl⟩
  · exact ⟨.none, rfl⟩
  · unfold HadrAgent.outcomeField
    split <;> exact ⟨_, rfl⟩

theorem summarize (h : Legible obs outcome) (runId : Val F) (ep : Episode ε F) :
    ∃ s, summarize runId obs outcome ep = .ok s := by
  obtain ⟨casualties, hcasualties⟩ := h.outcomeField "casualties"
  obtain ⟨lost, hlost⟩ := h.outcomeField "buildings_lost"
  obtain ⟨o, rfl, -⟩ := h.observation
  have hreason : o.toVal.getD "terminal_reason" .none = .ok (o.fields.getD "terminal_reason" .none) := rfl
  unfold HadrAgent.summarize
  rw [hreason, o.getItem_tick, hcasualties, hlost]
  exact ⟨_, rfl⟩

end Legible

/-! ## Ticks -/

namespace Episode

/-- Whether to ask a model, and which one, stays as it is. -/
structure SameModel (ep ep' : Episode ε F) : Prop where
  useLlm : ep'.useLlm = ep.useLlm
  dispatchLlm : ep'.dispatchLlm = ep.dispatchLlm

instance : IsPreorder (Episode ε F) SameModel where
  refl _ := ⟨rfl, rfl⟩
  trans _ _ _ h h' := ⟨h'.useLlm.trans h.useLlm, h'.dispatchLlm.trans h.dispatchLlm⟩

omit [Runtime F] in
theorem sameModel_onClient {α : Type} (m : Py ε α) : (onClient m : Py (Episode ε F) α).Along SameModel := by
  intro ep
  rw [onClient, Py.exec_zoom]
  exact ⟨rfl, rfl⟩

theorem sameModel_tools (session : Session ε F) : (tools session).Along SameModel where
  buildingToCoords _ :=
    Py.along_bind (along_coordsOf_of_call (sameModel_onClient _) fun _ _ => ⟨rfl, rfl⟩) fun _ => Py.along_pure _
  travelTime _ _ := Py.along_bind (sameModel_onClient _) fun _ => Py.along_pure _
  dispatch _ _ _ _ _ :=
    Py.along_bind Py.along_get fun _ => Py.along_bind (sameModel_onClient _) fun _ => Py.along_pure _

theorem sameModel_dispatchTick (session : Session ε F) (holes : Holes ε F) (obs tick : Val F) :
    (dispatchTick session holes obs tick).Along SameModel := by
  refine Py.along_bind Py.along_get fun _ => Py.along_bind (Py.along_lift _) fun _ => ?_
  refine Py.along_bind (Py.along_lift _) fun trucks => Py.along_bind Py.along_get fun ep => ?_
  refine Py.along_bind ?_ fun result => Py.along_modify fun _ => ⟨rfl, rfl⟩
  intro ep'
  rw [inSession, Py.exec_zoom]
  have hrun := (sameModel_tools session).runDispatch (holes.agentLoop ep.incidents trucks tick ep.client) tick
    ⟨ep'.incidents, .empty, ep'⟩
  exact ⟨hrun.useLlm, hrun.dispatchLlm⟩

theorem sameModel_runHoles (session : Session ε F) (holes : Holes ε F) (obs tick : Val F) (routed : Routed F) :
    (runHoles session holes obs tick routed).Along SameModel := by
  refine Py.along_bind (Py.along_modify fun _ => ⟨rfl, rfl⟩) fun _ => Py.along_bind Py.along_get fun ep => ?_
  split
  · exact sameModel_dispatchTick session holes obs tick
  · exact Py.along_pure _

/-- An episode that has its model if it is to ask one, and that has seen what was delivered. -/
structure Ready (llm : Bool) (ep : Episode ε F) : Prop where
  useLlm : ep.useLlm = llm
  dispatchLlm : llm = true → ep.dispatchLlm.isNone = false
  seen : ∃ delivered, ep.HasSeen delivered

/-- What the loops raise is raised with the model only. -/
def LoopRaises (holes : Holes ε F) (llm : Bool) (e : Exc) : Prop := llm = true ∧ holes.Raises e

variable {llm : Bool} {ep : Episode ε F}

theorem ready_fresh (client : ε) (intakeLlm dispatchLlm : Option LlmClient)
    (h : llm = true → dispatchLlm.isNone = false) :
    (fresh client llm intakeLlm dispatchLlm : Episode ε F).Ready llm :=
  ⟨rfl, h, [], hasSeen_fresh client llm intakeLlm dispatchLlm⟩

/-- An episode that starts is ready. -/
theorem ready_of_new {environ : String → Option String} {client : ε} (h : new environ client llm = .ok ep) :
    ep.Ready llm := by
  unfold new at h
  split at h
  · obtain ⟨intakeLlm, _, h⟩ := Except.bind_eq_ok.mp h
    obtain ⟨dispatchLlm, _, h⟩ := Except.bind_eq_ok.mp h
    obtain rfl := Except.ok.inj h
    exact ready_fresh client (some intakeLlm) (some dispatchLlm) fun _ => rfl
  · next hllm =>
    obtain rfl := Except.ok.inj h
    exact ready_fresh client none none fun htrue => absurd htrue hllm

/-- The contacts of a tick do not raise. -/
theorem Ready.passthrough (h : ep.Ready llm) (o : Observation F) :
    (passthrough o.toVal).Post ep fun r ep' =>
      ∃ routed, r = .ok (o.tick, routed) ∧ ep'.Ready llm := by
  obtain ⟨delivered, hseen⟩ := h.seen
  obtain ⟨ep₁, hseen₁, hpass⟩ := exec_passthrough o hseen
  obtain ⟨tick, seen, honly⟩ := onlyObserved_passthrough o.toVal ep
  unfold Py.Post
  rw [hpass] at honly ⊢
  obtain rfl : ep₁ = { ep with tick := tick, seen := seen } := honly
  exact ⟨_, rfl, h.useLlm, h.dispatchLlm, _, hseen₁⟩

/-- **After its contacts**, a tick leaves an episode for the next one, also where it raises. -/
theorem Ready.after (h : ep.Ready llm) (session : Session ε F) (holes : Holes ε F) (obs tick : Val F)
    (routed : Routed F) : ((runHoles session holes obs tick routed).exec ep).2.Ready llm := by
  obtain ⟨delivered, hseen⟩ := h.seen
  have hsame := sameModel_runHoles session holes obs tick routed ep
  refine ⟨hsame.useLlm.trans h.useLlm, ?_, delivered, (seen_runHoles session holes obs tick routed ep).trans hseen⟩
  rw [hsame.dispatchLlm]
  exact h.dispatchLlm

/-- **After its contacts**, a tick raises what its loop raises. -/
theorem Ready.runHoles (h : ep.Ready llm) (session : Session ε F) (holes : Holes ε F) (o : Observation F)
    (tick : Val F) (routed : Routed F) :
    (runHoles session holes o.toVal tick routed).Barring (LoopRaises holes llm) (fun _ _ => True) ep := by
  have hfold : (foldReports holes routed tick).Barring (LoopRaises holes llm) (fun _ ep' => ep'.Ready llm) ep :=
    Py.barring_modify ⟨h.useLlm, h.dispatchLlm, h.seen⟩
  refine Py.barring_bind hfold fun _ ep₁ h₁ => Py.post_get_bind ?_
  split
  · next hllm =>
    obtain rfl : llm = true := h₁.useLlm.symm.trans hllm
    have hassert : ep₁.assertClient = .ok () := by
      unfold assertClient
      rw [h₁.dispatchLlm rfl]
      rfl
    have htrucks : o.toVal.getD "vehicles" (.list []) = .ok (o.fields.getD "vehicles" (.list [])) := rfl
    refine Py.post_get_bind (Py.post_lift_bind_of_ok hassert (Py.post_lift_bind_of_ok htrucks (Py.post_get_bind ?_)))
    refine Py.barring_bind (P := fun _ _ => True) (Py.barring_zoom ?_) fun _ _ _ => Py.barring_modify trivial
    refine (barring_runDispatch _ _ _ _ _).mono ?_ fun _ _ _ => trivial
    exact fun e he => ⟨rfl, _, _, _, _, he⟩
  · exact Py.barring_pure trivial

/-- **A tick** on a legible observation raises what its loop raises. -/
theorem Ready.tick (h : ep.Ready llm) (session : Session ε F) (holes : Holes ε F) (o : Observation F) :
    (processTick session holes o.toVal).Barring (LoopRaises holes llm) (fun _ ep' => ep'.Ready llm) ep := by
  refine Py.post_bind (h.passthrough o) ?_ ?_
  · rintro _ ep₁ ⟨routed, hr, h₁⟩
    obtain rfl := Except.ok.inj hr
    exact (h₁.runHoles session holes o o.tick routed).leaving (h₁.after session holes o.toVal o.tick routed)
  · rintro e ep₁ ⟨routed, hr, -⟩
    cases hr

/-- The engine is asked for what it answers. -/
theorem Ready.onClient {α : Type} (h : ep.Ready llm) {m : Py ε α} {a : α} (hm : (m.exec ep.client).1 = .ok a) :
    (onClient m).Post ep fun r ep' => r = .ok a ∧ ep'.Ready llm := by
  unfold Py.Post
  rw [Episode.onClient, Py.exec_zoom]
  exact ⟨hm, h.useLlm, h.dispatchLlm, h.seen⟩

end Episode

/-! ## Runs -/

open Episode (LoopRaises)

variable {session : Session ε F} {llm : Bool}

/-- **The loop** raises what the agent loops raise, and what it goes on with stays legible. -/
theorem barring_tickLoop (h : session.Conforms) (holes : Holes ε F) : ∀ (fuel : Nat) (obs outcome : Val F)
    (ep : Episode ε F), Legible obs outcome → ep.Ready llm →
      (tickLoop session holes fuel obs outcome).Barring (LoopRaises holes llm)
        (fun q _ => ∀ p, q = some p → Legible p.1 p.2) ep
  | 0, _, _, _, _, _ => Py.barring_pure nofun
  | fuel + 1, obs, outcome, ep, hlegible, hready => by
    obtain ⟨running, hrun⟩ := hlegible.isRunning
    refine Py.post_lift_bind_of_ok hrun ?_
    split
    · obtain ⟨o, rfl, -⟩ := hlegible.observation
      refine Py.barring_bind (hready.tick session holes o) fun _ ep₁ hready₁ => ?_
      refine Py.post_lift_bind_of_ok o.getItem_tick (Py.post_get_bind ?_)
      obtain ⟨res, obs', hres, hobs', hlegible'⟩ :=
        h.next (Session.tickCommand o.tick (some ep₁.tokenReport)) ep₁.client
      refine Py.post_bind_of_ok (hready₁.onClient hres) fun ep₂ hready₂ => ?_
      refine Py.post_lift_bind_of_ok hobs' ?_
      exact barring_tickLoop h holes fuel obs' _ ep₂ hlegible' hready₂
    · refine Py.barring_pure ?_
      rintro p hp
      obtain rfl := Option.some.inj hp
      exact hlegible

theorem barring_episodeRun (h : session.Conforms) (holes : Holes ε F) (scenarioId : String) (seed : Option Int)
    (fuel : Nat) {ep : Episode ε F} (hready : ep.Ready llm) :
    (episodeRun session holes scenarioId seed fuel).Barring (LoopRaises holes llm) (fun _ _ => True) ep := by
  obtain ⟨res, runId, obs, hres, hrunId, hobs, hlegible⟩ := h.start (Session.startArgs scenarioId seed) ep.client
  refine Py.post_bind_of_ok (hready.onClient hres) fun ep₁ hready₁ => ?_
  refine Py.post_lift_bind_of_ok hrunId (Py.post_lift_bind_of_ok hobs ?_)
  refine Py.barring_bind (barring_tickLoop h holes fuel obs _ ep₁ hlegible hready₁) fun q ep₂ hlegible' => ?_
  cases q with
  | none => exact Py.barring_pure trivial
  | some p =>
    obtain ⟨s, hs⟩ := (hlegible' p rfl).summarize runId ep₂
    exact Py.post_get_bind (Py.post_lift_bind_of_ok hs (Py.barring_pure trivial))

/-- **What can end a run**: on an engine that keeps to its interface and has only so many ticks to give, a run returns
its summary, unless it is to ask a model and a client is not configured, or an agent loop raises by itself. -/
theorem outcome_of_run {left : ε → Nat} (h : session.Conforms) (hclock : session.Clock left) (holes : Holes ε F)
    (environ : String → Option String) (scenarioId : String) (seed : Option Int) (useLlm : Bool) {engine : ε}
    {fuel : Nat} (hfuel : left engine + 2 ≤ fuel) :
    let run := (runEpisode session holes environ scenarioId seed useLlm fuel).exec engine
    (∃ summary, run.1 = .ok (some summary)) ∨
      ∃ e, run.1 = .error e ∧ useLlm = true ∧
        ((Episode.new environ engine true : Except Exc (Episode ε F)) = .error e ∨ holes.Raises e) := by
  dsimp only
  have hended := runEpisode_ends hclock holes environ scenarioId seed useLlm hfuel
  rcases Episode.exec_runEpisode_cases session holes environ scenarioId seed useLlm fuel engine with
    ⟨e, hnew, hrun⟩ | ⟨ep, hnew, hrun⟩
  · cases useLlm with
    | false => cases hnew
    | true => exact .inr ⟨e, by rw [hrun], rfl, .inl hnew⟩
  · rw [hrun] at hended ⊢
    rcases (barring_episodeRun h holes scenarioId seed fuel (Episode.ready_of_new hnew)).cases with
      ⟨s, hs, -⟩ | ⟨e, he, hllm, hraises⟩
    · cases s with
      | none => exact absurd hs hended
      | some summary => exact .inl ⟨summary, hs⟩
    · exact .inr ⟨e, he, hllm, .inr hraises⟩

theorem conforms_countdown : countdown.Conforms := by
  have hlegible : ∀ n : Nat, Legible (F := Whole)
      (.dict [("tick", .int n), ("lifecycle", .str (if 0 < n then "running" else "ended"))]) .none := by
    intro n
    let items : List (String × Val Whole) :=
      [("tick", .int n), ("lifecycle", .str (if 0 < n then "running" else "ended"))]
    exact ⟨⟨⟨⟨items, by simp [items]⟩, .int n, [], rfl, rfl⟩, rfl, _, rfl⟩, .inl rfl⟩
  exact ⟨fun _ n => ⟨_, _, _, rfl, rfl, rfl, hlegible n⟩, fun _ n => ⟨_, _, rfl, rfl, hlegible (n - 1)⟩⟩

/-- The same engine, whose other tools fail. -/
def failing : Session Nat Whole where
  callTool op args := fun n =>
    if op = "start_episode" ∨ op = "next_tick" then countdown.callTool op args n else .ok ⟨true, none⟩ n

theorem conforms_failing : failing.Conforms := ⟨conforms_countdown.start, conforms_countdown.next⟩

theorem clock_failing : failing.Clock id where
  keeps op args n := by
    show id ((failing.callTool op args).exec n).2 ≤ id n
    unfold Py.exec
    by_cases h : op = "start_episode" ∨ op = "next_tick"
    · have hcall : failing.callTool op args n = countdown.callTool op args n := if_pos h
      rw [hcall]
      exact clock_countdown.keeps op args n
    · have hcall : failing.callTool op args n = .ok ⟨true, none⟩ n := if_neg h
      rw [hcall]
  falls := clock_countdown.falls

/-- A dispatcher that asks for a travel time and sends a truck, and takes what it gets. -/
def asking : Holes Nat Whole where
  fold _ _ stores := stores
  agentLoop _ _ _ _ :=
    let truck : Val Whole := .dict [("vehicle_id", .str "truck-1")]
    .call "travel_time" (.ofList [("from", truck), ("to", truck)]) fun _ =>
      .call "dispatch" .empty fun _ => .done ⟨.zero, 2, ""⟩

/-- Its tools fail in every tick, and the run returns. -/
theorem outcome_of_run_failing : ∃ summary,
    ((runEpisode failing asking (fun _ => some "key") "two-fires" none true 5).exec 3).1 = .ok (some summary) := by
  have hfuel : id 3 + 2 ≤ 5 := by decide
  rcases outcome_of_run conforms_failing clock_failing asking (fun _ => some "key") "two-fires" none true hfuel with
    hreturns | ⟨e, -, -, hnew | ⟨_, _, _, _, hraises⟩⟩
  · exact hreturns
  · cases hnew
  · cases hraises with
    | after _ hraises => cases hraises with
      | after _ hraises => cases hraises

end HadrAgent
