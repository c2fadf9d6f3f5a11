import HadrAgent.Runner.Robustness
import HadrAgent.Runner.Simulation

/-!
# Runs without the model

`--no-llm` skips the dispatch model: such a run is the contacts of its ticks, and what intake and reconciliation leave
in the stores is seen by nobody (`exec_processTick_of_no_llm`).

- `no_llm_independent`: the run is the same whatever they leave there, whatever the agent loop would do and whatever the
  environment is;
- `shipped_refuses`: with the model, what ships raises in the first tick.
-/

namespace HadrAgent

variable {ε F : Type} [Runtime F]

namespace Episode

/-- **A tick without the model** is its contacts, and a change of the stores. -/
theorem exec_processTick_of_no_llm (session : Session ε F) (holes : Holes ε F) (obs : Val F) {ep : Episode ε F}
    (h : ep.useLlm = false) :
    ((processTick session holes obs).exec ep).1 = ((passthrough obs).exec ep).1.map (fun _ => ⟨⟩) ∧
      ∃ incidents reports, ((processTick session holes obs).exec ep).2 =
        { ((passthrough obs).exec ep).2 with incidents := incidents, reports := reports } := by
  have hllm : ((passthrough obs).exec ep).2.useLlm = false := by
    obtain ⟨tick, seen, hep⟩ := onlyObserved_passthrough obs ep
    rw [hep]
    exact h
  rw [processTick, Py.exec_bind]
  generalize (passthrough obs).exec ep = run at hllm ⊢
  obtain ⟨r, ep₁⟩ := run
  cases r with
  | error e => exact ⟨rfl, ep₁.incidents, ep₁.reports, rfl⟩
  | ok p =>
    obtain ⟨t, routed⟩ := p
    have hllm₁ : ep₁.useLlm = false := hllm
    simp only [runHoles, foldReports, Py.exec_bind, Py.exec_modify, Py.exec_get, hllm₁]
    exact ⟨rfl, _, _, rfl⟩

/-! ## The same run whatever is left in the stores -/

/-- Two episodes without the model that differ in their stores and clients only. -/
structure SameShell (ep ep' : Episode ε F) : Prop where
  client : ep'.client = ep.client
  tick : ep'.tick = ep.tick
  seen : ep'.seen = ep.seen
  intakeTokens : ep'.intakeTokens = ep.intakeTokens
  dispatchTokens : ep'.dispatchTokens = ep.dispatchTokens
  llm : ep.useLlm = false ∧ ep'.useLlm = false

omit [Runtime F] in
theorem routes_sameShell : Routes (@SameShell ε F) where
  seen h := h.seen
  see _ _ _ h := ⟨h.client, h.tick, rfl, h.intakeTokens, h.dispatchTokens, h.llm⟩
  clock _ _ _ h := ⟨h.client, rfl, h.seen, h.intakeTokens, h.dispatchTokens, h.llm⟩

/-- A tick, whatever is left in the stores. -/
theorem agree_processTick (session : Session ε F) (holes holes' : Holes ε F) (obs : Val F) {ep ep' : Episode ε F}
    (h : SameShell ep ep') :
    Py.Agree SameShell (processTick session holes obs) (processTick session holes' obs) ep ep' := by
  obtain ⟨hr, i, r, hep⟩ := exec_processTick_of_no_llm session holes obs h.llm.1
  obtain ⟨hr', i', r', hep'⟩ := exec_processTick_of_no_llm session holes' obs h.llm.2
  obtain ⟨hpass, hsame⟩ := routes_sameShell.passthrough obs h
  refine ⟨?_, ?_⟩
  · rw [hr, hr', hpass]
  · rw [hep, hep']
    exact ⟨hsame.client, hsame.tick, hsame.seen, hsame.intakeTokens, hsame.dispatchTokens, hsame.llm⟩

omit [Runtime F] in
theorem agree_onClient {α : Type} (m : Py ε α) {ep ep' : Episode ε F} (h : SameShell ep ep') :
    Py.Agree SameShell (onClient m) (onClient m) ep ep' := by
  unfold Py.Agree onClient
  rw [Py.exec_zoom, Py.exec_zoom, h.client]
  exact ⟨rfl, rfl, h.tick, h.seen, h.intakeTokens, h.dispatchTokens, h.llm⟩

/-- Without the model, an engine matches itself whatever is left in the stores. -/
theorem matches_sameShell (session : Session ε F) (holes holes' : Holes ε F) :
    Matches SameShell session holes session holes' where
  intakeTokens h := h.intakeTokens
  dispatchTokens h := h.dispatchTokens
  call _ _ _ _ h := agree_onClient _ h
  tick obs _ _ h := agree_processTick session holes holes' obs h

end Episode

/-! ## What such a run tells the engine -/

/-- A call that only starts the episode, or ends a tick and reports that no tokens were used. -/
def EngineCall.Plain (q : EngineCall F) : Prop :=
  q.op = "start_episode" ∨ q.op = "next_tick" ∧
    q.args.get? "tokens" = some (.dict [("intake", Episode.tokenEntry .zero), ("dispatch", Episode.tokenEntry .zero)])

/-- An episode without the model, so far. -/
structure Episode.Silent (ep : Episode (ε × List (EngineCall F)) F) : Prop where
  llm : ep.useLlm = false
  intakeTokens : ep.intakeTokens = .zero
  dispatchTokens : ep.dispatchTokens = .zero
  plain : ∀ q ∈ ep.client.2, q.Plain

namespace Episode

theorem Silent.called {session : Session ε F} {ep : Episode (ε × List (EngineCall F)) F} (h : ep.Silent) {op : String}
    {args : Dict F} (hplain : (session.entry op args ep.client.1).Plain) :
    (onClient (session.recorded.call op args)).Post ep fun _ ep' => ep'.Silent := by
  unfold Py.Post
  rw [exec_onClient_recorded]
  refine ⟨h.llm, h.intakeTokens, h.dispatchTokens, ?_⟩
  intro q hq
  rcases List.mem_append.mp hq with hq | hq
  · exact h.plain q hq
  · rw [List.mem_singleton.mp hq]
    exact hplain

theorem Silent.tick {session : Session ε F} {holes : Holes (ε × List (EngineCall F)) F} {obs : Val F}
    {ep : Episode (ε × List (EngineCall F)) F} (h : ep.Silent) :
    (processTick session.recorded holes obs).Post ep fun _ ep' => ep'.Silent := by
  obtain ⟨-, i, r, hep⟩ := exec_processTick_of_no_llm session.recorded holes obs h.llm
  obtain ⟨tick, seen, hpass⟩ := onlyObserved_passthrough obs ep
  unfold Py.Post
  rw [hep, hpass]
  exact ⟨h.llm, h.intakeTokens, h.dispatchTokens, h.plain⟩

theorem silent_tickLoop (session : Session ε F) (holes : Holes (ε × List (EngineCall F)) F) : ∀ (fuel : Nat)
    (obs outcome : Val F) (ep : Episode (ε × List (EngineCall F)) F), ep.Silent →
      (tickLoop session.recorded holes fuel obs outcome).Post ep fun _ ep' => ep'.Silent
  | 0, _, _, _, h => Py.post_pure h
  | fuel + 1, obs, outcome, ep, h => by
    refine Py.post_lift_bind (fun running _ => ?_) fun _ => h
    split
    · refine Py.post_bind h.tick (fun _ ep₁ h => ?_) fun _ _ h => h
      refine Py.post_lift_bind (fun t _ => Py.post_get_bind ?_) fun _ => h
      have hreport : ep₁.tokenReport = .dict [("intake", tokenEntry .zero), ("dispatch", tokenEntry .zero)] := by
        unfold tokenReport
        rw [h.intakeTokens, h.dispatchTokens]
      rw [hreport]
      refine Py.post_bind (h.called (.inr ⟨rfl, rfl⟩)) (fun res ep₂ h => ?_) fun _ _ h => h
      exact Py.post_lift_bind (fun obs' _ => silent_tickLoop session holes fuel obs' _ ep₂ h) fun _ => h
    · exact Py.post_pure h

theorem silent_episodeRun (session : Session ε F) (holes : Holes (ε × List (EngineCall F)) F) (scenarioId : String)
    (seed : Option Int) (fuel : Nat) {ep : Episode (ε × List (EngineCall F)) F} (h : ep.Silent) :
    (episodeRun session.recorded holes scenarioId seed fuel).Post ep fun _ ep' => ep'.Silent := by
  refine Py.post_bind (h.called (.inl rfl)) (fun start ep h => ?_) fun _ _ h => h
  refine Py.post_lift_bind (fun runId _ => Py.post_lift_bind (fun obs _ => ?_) fun _ => h) fun _ => h
  refine Py.post_bind (silent_tickLoop session holes fuel obs _ ep h) (fun r ep h => ?_) fun _ _ h => h
  cases r with
  | none => exact Py.post_pure h
  | some q => exact Py.post_get_bind (Py.post_lift_bind (fun s _ => Py.post_pure h) fun _ => h)

end Episode

/-- **A run without the model** is the same whatever intake and reconciliation leave in the stores, whatever the agent
loop would do, and in every environment. All it has the engine do is start the episode and end its ticks, and it reports
no tokens. -/
theorem no_llm_independent (session : Session ε F) (holes holes' : Holes (ε × List (EngineCall F)) F)
    (environ environ' : String → Option String) (scenarioId : String) (seed : Option Int) (fuel : Nat) (engine : ε) :
    let run := (runEpisode session.recorded holes environ scenarioId seed false fuel).exec (engine, [])
    run = (runEpisode session.recorded holes' environ' scenarioId seed false fuel).exec (engine, []) ∧
      ∀ q ∈ run.2.2, q.Plain := by
  let ep : Episode (ε × List (EngineCall F)) F := .fresh (engine, []) false none none
  have hexec : ∀ holes environ,
      (runEpisode session.recorded holes environ scenarioId seed false fuel).exec (engine, []) =
      (((episodeRun session.recorded holes scenarioId seed fuel).exec ep).1,
        ((episodeRun session.recorded holes scenarioId seed fuel).exec ep).2.client) := by
    intro holes environ
    rcases Episode.exec_runEpisode_cases session.recorded holes environ scenarioId seed false fuel (engine, []) with
      ⟨e, hep, -⟩ | ⟨ep', hep, hrun⟩
    · cases hep
    · obtain rfl := Except.ok.inj hep
      exact hrun
  dsimp only
  rw [hexec, hexec]
  obtain ⟨hr, hsame⟩ := (Episode.matches_sameShell session.recorded holes holes').episodeRun scenarioId seed fuel
    (⟨rfl, rfl, rfl, rfl, rfl, rfl, rfl⟩ : Episode.SameShell ep ep)
  refine ⟨by rw [hr, hsame.client], ?_⟩
  have hnew : ep.Silent := ⟨rfl, rfl, rfl, fun _ hq => absurd hq List.not_mem_nil⟩
  exact (Episode.silent_episodeRun session holes scenarioId seed fuel hnew).plain

/-! ## What ships, with the model -/

/-- The holes raise in the first tick. -/
theorem post_processTick_shipped (session : Session ε F) (o : Observation F) {ep : Episode ε F}
    (hseen : ep.HasSeen []) (hllm : ep.useLlm = true) (hclient : ep.dispatchLlm.isNone = false) :
    (Episode.processTick session .shipped o.toVal).Post ep fun r ep' =>
      r = .error ⟨.other "NotImplementedError", "stage 1/4: build the dispatch state message"⟩ ∧
        ep'.client = ep.client := by
  obtain ⟨ep₁, -, hpass⟩ := Episode.exec_passthrough o hseen
  obtain ⟨tick, seen, honly⟩ := Episode.onlyObserved_passthrough o.toVal ep
  rw [hpass] at honly
  obtain rfl : ep₁ = { ep with tick := tick, seen := seen } := honly
  have htrucks : o.toVal.getD "vehicles" (.list []) = .ok (o.fields.getD "vehicles" (.list [])) := rfl
  unfold Py.Post
  rw [Episode.processTick, Py.exec_bind, hpass]
  simp only [Episode.runHoles, Episode.foldReports, Holes.shipped, Py.exec_bind, Py.exec_modify, Py.exec_get, hllm,
    if_true, Episode.dispatchTick, Episode.assertClient, hclient, Py.exec_lift, htrucks, Episode.inSession,
    Py.exec_zoom, runDispatch, AgentLoop.run, Py.exec_throw]
  exact ⟨rfl, rfl⟩

/-- **What ships cannot run with the model**: where the engine keeps to its interface, and the episode it starts is
running, the run raises in the first tick, and all it has asked of the engine is to start the episode. -/
theorem shipped_refuses {session : Session ε F} (h : session.Conforms) {environ : String → Option String} {engine : ε}
    {ep : Episode ε F} (hnew : Episode.new environ engine true = .ok ep) (scenarioId : String) (seed : Option Int)
    (fuel : Nat)
    (hrun : ∀ res obs, ((session.startEpisode scenarioId seed).exec engine).1 = .ok res →
      res.getItem "observation" = .ok obs → isRunning obs = .ok true) :
    (runEpisode session .shipped environ scenarioId seed true (fuel + 1)).exec engine =
      (.error ⟨.other "NotImplementedError", "stage 1/4: build the dispatch state message"⟩,
        ((session.startEpisode scenarioId seed).exec engine).2) := by
  obtain ⟨intakeLlm, dispatchLlm, hep, hclient⟩ : ∃ intakeLlm dispatchLlm,
      ep = .fresh engine true intakeLlm dispatchLlm ∧ dispatchLlm.isNone = false := by
    obtain ⟨intakeLlm, _, hnew⟩ := Except.bind_eq_ok.mp hnew
    obtain ⟨dispatchLlm, _, hnew⟩ := Except.bind_eq_ok.mp hnew
    exact ⟨some intakeLlm, some dispatchLlm, (Except.ok.inj hnew).symm, rfl⟩
  subst hep
  let refusal : Exc := ⟨.other "NotImplementedError", "stage 1/4: build the dispatch state message"⟩
  have hepisode : (episodeRun session .shipped scenarioId seed (fuel + 1)).Post
      (.fresh engine true intakeLlm dispatchLlm) fun r ep' => r = .error refusal ∧
        ep'.client = ((session.startEpisode scenarioId seed).exec engine).2 := by
    obtain ⟨res, runId, obs, hres, hrunId, hobs, hlegible⟩ := h.start (Session.startArgs scenarioId seed) engine
    have hrunning := hrun res obs hres hobs
    obtain ⟨o, rfl, -⟩ := hlegible.observation
    have hstart : (Episode.onClient (session.startEpisode scenarioId seed)).Post
        (.fresh engine true intakeLlm dispatchLlm : Episode ε F) fun r ep' => r = .ok res ∧
          ep' = .fresh ((session.startEpisode scenarioId seed).exec engine).2 true intakeLlm dispatchLlm := by
      unfold Py.Post
      rw [Episode.onClient, Py.exec_zoom]
      exact ⟨hres, rfl⟩
    refine Py.post_bind_of_ok hstart ?_
    rintro ep₁ rfl
    refine Py.post_lift_bind_of_ok hrunId (Py.post_lift_bind_of_ok hobs ?_)
    -- the loop raises in its first round, so it does not come to a summary
    have hloop : (tickLoop session .shipped (fuel + 1) o.toVal .none).Post
        (.fresh ((session.startEpisode scenarioId seed).exec engine).2 true intakeLlm dispatchLlm) fun r ep' =>
          r = .error refusal ∧ ep'.client = ((session.startEpisode scenarioId seed).exec engine).2 := by
      refine Py.post_lift_bind_of_ok hrunning (Py.post_bind (post_processTick_shipped session o rfl rfl hclient) ?_ ?_)
      · rintro _ ep₂ ⟨he, -⟩
        cases he
      · rintro e ep₂ ⟨he, hsame⟩
        exact ⟨congrArg Except.error (Except.error.inj he), hsame⟩
    refine Py.post_bind hloop ?_ ?_
    · rintro r ep₂ ⟨he, -⟩
      cases he
    · rintro e ep₂ ⟨he, hsame⟩
      exact ⟨congrArg Except.error (Except.error.inj he), hsame⟩
  rcases Episode.exec_runEpisode_cases session .shipped environ scenarioId seed true (fuel + 1) engine with
    ⟨e, hep, -⟩ | ⟨ep', hep, hexec⟩
  · cases hep.symm.trans hnew
  · obtain rfl := Except.ok.inj (hep.symm.trans hnew)
    rw [hexec]
    exact Prod.ext hepisode.1 hepisode.2

/-- Of three ticks none is ended. -/
theorem shipped_refuses_countdown :
    (runEpisode countdown .shipped (fun _ => some "key") "two-fires" none true 5).exec 3 =
      (.error ⟨.other "NotImplementedError", "stage 1/4: build the dispatch state message"⟩, 3) := by
  refine @shipped_refuses Nat Whole _ countdown conforms_countdown (fun _ => some "key") 3 _ rfl "two-fires" none 4 ?_
  intro res obs hres hobs
  cases hres
  cases hobs
  rfl

end HadrAgent
