import HadrAgent.Runner.EpisodeSteps
import HadrAgent.Runner.TickProtocol

/-!
# Runs that raise

`Runner.TickProtocol` is about runs that return. A run that raises has issued the same blocks up to the round it raised
in, and of that round a part (`Cut`): dispatches for its tick, and behind them at most one `next_tick`, which is then
the last command.

- `post_processTick_commands`: what a tick issues, wherever it raises;
- `post_tickLoop_cut`: the loop; `protocol_of_any_run`: a run of an episode, by its outcome.
-/

namespace HadrAgent

variable {ε F : Type} [Runtime F]

/-- The commands of a round that raised: dispatches for the tick of its observation, and then perhaps a `next_tick` for
it that gave no observation. -/
inductive Cut (obs : Val F) : List (EngineCall F) → Prop
  /-- It raised before it issued a command. -/
  | silent : Cut obs []
  /-- It raised in its tick. -/
  | dispatching {t : Val F} {ds : List (EngineCall F)} (hrun : obs.getItem "lifecycle" = .ok (.str "running"))
      (ht : obs.getItem "tick" = .ok t) (hds : ∀ q ∈ ds, q.op = "dispatch" ∧ q.expectedTick = some t) : Cut obs ds
  /-- The end of its tick raised, or gave no observation. -/
  | ended {t : Val F} {ds : List (EngineCall F)} {next : EngineCall F}
      (hrun : obs.getItem "lifecycle" = .ok (.str "running")) (ht : obs.getItem "tick" = .ok t)
      (hds : ∀ q ∈ ds, q.op = "dispatch" ∧ q.expectedTick = some t) (hop : next.op = "next_tick")
      (htick : next.expectedTick = some t)
      (hnone : ∀ reply obs', next.answer = .ok reply → reply.getItem "observation" ≠ .ok obs') : Cut obs (ds ++ [next])

/-- The record grew by calls with these commands. -/
def Issued (record record' commands : List (EngineCall F)) : Prop :=
  ∃ calls, record' = record ++ calls ∧ calls.filter EngineCall.isCommand = commands

omit [Runtime F] in
theorem Issued.refl (record : List (EngineCall F)) : Issued record record [] := ⟨[], (List.append_nil _).symm, rfl⟩

omit [Runtime F] in
theorem Issued.trans {r₁ r₂ r₃ c c' : List (EngineCall F)} (h : Issued r₁ r₂ c) (h' : Issued r₂ r₃ c') :
    Issued r₁ r₃ (c ++ c') := by
  obtain ⟨calls, rfl, rfl⟩ := h
  obtain ⟨calls', rfl, rfl⟩ := h'
  exact ⟨calls ++ calls', List.append_assoc .., List.filter_append ..⟩

/-! ## One tick -/

/-- **A tick** issues dispatches for the tick of its observation, wherever it raises; a tick that returns has one. -/
theorem post_processTick_commands (session : Session ε F) (holes : Holes (ε × List (EngineCall F)) F) (obs : Val F)
    (ep : Episode (ε × List (EngineCall F)) F) :
    (Episode.processTick session.recorded holes obs).Post ep fun r ep' => ∃ ds, Issued ep.client.2 ep'.client.2 ds ∧
      (r = .ok ⟨⟩ ∨ ds ≠ [] → ∃ t, obs.getItem "tick" = .ok t ∧
        ∀ q ∈ ds, q.op = "dispatch" ∧ q.expectedTick = some t) := by
  have hpass : (Episode.passthrough obs).Post ep fun r ep' => ep'.client = ep.client ∧
      ∀ t routed, r = .ok (t, routed) → obs.getItem "tick" = .ok t ∧ ep'.tick = t := by
    refine ⟨?_, fun t routed hr => ?_⟩
    · obtain ⟨tick, seen, hep⟩ := Episode.onlyObserved_passthrough obs ep
      have hclient := congrArg Episode.client hep
      exact hclient
    · obtain ⟨htick, seen, hep⟩ := Episode.passthrough_eq_ok (Prod.ext hr rfl)
      exact ⟨htick, congrArg Episode.tick hep⟩
  refine Py.post_bind hpass ?_ ?_
  · rintro ⟨t, routed⟩ ep₁ ⟨hclient, hok⟩
    obtain ⟨htick, rfl⟩ := hok t routed rfl
    obtain ⟨calls, hcalls, hq⟩ :=
      (Episode.along_runHoles (respects_recorded session) holes obs ep₁.tick routed ep₁).client
    refine ⟨calls.filter EngineCall.isCommand, ⟨calls, ?_, rfl⟩, fun _ => ⟨ep₁.tick, htick, hq⟩⟩
    rw [← hclient]
    exact hcalls
  · rintro e ep₁ ⟨hclient, -⟩
    refine ⟨[], ?_, fun h => ?_⟩
    · rw [hclient]
      exact .refl _
    · rcases h with h | h
      · cases h
      · exact absurd rfl h

/-! ## The loop -/

/-- The record grew by blocks that follow one another, and a part of a round. -/
def CutFrom (obs : Val F) (record record' : List (EngineCall F)) : Prop :=
  ∃ (blocks : List (Block F)) (last : Val F) (cut : List (EngineCall F)),
    Issued record record' (blocks.flatMap Block.commands ++ cut) ∧ Follow obs blocks last ∧ Cut last cut

/-- No round came to its end. -/
theorem CutFrom.first {obs : Val F} {record record' cut : List (EngineCall F)} (h : Issued record record' cut)
    (hcut : Cut obs cut) : CutFrom obs record record' := ⟨[], obs, cut, h, .done obs, hcut⟩

/-- A round before. -/
theorem CutFrom.round {b : Block F} {obs : Val F} {r₁ r₂ r₃ : List (EngineCall F)} (hb : b.Sound)
    (hobs : b.reply.getItem "observation" = .ok obs) (hround : Issued r₁ r₂ b.commands) (h : CutFrom obs r₂ r₃) :
    CutFrom b.obs r₁ r₃ := by
  obtain ⟨blocks, last, cut, hissued, hfollow, hcut⟩ := h
  refine ⟨b :: blocks, last, cut, ?_, .tick hb hobs hfollow, hcut⟩
  rw [List.flatMap_cons, List.append_assoc]
  exact hround.trans hissued

/-- The end of a tick is one `next_tick` for it. -/
theorem post_nextTick (session : Session ε F) (t tokens : Val F) (ep : Episode (ε × List (EngineCall F)) F) :
    (Episode.onClient (session.recorded.nextTick t (some tokens))).Post ep fun r ep' => ∃ next : EngineCall F,
      next.op = "next_tick" ∧ next.expectedTick = some t ∧ r = next.answer ∧
        Issued ep.client.2 ep'.client.2 [next] := by
  unfold Py.Post
  rw [Episode.onClient, Py.exec_zoom, Session.nextTick, Session.exec_recorded_call]
  exact ⟨_, rfl, rfl, rfl, _, rfl, rfl⟩

/-- The block of a round that came to its end. -/
theorem sound_block {obs t : Val F} {ds : List (EngineCall F)} {next : EngineCall F} {reply : Dict F}
    (hrun : obs.getItem "lifecycle" = .ok (.str "running")) (ht : obs.getItem "tick" = .ok t)
    (hds : ∀ q ∈ ds, q.op = "dispatch" ∧ q.expectedTick = some t) (hop : next.op = "next_tick")
    (htick : next.expectedTick = some t) (hanswer : next.answer = .ok reply) :
    (⟨obs, ds, next, reply⟩ : Block F).Sound := by
  refine ⟨hrun, fun q hq => (hds q hq).1, hop, hanswer, t, ht, ?_⟩
  intro q hq
  rcases List.mem_append.mp hq with hq | hq
  · exact (hds q hq).2
  · rw [List.mem_singleton.mp hq]
    exact htick

/-- **The loop**, wherever it raises: blocks that follow one another, and a part of the next round. -/
theorem post_tickLoop_cut (session : Session ε F) (holes : Holes (ε × List (EngineCall F)) F) : ∀ (fuel : Nat)
    (obs outcome : Val F) (ep : Episode (ε × List (EngineCall F)) F),
    (tickLoop session.recorded holes fuel obs outcome).Post ep fun _ ep' => CutFrom obs ep.client.2 ep'.client.2
  | 0, _, _, _ => Py.post_pure (.first (.refl _) .silent)
  | fuel + 1, obs, outcome, ep => by
    refine Py.post_lift_bind_cases (fun running hrunning => ?_) fun _ _ => .first (.refl _) .silent
    cases running with
    | false => exact Py.post_pure (.first (.refl _) .silent)
    | true =>
      have hrun := isRunning_eq_true hrunning
      refine Py.post_bind (post_processTick_commands session holes obs ep) ?_ ?_
      · rintro _ ep₁ ⟨ds, hissued, htick⟩
        obtain ⟨t, ht, hds⟩ := htick (.inl rfl)
        refine Py.post_lift_bind_of_ok ht (Py.post_get_bind (Py.post_bind (post_nextTick session t _ ep₁) ?_ ?_))
        · rintro reply ep₂ ⟨next, hop, hnext, hanswer, hend⟩
          refine Py.post_lift_bind_cases (fun obs' hobs => ?_) fun e he => ?_
          · have hb := sound_block hrun ht hds hop hnext hanswer.symm
            exact Py.post_mono (post_tickLoop_cut session holes fuel obs' _ ep₂) fun _ _ h =>
              .round hb hobs (hissued.trans hend) h
          · refine .first (hissued.trans hend) (.ended hrun ht hds hop hnext ?_)
            intro reply' obs' h h'
            obtain rfl := Except.ok.inj (hanswer.trans h)
            cases he.symm.trans h'
        · rintro e ep₂ ⟨next, hop, hnext, hanswer, hend⟩
          refine .first (hissued.trans hend) (.ended hrun ht hds hop hnext ?_)
          intro reply' obs' h
          cases hanswer.trans h
      · rintro e ep₁ ⟨ds, hissued, htick⟩
        cases ds with
        | nil => exact .first hissued .silent
        | cons q ds =>
          obtain ⟨t, ht, hds⟩ := htick (.inr (List.cons_ne_nil q ds))
          exact .first hissued (.dispatching hrun ht hds)

/-! ## Episodes -/

/-- The record of a run by its outcome. A run that returns has blocks that follow one another from its start; a run that
raises has nothing, a start without an observation, or blocks and a part of the next round. -/
inductive AnyRun (record : List (EngineCall F)) : Except Exc (Option (Summary F)) → Prop
  /-- There was no episode to start. -/
  | unborn (e : Exc) (h : record = []) : AnyRun record (.error e)
  /-- The start gave no observation. -/
  | unstarted {start : EngineCall F} (e : Exc) (hop : start.op = "start_episode") (h : record = [start])
      (hnone : ∀ res runId obs, start.answer = .ok res → res.getItem "run_id" = .ok runId →
        res.getItem "observation" ≠ .ok obs) : AnyRun record (.error e)
  /-- It raised in a round, or behind the last one. -/
  | aborted {start : EngineCall F} {res : Dict F} {obs : Val F} (e : Exc) (hop : start.op = "start_episode")
      (hanswer : start.answer = .ok res) (hobs : res.getItem "observation" = .ok obs)
      (hcut : CutFrom obs [start] record) : AnyRun record (.error e)
  /-- It returned. -/
  | returned {start : EngineCall F} {blocks : List (Block F)} {last : Val F} {r : Option (Summary F)}
      (h : TickProtocol record start blocks last) : AnyRun record (.ok r)

/-- A run of a new episode that raises. -/
theorem post_episodeRun_raised (session : Session ε F) (holes : Holes (ε × List (EngineCall F)) F)
    (scenarioId : String) (seed : Option Int) (fuel : Nat) {ep : Episode (ε × List (EngineCall F)) F}
    (hnew : ep.client.2 = []) :
    (episodeRun session.recorded holes scenarioId seed fuel).Post ep fun r ep' =>
      ∀ e, r = .error e → AnyRun ep'.client.2 (.error e) := by
  let start := session.entry "start_episode" (Session.startArgs scenarioId seed) ep.client.1
  have hstart : (Episode.onClient (session.recorded.startEpisode scenarioId seed)).Post ep fun r ep' =>
      r = start.answer ∧ ep'.client.2 = [start] := by
    unfold Py.Post
    rw [Episode.onClient, Py.exec_zoom, Session.startEpisode, Session.exec_recorded_call, hnew]
    exact ⟨rfl, rfl⟩
  refine Py.post_bind hstart ?_ ?_
  · rintro res ep₁ ⟨hanswer, hrecord⟩
    refine Py.post_lift_bind_cases (fun runId _ => ?_) fun e he e' _ => ?_
    · refine Py.post_lift_bind_cases (fun obs hobs => ?_) fun e he e' _ => ?_
      · refine Py.post_bind (Q := fun _ ep' => CutFrom obs [start] ep'.client.2) ?_ ?_ ?_
        · exact hrecord ▸ post_tickLoop_cut session holes fuel obs .none ep₁
        · intro r ep₂ hcut
          have hreturned : ∀ (s : Option (Summary F)) (e : Exc),
              (.ok s : Except Exc (Option (Summary F))) = .error e → AnyRun ep₂.client.2 (.error e) := by
            intro s e h
            cases h
          cases r with
          | none => exact Py.post_pure (hreturned none)
          | some q =>
            refine Py.post_get_bind (Py.post_lift_bind (fun s _ => Py.post_pure (hreturned (some s))) fun e e' _ => ?_)
            exact .aborted e' rfl hanswer.symm hobs hcut
        · intro e ep₂ hcut e' _
          exact .aborted e' rfl hanswer.symm hobs hcut
      · refine .unstarted e' rfl hrecord ?_
        intro res' runId' obs h _ hobs
        obtain rfl := Except.ok.inj (hanswer.trans h)
        cases he.symm.trans hobs
    · refine .unstarted e' rfl hrecord ?_
      intro res' runId' obs h hrun _
      obtain rfl := Except.ok.inj (hanswer.trans h)
      cases he.symm.trans hrun
  · rintro e ep₁ ⟨hanswer, hrecord⟩ e' _
    refine .unstarted e' rfl hrecord ?_
    intro res runId obs h _
    cases hanswer.trans h

/-- A run of a new episode, by its outcome. -/
theorem anyRun_episodeRun (session : Session ε F) (holes : Holes (ε × List (EngineCall F)) F) (scenarioId : String)
    (seed : Option Int) (fuel : Nat) {ep : Episode (ε × List (EngineCall F)) F} (hnew : ep.client.2 = []) :
    (episodeRun session.recorded holes scenarioId seed fuel).Post ep fun r ep' => AnyRun ep'.client.2 r := by
  have hraised := post_episodeRun_raised session holes scenarioId seed fuel hnew
  unfold Py.Post at hraised ⊢
  cases hexec : (episodeRun session.recorded holes scenarioId seed fuel).exec ep with
  | mk r ep' =>
    rw [hexec] at hraised
    cases r with
    | ok r =>
      obtain ⟨start, blocks, last, hprotocol, -, -⟩ := protocol_episodeRun hnew hexec
      exact .returned hprotocol
    | error e => exact hraised e rfl

/-- **The protocol of any run**, for every engine, whatever intake and reconciliation leave in the stores and whatever
calls the agent loop makes. What raises has issued a prefix of the blocks a run that returns issues: no command of a
round is repeated, and none follows a `next_tick` that failed. -/
theorem protocol_of_any_run (session : Session ε F) (holes : Holes (ε × List (EngineCall F)) F)
    (environ : String → Option String) (scenarioId : String) (seed : Option Int) (useLlm : Bool) (fuel : Nat)
    (engine : ε) :
    let run := (runEpisode session.recorded holes environ scenarioId seed useLlm fuel).exec (engine, [])
    AnyRun run.2.2 run.1 := by
  dsimp only
  rcases Episode.exec_runEpisode_cases session.recorded holes environ scenarioId seed useLlm fuel (engine, []) with
    ⟨e, -, hrun⟩ | ⟨ep, hep, hrun⟩
  · rw [hrun]
    exact .unborn e rfl
  · obtain ⟨intakeLlm, dispatchLlm, rfl⟩ := Episode.exists_fresh_of_new hep
    rw [hrun]
    exact anyRun_episodeRun session holes scenarioId seed fuel rfl

end HadrAgent
