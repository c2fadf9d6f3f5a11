import HadrAgent.Runner.TickEffects

/-!
# The tick protocol

What the engine sees of an episode. After `start_episode` its commands come in blocks (`Block`): for an observation
that is running, the dispatches of the tick and then one `next_tick`, all for the tick of that observation; the reply
to the `next_tick` holds the observation of the next block (`Follow`).

- `withinTick_processTick`: one tick issues the dispatches of a block;
- `follow_tickLoop`: the loop issues blocks that follow one another;
- `tick_protocol`: so does an episode, and its summary reads the last observation and the last reply.
-/

namespace HadrAgent

variable {ε F : Type}

/-! ## Blocks -/

/-- One round of the tick loop, as the engine sees it. -/
structure Block (F : Type) where
  obs : Val F
  dispatches : List (EngineCall F)
  next : EngineCall F
  reply : Dict F

namespace Block

/-- The commands of a block. -/
def commands (b : Block F) : List (EngineCall F) := b.dispatches ++ [b.next]

/-- The outcome its reply holds. -/
def outcome (b : Block F) : Val F := b.reply.getD "outcome" .none

/-- The outcome of the last block. -/
def lastOutcome (before : Val F) (blocks : List (Block F)) : Val F := (blocks.getLast?.map outcome).getD before

theorem lastOutcome_cons (before : Val F) (b : Block F) (blocks : List (Block F)) :
    lastOutcome before (b :: blocks) = lastOutcome b.outcome blocks := by
  unfold lastOutcome
  rw [List.getLast?_cons]
  cases blocks.getLast? <;> rfl

variable [Runtime F]

/-- A block is for an observation that is running, ends with its only `next_tick`, and keeps to one tick. -/
structure Sound (b : Block F) : Prop where
  running : b.obs.getItem "lifecycle" = .ok (.str "running")
  dispatches : ∀ q ∈ b.dispatches, q.op = "dispatch"
  next : b.next.op = "next_tick"
  reply : b.next.answer = .ok b.reply
  tick : ∃ t, b.obs.getItem "tick" = .ok t ∧ ∀ q ∈ b.commands, q.expectedTick = some t

end Block

variable [Runtime F]

/-- The blocks follow one another to a last observation: each is for the observation in the reply before. -/
inductive Follow : Val F → List (Block F) → Val F → Prop
  | done (obs : Val F) : Follow obs [] obs
  | tick {b : Block F} {blocks : List (Block F)} {obs last : Val F} (hb : b.Sound)
      (hobs : b.reply.getItem "observation" = .ok obs) (h : Follow obs blocks last) : Follow b.obs (b :: blocks) last

/-! ## One tick -/

/-- The record grew by calls of which the commands are dispatches for tick `t`. -/
def WithinTick (t : Val F) (p p' : ε × List (EngineCall F)) : Prop :=
  ∃ calls, p'.2 = p.2 ++ calls ∧
    ∀ q ∈ calls.filter EngineCall.isCommand, q.op = "dispatch" ∧ q.expectedTick = some t

instance (t : Val F) : IsPreorder (ε × List (EngineCall F)) (WithinTick t) where
  refl p := ⟨[], (List.append_nil _).symm, nofun⟩
  trans := by
    rintro p p₁ p₂ ⟨calls, hp₁, h⟩ ⟨calls', hp₂, h'⟩
    refine ⟨calls ++ calls', by rw [hp₂, hp₁, List.append_assoc], ?_⟩
    intro q hq
    rw [List.filter_append] at hq
    rcases List.mem_append.mp hq with hq | hq
    · exact h q hq
    · exact h' q hq

/-- The tools of an episode issue dispatches for its tick only. -/
theorem respects_recorded (session : Session ε F) : session.recorded.Respects WithinTick where
  read t op args hop := by
    intro p
    rw [Session.exec_recorded_call]
    refine ⟨[session.entry op args p.1], rfl, ?_⟩
    intro q hq
    obtain ⟨hq, hcmd⟩ := List.mem_filter.mp hq
    rw [List.mem_singleton.mp hq] at hcmd
    rcases hop with rfl | rfl <;> exact absurd hcmd (by simp [EngineCall.isCommand, Session.entry])
  dispatch t args ht := by
    intro p
    rw [Session.exec_recorded_call]
    refine ⟨[session.entry "dispatch" args p.1], rfl, ?_⟩
    intro q hq
    rw [List.mem_singleton.mp (List.mem_filter.mp hq).1]
    exact ⟨rfl, ht⟩

/-- **One tick** has a tick, and issues dispatches for it. -/
theorem withinTick_processTick {session : Session ε F} {holes : Holes (ε × List (EngineCall F)) F} {obs : Val F}
    {ep ep' : Episode (ε × List (EngineCall F)) F}
    (h : (Episode.processTick session.recorded holes obs).exec ep = (.ok ⟨⟩, ep')) :
    ∃ t, obs.getItem "tick" = .ok t ∧ WithinTick t ep.client ep'.client := by
  obtain ⟨⟨t, routed⟩, ep₁, hpass, h⟩ := Py.exec_bind_eq_ok.mp h
  obtain ⟨ht, seen, rfl⟩ := Episode.passthrough_eq_ok hpass
  have hrest := (Episode.along_runHoles (respects_recorded session) holes obs t routed)
    { ep with tick := t, seen := seen }
  rw [h] at hrest
  exact ⟨t, ht, hrest.client⟩

/-! ## The loop -/

theorem isRunning_eq_true {obs : Val F} (h : isRunning obs = .ok true) :
    obs.getItem "lifecycle" = .ok (.str "running") := by
  obtain ⟨v, hv, h⟩ := Except.bind_eq_ok.mp h
  rw [hv, Val.eq_str_iff.mp (Except.ok.inj h)]

theorem isRunning_eq_false {obs : Val F} (h : isRunning obs = .ok false) :
    ∃ v, obs.getItem "lifecycle" = .ok v ∧ v ≠ .str "running" := by
  obtain ⟨v, hv, h⟩ := Except.bind_eq_ok.mp h
  refine ⟨v, hv, ?_⟩
  intro e
  rw [Val.eq_str_iff.mpr e] at h
  cases h

/-- One round of the loop: a sound block, and the observation and the outcome it leaves. -/
theorem exec_round {session : Session ε F} {holes : Holes (ε × List (EngineCall F)) F} {fuel : Nat}
    {obs outcome : Val F} {ep ep' : Episode (ε × List (EngineCall F)) F} {r : Option (Val F × Val F)}
    (hrun : isRunning obs = .ok true)
    (h : (tickLoop session.recorded holes (fuel + 1) obs outcome).exec ep = (.ok r, ep')) :
    ∃ (b : Block F) (obs' : Val F) (calls : List (EngineCall F)) (ep₁ : _), b.obs = obs ∧ b.Sound ∧
      b.reply.getItem "observation" = .ok obs' ∧
      ep₁.client.2 = ep.client.2 ++ calls ∧ calls.filter EngineCall.isCommand = b.commands ∧
      (tickLoop session.recorded holes fuel obs' b.outcome).exec ep₁ = (.ok r, ep') := by
  obtain ⟨running, hr, h⟩ := Py.exec_lift_bind_eq_ok.mp h
  obtain rfl := Except.ok.inj (hr.symm.trans hrun)
  obtain ⟨_, ep₁, htick, h⟩ := Py.exec_bind_eq_ok.mp h
  obtain ⟨t, ht, calls, hcalls, hq⟩ := withinTick_processTick htick
  obtain ⟨t', ht', h⟩ := Py.exec_lift_bind_eq_ok.mp h
  obtain rfl := Except.ok.inj (ht'.symm.trans ht)
  rw [Py.exec_bind, Py.exec_get] at h
  obtain ⟨res, ep₂, hnext, h⟩ := Py.exec_bind_eq_ok.mp h
  obtain ⟨obs', hobs, h⟩ := Py.exec_lift_bind_eq_ok.mp h
  let args := Session.tickCommand t' (some ep₁.tokenReport)
  let q := session.entry "next_tick" args ep₁.client.1
  rw [Episode.onClient, Py.exec_zoom, Session.nextTick, Session.exec_recorded_call] at hnext
  obtain ⟨hanswer, rfl⟩ := Prod.mk.inj hnext
  refine ⟨⟨obs, calls.filter EngineCall.isCommand, q, res⟩, obs', calls ++ [q], _, rfl, ?_, hobs, ?_, ?_, h⟩
  · refine ⟨isRunning_eq_true hrun, fun q' hq' => (hq q' hq').1, rfl, hanswer, t', ht, ?_⟩
    intro q' hq'
    rcases List.mem_append.mp hq' with hq' | hq'
    · exact (hq q' hq').2
    · rw [List.mem_singleton.mp hq']
      rfl
  · rw [← List.append_assoc, ← hcalls]
  · rw [List.filter_append]
    rfl

/-- **The loop** issues blocks that follow one another, to an observation that is not running, or one for each round its
fuel lets it run. -/
theorem follow_tickLoop {session : Session ε F} {holes : Holes (ε × List (EngineCall F)) F} : ∀ {fuel : Nat}
    {obs outcome : Val F} {ep ep' : Episode (ε × List (EngineCall F)) F} {r : Option (Val F × Val F)},
    (tickLoop session.recorded holes fuel obs outcome).exec ep = (.ok r, ep') →
      ∃ blocks calls last, ep'.client.2 = ep.client.2 ++ calls ∧
        calls.filter EngineCall.isCommand = blocks.flatMap Block.commands ∧ Follow obs blocks last ∧
        match r with
        | none => blocks.length = fuel
        | some (obs', outcome') =>
          obs' = last ∧ isRunning last = .ok false ∧ outcome' = Block.lastOutcome outcome blocks
  | 0, obs, outcome, ep, ep', r, h => by
    cases h
    exact ⟨[], [], obs, (List.append_nil _).symm, rfl, .done obs, rfl⟩
  | fuel + 1, obs, outcome, ep, ep', r, h => by
    obtain ⟨running, hrun, hbody⟩ := Py.exec_lift_bind_eq_ok.mp h
    cases running with
    | false =>
      cases hbody
      exact ⟨[], [], obs, (List.append_nil _).symm, rfl, .done obs, rfl, hrun, rfl⟩
    | true =>
      obtain ⟨b, obs', calls, ep₁, rfl, hb, hobs, hcalls, hcmd, hrest⟩ := exec_round hrun h
      obtain ⟨blocks, calls', last, hcalls', hcmd', hfollow, hr⟩ := follow_tickLoop hrest
      refine ⟨b :: blocks, calls ++ calls', last, ?_, ?_, .tick hb hobs hfollow, ?_⟩
      · rw [hcalls', hcalls, List.append_assoc]
      · rw [List.filter_append, hcmd, hcmd', List.flatMap_cons]
      · rw [Block.lastOutcome_cons]
        cases r with
        | none => exact congrArg (· + 1) hr
        | some p => exact hr

/-! ## Episodes -/

/-- The record of an episode: its start, then commands in blocks that follow one another to an observation. -/
structure TickProtocol (record : List (EngineCall F)) (start : EngineCall F) (blocks : List (Block F)) (last : Val F) :
    Prop where
  starts : start.op = "start_episode"
  commands : ∃ calls, record = start :: calls ∧ calls.filter EngineCall.isCommand = blocks.flatMap Block.commands
  follow : ∃ res obs, start.answer = .ok res ∧ res.getItem "observation" = .ok obs ∧ Follow obs blocks last

/-- The summary reads an observation that is not running, and an outcome. -/
structure Summary.Reads (s : Summary F) (last outcome : Val F) : Prop where
  ended : ∃ v, last.getItem "lifecycle" = .ok v ∧ v ≠ .str "running"
  tick : last.getItem "tick" = .ok s.tick
  terminalReason : last.getD "terminal_reason" .none = .ok s.terminalReason
  casualties : outcomeField outcome "casualties" = .ok s.casualties
  buildingsLost : outcomeField outcome "buildings_lost" = .ok s.buildingsLost
  unknown : outcome = .none → s.casualties = .none ∧ s.buildingsLost = .none

theorem reads_summarize {runId last outcome : Val F} {ep : Episode ε F} {s : Summary F}
    (hend : isRunning last = .ok false) (h : summarize runId last outcome ep = .ok s) : s.Reads last outcome := by
  obtain ⟨reason, hreason, h⟩ := Except.bind_eq_ok.mp h
  obtain ⟨tick, htick, h⟩ := Except.bind_eq_ok.mp h
  obtain ⟨casualties, hcasualties, h⟩ := Except.bind_eq_ok.mp h
  obtain ⟨lost, hlost, h⟩ := Except.bind_eq_ok.mp h
  cases h
  refine ⟨isRunning_eq_false hend, htick, hreason, hcasualties, hlost, ?_⟩
  rintro rfl
  cases hcasualties
  cases hlost
  exact ⟨rfl, rfl⟩

/-- The run of an episode: blocks that follow one another from its start. -/
theorem protocol_episodeRun {session : Session ε F} {holes : Holes (ε × List (EngineCall F)) F} {scenarioId : String}
    {seed : Option Int} {fuel : Nat} {ep ep' : Episode (ε × List (EngineCall F)) F} {r : Option (Summary F)}
    (hnew : ep.client.2 = [])
    (h : (episodeRun session.recorded holes scenarioId seed fuel).exec ep = (.ok r, ep')) :
    ∃ start blocks last, TickProtocol ep'.client.2 start blocks last ∧ (r = none → blocks.length = fuel) ∧
      ∀ summary, r = some summary → summary.Reads last (Block.lastOutcome .none blocks) := by
  obtain ⟨res, ep₁, hstart, h⟩ := Py.exec_bind_eq_ok.mp h
  obtain ⟨runId, _, h⟩ := Py.exec_lift_bind_eq_ok.mp h
  obtain ⟨obs, hobs, h⟩ := Py.exec_lift_bind_eq_ok.mp h
  obtain ⟨r', ep₂, hloop, h⟩ := Py.exec_bind_eq_ok.mp h
  rw [Episode.onClient, Py.exec_zoom, Session.startEpisode, Session.exec_recorded_call] at hstart
  obtain ⟨hanswer, rfl⟩ := Prod.mk.inj hstart
  obtain ⟨blocks, calls, last, hcalls, hcmd, hfollow, hr⟩ := follow_tickLoop hloop
  have hprotocol : TickProtocol ep₂.client.2 (session.entry "start_episode" (Session.startArgs scenarioId seed)
      ep.client.1) blocks last := by
    refine ⟨rfl, ⟨calls, ?_, hcmd⟩, ⟨res, obs, hanswer, hobs, hfollow⟩⟩
    rw [hcalls, hnew]
    rfl
  cases r' with
  | none =>
    cases h
    refine ⟨_, blocks, last, hprotocol, fun _ => hr, ?_⟩
    intro summary e
    cases e
  | some q =>
    obtain ⟨rfl, hend, hout⟩ := hr
    rw [Py.exec_bind, Py.exec_get] at h
    obtain ⟨s, hs, h⟩ := Py.exec_lift_bind_eq_ok.mp h
    cases h
    refine ⟨_, blocks, _, hprotocol, ?_, ?_⟩
    · intro e
      cases e
    · intro summary e
      cases e
      exact hout ▸ reads_summarize hend hs

/-- **The tick protocol of an episode**, for every engine, whatever intake and reconciliation leave in the stores and
whatever calls the agent loop makes, and every run that raises nothing: its commands are blocks that follow one another.
A run that returns has come to an observation that is not running, and its summary reads that observation and the
outcome of the last reply; a run that goes on has issued a block for every round. -/
theorem tick_protocol (session : Session ε F) (holes : Holes (ε × List (EngineCall F)) F)
    (environ : String → Option String) (scenarioId : String) (seed : Option Int) (useLlm : Bool) (fuel : Nat)
    (engine : ε) {r : Option (Summary F)} {p : ε × List (EngineCall F)}
    (h : (runEpisode session.recorded holes environ scenarioId seed useLlm fuel).exec (engine, []) = (.ok r, p)) :
    ∃ start blocks last, TickProtocol p.2 start blocks last ∧ (r = none → blocks.length = fuel) ∧
      ∀ summary, r = some summary → summary.Reads last (Block.lastOutcome .none blocks) := by
  rw [runEpisode, Py.exec_bind, Py.exec_get] at h
  obtain ⟨ep, _, h⟩ := Py.exec_lift_bind_eq_ok.mp h
  obtain ⟨ep', hrun, rfl⟩ := Py.exec_zoom_eq_ok.mp h
  exact protocol_episodeRun rfl hrun

/-! ## A drill -/

/-- An engine with one running tick. -/
def drillSession : Session Unit Whole where
  callTool op _ :=
    let observation (tick : Int) (lifecycle : String) : Val Whole :=
      .dict [("tick", .int tick), ("lifecycle", .str lifecycle)]
    pure <| .mk false <| some <| .ofList <|
      if op = "start_episode" then [("run_id", .str "run-1"), ("observation", observation 4 "running")]
      else if op = "next_tick" then
        [("observation", observation 5 "ended"), ("outcome", .dict [("casualties", .int 2)])]
      else [("accepted", .bool true)]

/-- Every tick opens an incident, and sends a truck to the first one. -/
def drillHoles : Holes (Unit × List (EngineCall Whole)) Whole where
  fold _ tick stores :=
    (((IncidentStore.openIncident (.str "fire") .none tick .none .empty).exec stores.1).2, stores.2)
  agentLoop _ _ _ _ :=
    let args : Dict Whole :=
      .ofList [("vehicle_id", .str "truck-1"), ("incident_id", .str "inc-1"), ("x", .int 3), ("y", .int 4)]
    .call "dispatch" args fun _ => .done ⟨.zero, 1, "on the way"⟩

/-- The drill, with any key for its model. -/
def drill : Except Exc (Option (Summary Whole)) × Unit × List (EngineCall Whole) :=
  (runEpisode drillSession.recorded drillHoles (fun _ => some "key") "two-fires" none true 9).exec ((), [])

/-- The drill issues one block of two commands, and its summary reads the last reply. -/
theorem tick_protocol_drill :
    drill.2.2.map (fun q => (q.op, q.expectedTick)) =
      [("start_episode", none), ("dispatch", some (.int 4)), ("next_tick", some (.int 4))] ∧
    ∃ start blocks last, TickProtocol drill.2.2 start blocks last ∧
      (⟨.str "run-1", .none, .int 5, .int 2, .none, .zero, .zero⟩ : Summary Whole).Reads last
        (Block.lastOutcome .none blocks) := by
  refine ⟨rfl, ?_⟩
  obtain ⟨start, blocks, last, hprotocol, _, hreads⟩ := tick_protocol drillSession drillHoles (fun _ => some "key")
    "two-fires" none true 9 () (r := some ⟨.str "run-1", .none, .int 5, .int 2, .none, .zero, .zero⟩) (p := drill.2) rfl
  exact ⟨start, blocks, last, hprotocol, hreads _ rfl⟩

end HadrAgent
