import Mathlib.Logic.Relation
import HadrAgent.Python.Rules
import HadrAgent.Runner.CoordsCache
import HadrAgent.Runner.TickEffects

/-!
# An episode as a machine

`Episode.Step` lists the transitions of an episode whose engine has a record of its calls: one for each thing
`runner.py` writes to its episode or asks its engine for.

- `post_processTick`, `steps_episodeRun`: a run makes these transitions and no others, also one that raises;
- `Steps.keeps`, `keeps_runEpisode`: what every transition keeps, every run keeps.
-/

namespace HadrAgent

variable {ε F : Type}

theorem Session.exec_recorded_callTool (session : Session ε F) (op : String) (args : Dict F)
    (p : ε × List (EngineCall F)) :
    (session.recorded.callTool op args).exec p = ((session.entry op args p.1).result,
      ((session.callTool op args).exec p.1).2, p.2 ++ [session.entry op args p.1]) := by
  unfold Py.exec recorded entry Py.exec
  cases h : session.callTool op args p.1 <;> simp only [h]

namespace Episode

variable [Runtime F]

/-- The episode after a call on its engine. -/
def called (session : Session ε F) (op : String) (args : Dict F) (ep : Episode (ε × List (EngineCall F)) F) :
    Episode (ε × List (EngineCall F)) F :=
  { ep with client :=
      (((session.callTool op args).exec ep.client.1).2, ep.client.2 ++ [session.entry op args ep.client.1]) }

theorem exec_onClient_recorded (session : Session ε F) (op : String) (args : Dict F)
    (ep : Episode (ε × List (EngineCall F)) F) :
    (onClient (session.recorded.call op args)).exec ep =
      ((session.entry op args ep.client.1).answer, ep.called session op args) := by
  rw [onClient, Py.exec_zoom, Session.exec_recorded_call]
  rfl

/-- Nothing changes but the tick and the contacts seen. -/
def OnlyObserved (ep ep' : Episode ε F) : Prop := ∃ tick seen, ep' = { ep with tick := tick, seen := seen }

omit [Runtime F] in
instance : IsPreorder (Episode ε F) OnlyObserved where
  refl ep := ⟨ep.tick, ep.seen, rfl⟩
  trans := by
    rintro ep _ _ ⟨t, s, rfl⟩ ⟨t', s', rfl⟩
    exact ⟨t', s', rfl⟩

/-- **What comes before the holes** observes, wherever it raises. -/
theorem onlyObserved_passthrough (obs : Val F) : (passthrough obs : Py (Episode ε F) _).Along OnlyObserved := by
  refine Py.along_bind (Py.along_lift _) fun tick => Py.along_bind (Py.along_modify ?_) fun _ => ?_
  · intro ep
    exact ⟨tick, ep.seen, rfl⟩
  · refine Py.along_bind (Py.along_lift _) fun v => Py.along_bind (Py.along_lift _) fun contacts => ?_
    refine Py.along_bind ((along_routeContacts contacts _).mono ?_) fun _ => Py.along_pure _
    rintro ep _ ⟨seen, rfl⟩
    exact ⟨ep.tick, seen, rfl⟩

/-! ## Transitions -/

/-- The arguments of `building_to_coords`. -/
def locateArgs (buildingId : Val F) : Dict F := .ofList [("building_id", buildingId)]

/-- The arguments of `travel_time`. -/
def travelArgs (fromSpec toSpec : Val F) : Dict F := .ofList [("from", fromSpec), ("to", toSpec)]

/-- The arguments of a dispatch by an episode. -/
def commandArgs (ep : Episode ε F) (vehicleId : Val F) (id : String) (x y : F) (rationale : Val F) : Dict F :=
  Session.dispatchCommand ep.tick vehicleId (.str id) (.dict [("x", .float x), ("y", .float y)]) rationale

/-- The stores after intake and reconciliation. -/
def folded (holes : Holes ε F) (routed : Routed F) (ep : Episode ε F) : Episode ε F :=
  let stores := holes.fold routed ep.tick (ep.incidents, ep.reports)
  { ep with incidents := stores.1, reports := stores.2 }

/-- **The transitions of an episode.** -/
inductive Step (session : Session ε F) (holes : Holes (ε × List (EngineCall F)) F)
    (ep : Episode (ε × List (EngineCall F)) F) : Episode (ε × List (EngineCall F)) F → Prop
  /-- The episode is started. -/
  | started (scenarioId : String) (seed : Option Int) :
      Step session holes ep (ep.called session "start_episode" (Session.startArgs scenarioId seed))
  /-- An observation comes in. -/
  | observed (tick : Val F) : Step session holes ep { ep with tick := tick }
  /-- Contacts of it are seen. -/
  | seen (seen : Finset (Key F)) : Step session holes ep { ep with seen := seen }
  /-- What they say is folded into the stores. -/
  | folded (routed : Routed F) : Step session holes ep (ep.folded holes routed)
  /-- The engine gives no point for a building. -/
  | unlocated {buildingId : Val F} {e : Exc} (hmiss : ep.coordsCache.get? buildingId.tokens = none)
      (hpoint : EngineReply.point (session.entry "building_to_coords" (locateArgs buildingId) ep.client.1).result =
        .error e) :
      Step session holes ep (ep.called session "building_to_coords" (locateArgs buildingId))
  /-- The engine gives its point, and the point is cached. -/
  | located {buildingId : Val F} {p : Val F × Val F} (hmiss : ep.coordsCache.get? buildingId.tokens = none)
      (hpoint : EngineReply.point (session.entry "building_to_coords" (locateArgs buildingId) ep.client.1).result =
        .ok p) :
      Step session holes ep { ep.called session "building_to_coords" (locateArgs buildingId) with
        coordsCache := ep.coordsCache.insert buildingId.tokens p }
  /-- The engine is asked for a travel time. -/
  | timed (fromSpec toSpec : Val F) :
      Step session holes ep (ep.called session "travel_time" (travelArgs fromSpec toSpec))
  /-- A truck is sent to an incident on file. -/
  | dispatched {id : String} {i : Incident F} (hi : ep.incidents.byId.get? id = some i) (vehicleId : Val F) (x y : F)
      (rationale : Val F) :
      Step session holes ep (ep.called session "dispatch" (ep.commandArgs vehicleId id x y rationale))
  /-- The dispatcher rewrites an incident on file. -/
  | refiled {id : String} {args : Dict F} {i i' : Incident F} (hi : ep.incidents.byId.get? id = some i)
      (hi' : i.refiled args ep.tick = .ok i') :
      Step session holes ep { ep with incidents := ep.incidents.put (.str id) i' }
  /-- The tokens of a dispatch are added. -/
  | charged (usage : TokenUse) : Step session holes ep { ep with dispatchTokens := ep.dispatchTokens.add usage }
  /-- The tick ends. -/
  | ticked : Step session holes ep (ep.called session "next_tick" (Session.tickCommand ep.tick (some ep.tokenReport)))

/-- Any number of transitions. -/
def Steps (session : Session ε F) (holes : Holes (ε × List (EngineCall F)) F)
    (ep ep' : Episode (ε × List (EngineCall F)) F) : Prop := Relation.ReflTransGen (Step session holes) ep ep'

variable {session : Session ε F} {holes : Holes (ε × List (EngineCall F)) F}

instance : IsPreorder (Episode (ε × List (EngineCall F)) F) (Steps session holes) where
  refl _ := .refl
  trans _ _ _ h h' := h.trans h'

theorem Step.steps {ep ep' : Episode (ε × List (EngineCall F)) F} (h : Step session holes ep ep') :
    Steps session holes ep ep' := .single h

/-- **What every transition keeps**, any number of them keeps. -/
theorem Steps.keeps {I : Episode (ε × List (EngineCall F)) F → Prop}
    (hstep : ∀ {ep ep'}, I ep → Step session holes ep ep' → I ep') {ep ep' : Episode (ε × List (EngineCall F)) F}
    (h : Steps session holes ep ep') (hep : I ep) : I ep' := by
  induction h with
  | refl => exact hep
  | tail _ hlast ih => exact hstep ih hlast

/-! ## Tools -/

/-- The transitions of the tools: they keep the tick, and work on any store of incidents. -/
structure Asks (session : Session ε F) (holes : Holes (ε × List (EngineCall F)) F)
    (ep ep' : Episode (ε × List (EngineCall F)) F) : Prop where
  tick : ep'.tick = ep.tick
  steps : ∀ s, Steps session holes { ep with incidents := s } { ep' with incidents := s }

instance : IsPreorder (Episode (ε × List (EngineCall F)) F) (Asks session holes) where
  refl _ := ⟨rfl, fun _ => .refl⟩
  trans _ _ _ h h' := ⟨h'.tick.trans h.tick, fun s => (h.steps s).trans (h'.steps s)⟩

theorem asks_coordsOf (buildingId : Val F) : (coordsOf session.recorded buildingId).Along (Asks session holes) := by
  intro ep
  have hstay : Asks session holes ep ep := ⟨rfl, fun _ => .refl⟩
  cases hb : buildingId.requireHash with
  | error e =>
    rw [coordsOf, hb]
    exact hstay
  | ok u =>
    cases hmiss : ep.coordsCache.get? buildingId.tokens with
    | some point =>
      simp only [coordsOf, hb, hmiss, Py.exec_bind, Py.exec_lift, Py.exec_get, Py.exec_pure]
      exact hstay
    | none =>
      have hcall : (session.recorded.callTool "building_to_coords" (locateArgs buildingId)).exec ep.client =
          ((session.entry "building_to_coords" (locateArgs buildingId) ep.client.1).result,
            (ep.called session "building_to_coords" (locateArgs buildingId)).client) :=
        Session.exec_recorded_callTool session _ _ ep.client
      rw [exec_coordsOf_of_miss session.recorded hb hmiss hcall]
      cases hpoint : EngineReply.point
          (session.entry "building_to_coords" (locateArgs buildingId) ep.client.1).result with
      | ok p =>
        refine ⟨rfl, fun s => ?_⟩
        have hstep : Step session holes { ep with incidents := s } _ := .located hmiss hpoint
        exact hstep.steps
      | error e =>
        refine ⟨rfl, fun s => ?_⟩
        have hstep : Step session holes { ep with incidents := s } _ := .unlocated hmiss hpoint
        exact hstep.steps

/-- The two tools that only read the engine. -/
theorem asks_buildingToCoords (buildingId : Val F) :
    ((tools session.recorded).buildingToCoords buildingId).Along (Asks session holes) :=
  Py.along_bind (asks_coordsOf buildingId) fun _ => Py.along_pure _

theorem asks_travelTime (fromSpec toSpec : Val F) :
    ((tools session.recorded).travelTime fromSpec toSpec).Along (Asks session holes) := by
  refine Py.along_bind ?_ fun _ => Py.along_pure _
  intro ep
  rw [Session.travelTime, exec_onClient_recorded]
  refine ⟨rfl, fun s => ?_⟩
  have hstep : Step session holes { ep with incidents := s } _ := .timed fromSpec toSpec
  exact hstep.steps

/-- What a dispatch command does to the episode. -/
theorem exec_dispatch (session : Session ε F) (vehicleId : Val F) (id : String) (x y : F) (rationale : Val F)
    (ep : Episode (ε × List (EngineCall F)) F) :
    (((tools session.recorded).dispatch vehicleId (.str id) x y rationale).exec ep).2 =
      ep.called session "dispatch" (ep.commandArgs vehicleId id x y rationale) := by
  simp only [tools, Session.dispatch, Py.exec_bind, Py.exec_get, exec_onClient_recorded]
  cases (session.entry "dispatch" _ ep.client.1).answer <;> rfl

/-! ## Sessions of the dispatcher -/

/-- The episode in the middle of a session: its store is the one the session works on. -/
def ofWorld (w : World (Episode (ε × List (EngineCall F)) F) F) : Episode (ε × List (EngineCall F)) F :=
  { w.backend with incidents := w.incidents }

/-- Where the episode is at tick `t`, transitions that stay there. -/
def Within (session : Session ε F) (holes : Holes (ε × List (EngineCall F)) F) (t : Val F)
    (ep ep' : Episode (ε × List (EngineCall F)) F) : Prop :=
  ep.tick = t → Steps session holes ep ep' ∧ ep'.tick = t

instance {t : Val F} : IsPreorder (Episode (ε × List (EngineCall F)) F) (Within session holes t) where
  refl _ ht := ⟨.refl, ht⟩
  trans _ _ _ h h' ht := by
    obtain ⟨hs, ht'⟩ := h ht
    exact ⟨hs.trans (h' ht').1, (h' ht').2⟩

theorem within_of_step {t : Val F} {ep ep' : Episode (ε × List (EngineCall F)) F} (h : Step session holes ep ep')
    (htick : ep'.tick = ep.tick) : Within session holes t ep ep' := fun ht => ⟨h.steps, htick.trans ht⟩

/-- **A tool call** makes transitions of the episode. -/
theorem within_toolCall (w : World (Episode (ε × List (EngineCall F)) F) F) (c : ToolCall F) :
    Within session holes c.tick (ofWorld w) (ofWorld (w.step (tools session.recorded) noLog c).2) := by
  intro ht
  have heff := callTool_effect (tools session.recorded) noLog w c
  rw [step_eq]
  generalize (callTool (tools session.recorded) noLog c.name c.args c.tick).exec w = r at heff ⊢
  cases heff with
  | quiet hr => exact ⟨.refl, ht⟩
  | asked hname hm =>
    have hask : ∀ m, (∃ v, m = (tools session.recorded).buildingToCoords v) ∨
        (∃ v v', m = (tools session.recorded).travelTime v v') → m.Along (Asks session holes) := by
      rintro m (⟨v, rfl⟩ | ⟨v, v', rfl⟩)
      · exact asks_buildingToCoords v
      · exact asks_travelTime v v'
    have h := hask _ hm w.backend
    exact ⟨h.steps w.incidents, h.tick.trans ht⟩
  | refiled hname hid hi hi' hs =>
    subst hs
    rw [← ht] at hi'
    have hstep : Step session holes (ofWorld w) _ := .refiled hi hi'
    exact ⟨hstep.steps, ht⟩
  | @dispatched id i vehicleId rationale x y r b hname hid hi hargs hrat hr =>
    have hb := exec_dispatch session vehicleId id x y rationale w.backend
    rw [hr] at hb
    obtain rfl := hb
    have hstep : Step session holes (ofWorld w) _ := .dispatched hi vehicleId x y rationale
    exact ⟨hstep.steps, ht⟩

/-- **A session** makes transitions of the episode. -/
theorem within_session (loop : AgentLoop F) (t : Val F) :
    (inSession (runDispatch (tools session.recorded) noLog loop t)).Along (Within session holes t) := by
  intro ep
  rw [inSession, Py.exec_zoom]
  let w : World _ F := ⟨ep.incidents, .empty, ep⟩
  obtain ⟨calls, htick, hi, hb⟩ := exec_runDispatch (tools session.recorded) noLog loop t w
  have hrun : Within session holes t (ofWorld w)
      (ofWorld (Runs.final (World.step (tools session.recorded) noLog) w calls)) := by
    refine Runs.final_rel (R := fun w w' : World _ F => Within session holes t (ofWorld w) (ofWorld w'))
      (fun _ => refl_of (Within session holes t) _) (fun _ _ _ => trans_of (Within session holes t)) ?_ w
    intro w c hc
    rw [← htick c hc]
    exact within_toolCall w c
  dsimp only
  rw [hi, hb]
  exact hrun

/-! ## Runs -/

theorem steps_onlyObserved {ep ep' : Episode (ε × List (EngineCall F)) F} (h : OnlyObserved ep ep') :
    Steps session holes ep ep' := by
  obtain ⟨tick, seen, rfl⟩ := h
  exact (Step.observed tick).steps.tail (.seen seen)

/-- Up to the holes a tick makes transitions, to an episode that is at its tick. -/
theorem post_passthrough (obs : Val F) (ep : Episode (ε × List (EngineCall F)) F) :
    (passthrough obs).Post ep fun r ep' => Steps session holes ep ep' ∧
      ∀ t routed, r = .ok (t, routed) → obs.getItem "tick" = .ok t ∧ ep'.tick = t := by
  refine ⟨steps_onlyObserved (onlyObserved_passthrough obs ep), fun t routed hr => ?_⟩
  obtain ⟨htick, seen, hep⟩ := passthrough_eq_ok (Prod.ext hr rfl)
  exact ⟨htick, congrArg Episode.tick hep⟩

theorem within_runHoles (obs t : Val F) (routed : Routed F) :
    (runHoles session.recorded holes obs t routed).Along (Within session holes t) := by
  have hfold : (foldReports holes routed t).Along (Within session holes t) := by
    refine Py.along_modify fun ep ht => ?_
    subst ht
    exact ⟨(Step.folded routed).steps, rfl⟩
  refine Py.along_bind hfold fun _ => Py.along_bind Py.along_get fun ep => ?_
  split
  · refine Py.along_bind Py.along_get fun _ => Py.along_bind (Py.along_lift _) fun _ => ?_
    refine Py.along_bind (Py.along_lift _) fun trucks => Py.along_bind Py.along_get fun ep => ?_
    refine Py.along_bind (within_session _ t) fun result => Py.along_modify fun ep => ?_
    exact within_of_step (.charged result.usage) rfl
  · exact Py.along_pure _

/-- **A tick** makes transitions, and leaves the episode at its tick. -/
theorem post_processTick (obs : Val F) (ep : Episode (ε × List (EngineCall F)) F) :
    (processTick session.recorded holes obs).Post ep fun r ep' => Steps session holes ep ep' ∧
      (r = .ok ⟨⟩ → obs.getItem "tick" = .ok ep'.tick) := by
  refine Py.post_bind (post_passthrough obs ep) ?_ fun e ep' h => ⟨h.1, nofun⟩
  rintro ⟨t, routed⟩ ep' ⟨hsteps, htick⟩
  obtain ⟨hobs, ht⟩ := htick t routed rfl
  obtain ⟨hsteps', ht'⟩ := within_runHoles obs t routed ep' ht
  exact ⟨hsteps.trans hsteps', fun _ => hobs.trans (congrArg Except.ok ht'.symm)⟩

/-- **The loop** makes transitions. -/
theorem steps_tickLoop : ∀ (fuel : Nat) (obs outcome : Val F),
    (tickLoop session.recorded holes fuel obs outcome).Along (Steps session holes)
  | 0, _, _ => Py.along_pure _
  | fuel + 1, obs, outcome => by
    refine Py.along_bind (Py.along_lift _) fun running => ?_
    split
    · intro ep
      refine Py.post_bind (P := fun _ ep' => Steps session holes ep ep') (post_processTick obs ep) ?_ fun _ _ h => h.1
      rintro _ ep₁ ⟨hsteps, htick⟩
      refine Py.post_lift_bind (fun t ht => Py.post_get_bind ?_) fun _ => hsteps
      obtain rfl : t = ep₁.tick := Except.ok.inj (ht.symm.trans (htick rfl))
      refine Py.post_bind (Q := fun _ ep₂ => Steps session holes ep ep₂) ?_ ?_ fun _ _ h => h
      · show Steps session holes ep (Py.exec _ _).2
        rw [Session.nextTick, exec_onClient_recorded]
        exact hsteps.tail .ticked
      · intro res ep₂ hsteps₂
        refine Py.post_lift_bind (fun obs' _ => ?_) fun _ => hsteps₂
        exact hsteps₂.trans (steps_tickLoop fuel obs' _ ep₂)
    · exact Py.along_pure _

/-- **A run of an episode** makes transitions and nothing else, whether it returns or raises. -/
theorem steps_episodeRun (scenarioId : String) (seed : Option Int) (fuel : Nat) :
    (episodeRun session.recorded holes scenarioId seed fuel).Along (Steps session holes) := by
  refine Py.along_bind ?_ fun start => Py.along_bind (Py.along_lift _) fun runId => ?_
  · intro ep
    rw [Session.startEpisode, exec_onClient_recorded]
    exact (Step.started scenarioId seed).steps
  · refine Py.along_bind (Py.along_lift _) fun obs => Py.along_bind (steps_tickLoop fuel obs _) fun r => ?_
    cases r with
    | none => exact Py.along_pure _
    | some q => exact Py.along_bind Py.along_get fun _ => Py.along_bind (Py.along_lift _) fun _ => Py.along_pure _

/-! ## New episodes -/

omit [Runtime F] in
theorem exists_fresh_of_new {environ : String → Option String} {client : ε} {useLlm : Bool} {ep : Episode ε F}
    (h : new environ client useLlm = .ok ep) :
    ∃ intakeLlm dispatchLlm, ep = fresh client useLlm intakeLlm dispatchLlm := by
  cases useLlm with
  | false => exact ⟨none, none, (Except.ok.inj h).symm⟩
  | true =>
    obtain ⟨intakeLlm, _, h⟩ := Except.bind_eq_ok.mp h
    obtain ⟨dispatchLlm, _, h⟩ := Except.bind_eq_ok.mp h
    exact ⟨some intakeLlm, some dispatchLlm, (Except.ok.inj h).symm⟩

/-- A run raises before its episode is there, or is a run of a new episode. -/
theorem exec_runEpisode_cases (session : Session ε F) (holes : Holes ε F) (environ : String → Option String)
    (scenarioId : String) (seed : Option Int) (useLlm : Bool) (fuel : Nat) (engine : ε) :
    (∃ e, new environ engine useLlm = (.error e : Except Exc (Episode ε F)) ∧
      (runEpisode session holes environ scenarioId seed useLlm fuel).exec engine = (.error e, engine)) ∨
    ∃ ep, new environ engine useLlm = .ok ep ∧
      (runEpisode session holes environ scenarioId seed useLlm fuel).exec engine =
        (((episodeRun session holes scenarioId seed fuel).exec ep).1,
          ((episodeRun session holes scenarioId seed fuel).exec ep).2.client) := by
  rw [runEpisode, Py.exec_bind, Py.exec_get]
  dsimp only
  rw [Py.exec_bind, Py.exec_lift]
  cases hnew : new environ engine useLlm with
  | error e => exact .inl ⟨e, rfl, rfl⟩
  | ok ep =>
    obtain ⟨intakeLlm, dispatchLlm, rfl⟩ := exists_fresh_of_new hnew
    exact .inr ⟨_, rfl, Py.exec_zoom _ _ _ _⟩

/-- **What a new episode has and every transition keeps**, the episode of a run has where it returns or raises. -/
theorem keeps_runEpisode {I : Episode (ε × List (EngineCall F)) F → Prop} {engine : ε} {useLlm : Bool}
    (hnew : ∀ intakeLlm dispatchLlm, I (fresh (engine, []) useLlm intakeLlm dispatchLlm))
    (hstep : ∀ {ep ep'}, I ep → Step session holes ep ep' → I ep') (environ : String → Option String)
    (scenarioId : String) (seed : Option Int) (fuel : Nat) :
    ∃ ep, I ep ∧ ep.client =
      ((runEpisode session.recorded holes environ scenarioId seed useLlm fuel).exec (engine, [])).2 := by
  rcases exec_runEpisode_cases session.recorded holes environ scenarioId seed useLlm fuel (engine, []) with
    ⟨e, -, hrun⟩ | ⟨ep, hep, hrun⟩
  · rw [hrun]
    exact ⟨_, hnew none none, rfl⟩
  · obtain ⟨intakeLlm, dispatchLlm, rfl⟩ := exists_fresh_of_new hep
    rw [hrun]
    exact ⟨_, (steps_episodeRun scenarioId seed fuel _).keeps hstep (hnew intakeLlm dispatchLlm), rfl⟩

end Episode

end HadrAgent
