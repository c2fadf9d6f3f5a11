import HadrAgent.Dispatch.ToolDefs
import HadrAgent.Runner.EpisodeSteps
import HadrAgent.Runner.TickProtocol

/-!
# Calls of the types the engine declares

`typed_of_run`: where the model keeps to the definitions of the tools, every call an episode makes on its engine has
arguments of the types that `engine_client.py` declares.
-/

namespace HadrAgent

variable {ε F : Type} [Runtime F]

/-! ## Loops that keep to the definitions -/

/-- Whatever the replies, every call of the loop satisfies `P`. -/
def AgentLoop.Calls (P : String → Dict F → Prop) : AgentLoop F → Prop
  | .done _ => True
  | .raise _ => True
  | .call name args next => P name args ∧ ∀ reply, (next reply).Calls P

/-- The session of such a loop is a run of such calls. -/
theorem AgentLoop.Calls.exec_run {β : Type} {P : String → Dict F → Prop} (tools : DispatchTools β F)
    (log : DebugLog β F) (tick : Val F) (loop : AgentLoop F) : loop.Calls P → ∀ w : World β F,
      ∃ calls : List (ToolCall F), (∀ c ∈ calls, P c.name c.args) ∧
        ((loop.run tools log tick).exec w).2 = Runs.final (World.step tools log) w calls := by
  induction loop with
  | done r => exact fun _ w => ⟨[], nofun, rfl⟩
  | raise e => exact fun _ w => ⟨[], nofun, rfl⟩
  | call name args next ih =>
    intro h w
    obtain ⟨hcall, hnext⟩ := h
    let c : ToolCall F := ⟨name, args, tick⟩
    obtain ⟨calls, hcalls, hrun⟩ := ih _ (hnext (w.step tools log c).1) (w.step tools log c).2
    refine ⟨c :: calls, ?_, ?_⟩
    · intro b hb
      rcases List.mem_cons.mp hb with rfl | hb
      · exact hcall
      · exact hcalls b hb
    · rw [run, Py.exec_bind, World.exec_callTool, Runs.final_cons]
      exact hrun

/-- The backend a dispatch leaves. -/
theorem AgentLoop.Calls.exec_runDispatch {β : Type} {P : String → Dict F → Prop} {loop : AgentLoop F}
    (h : loop.Calls P) (tools : DispatchTools β F) (log : DebugLog β F) (tick : Val F) (w : World β F) :
    ∃ calls : List (ToolCall F), (∀ c ∈ calls, P c.name c.args) ∧
      ((runDispatch tools log loop tick).exec w).2.backend =
        (Runs.final (World.step tools log) { w with result := .empty } calls).backend := by
  obtain ⟨calls, hcalls, hrun⟩ := h.exec_run tools log tick loop { w with result := .empty }
  refine ⟨calls, hcalls, ?_⟩
  rw [← hrun]
  simp only [runDispatch, Py.exec_bind, Py.exec_modify]
  cases ((loop.run tools log tick).exec { w with result := .empty }).1 <;> rfl

/-- The model keeps to the definitions, whatever it is asked. -/
def Holes.KeepToDefs (holes : Holes ε F) : Prop :=
  ∀ incidents trucks tick world, (holes.agentLoop incidents trucks tick world).Calls Offered

/-! ## Typed calls -/

/-- The calls of an episode, with the types that the methods of the client declare. -/
inductive TypedCall : String → Dict F → Prop
  | startEpisode (scenarioId : String) (seed : Option Int) :
      TypedCall "start_episode" (Session.startArgs scenarioId seed)
  | buildingToCoords (buildingId : String) : TypedCall "building_to_coords" (Episode.locateArgs (.str buildingId))
  | travelTime (fromSpec toSpec : List (String × Val F)) :
      TypedCall "travel_time" (Episode.travelArgs (.dict fromSpec) (.dict toSpec))
  | dispatch (expectedTick : Val F) (vehicleId id : String) (x y : F) (rationale : String) :
      TypedCall "dispatch" (Session.dispatchCommand expectedTick (.str vehicleId) (.str id)
        (.dict [("x", .float x), ("y", .float y)]) (.str rationale))
  | nextTick (expectedTick : Val F) (intake dispatch : TokenUse) :
      TypedCall "next_tick" (Session.tickCommand expectedTick
        (some (.dict [("intake", Episode.tokenEntry intake), ("dispatch", Episode.tokenEntry dispatch)])))

namespace Episode

/-- The record grew by typed calls. -/
def GrowsTyped (ep ep' : Episode (ε × List (EngineCall F)) F) : Prop :=
  ∃ qs, ep'.client.2 = ep.client.2 ++ qs ∧ ∀ q ∈ qs, TypedCall q.op q.args

instance : IsPreorder (Episode (ε × List (EngineCall F)) F) GrowsTyped where
  refl _ := ⟨[], (List.append_nil _).symm, nofun⟩
  trans := by
    rintro ep₁ ep₂ ep₃ ⟨qs, h, hqs⟩ ⟨qs', h', hqs'⟩
    refine ⟨qs ++ qs', by rw [h', h, List.append_assoc], fun q hq => ?_⟩
    rcases List.mem_append.mp hq with hq | hq
    · exact hqs q hq
    · exact hqs' q hq

omit [Runtime F] in
/-- What leaves the engine alone. -/
theorem growsTyped_of_eq {ep ep' : Episode (ε × List (EngineCall F)) F} (h : ep'.client = ep.client) :
    GrowsTyped ep ep' := ⟨[], by rw [h, List.append_nil], nofun⟩

variable {session : Session ε F}

omit [Runtime F] in
/-- A typed call on the engine. -/
theorem growsTyped_called {op : String} {args : Dict F} (h : TypedCall op args)
    (ep : Episode (ε × List (EngineCall F)) F) : GrowsTyped ep (ep.called session op args) := by
  refine ⟨[session.entry op args ep.client.1], rfl, fun q hq => ?_⟩
  obtain rfl := List.mem_singleton.mp hq
  exact h

theorem growsTyped_onClient {op : String} {args : Dict F} (h : TypedCall op args) :
    (onClient (session.recorded.call op args)).Along GrowsTyped := by
  intro ep
  rw [exec_onClient_recorded]
  exact growsTyped_called h ep

/-! ## Tools -/

theorem growsTyped_coordsOf (buildingId : String) :
    (coordsOf session.recorded (.str buildingId)).Along GrowsTyped :=
  along_coordsOf_of_call (growsTyped_onClient (.buildingToCoords buildingId)) fun _ _ => growsTyped_of_eq rfl

/-- **An offered call** makes typed calls on the engine. -/
theorem growsTyped_step (w : World (Episode (ε × List (EngineCall F)) F) F) {c : ToolCall F}
    (h : Offered c.name c.args) :
    GrowsTyped w.backend (w.step (tools session.recorded) noLog c).2.backend := by
  have hserved := served_of_offered (tools session.recorded) noLog w h
  rw [step_eq]
  generalize (callTool (tools session.recorded) noLog c.name c.args c.tick).exec w = r at hserved ⊢
  cases hserved with
  | @located buildingId hid =>
    exact Py.along_bind (growsTyped_coordsOf buildingId) (fun _ => Py.along_pure _) w.backend
  | @timed fromSpec toSpec hfrom hto =>
    exact Py.along_bind (growsTyped_onClient (.travelTime fromSpec toSpec)) (fun _ => Py.along_pure _) w.backend
  | @sent vehicleId id rationale i x y r b hvehicle hid hi hrationale hr =>
    have hb := exec_dispatch session (.str vehicleId) id x y (.str rationale) w.backend
    rw [hr] at hb
    obtain rfl := hb
    exact growsTyped_called (.dispatch w.backend.tick vehicleId id x y rationale) w.backend
  | refiled hid hi hi' hs => exact refl_of GrowsTyped _
  | unfiled hid hi ht => exact refl_of GrowsTyped _
  | illegal hstatus hne => exact refl_of GrowsTyped _
  | tooLarge hn hxy => exact refl_of GrowsTyped _

/-! ## Runs -/

section Runs

variable {holes : Holes (ε × List (EngineCall F)) F}

theorem growsTyped_session {loop : AgentLoop F} (h : loop.Calls Offered) (t : Val F) :
    (inSession (runDispatch (tools session.recorded) noLog loop t)).Along GrowsTyped := by
  intro ep
  rw [inSession, Py.exec_zoom]
  let w : World _ F := ⟨ep.incidents, .empty, ep⟩
  obtain ⟨calls, hcalls, hb⟩ := h.exec_runDispatch (tools session.recorded) noLog t w
  have hrun : GrowsTyped w.backend (Runs.final (World.step (tools session.recorded) noLog) w calls).backend :=
    Runs.final_rel (R := fun w w' : World _ F => GrowsTyped w.backend w'.backend) (fun _ => refl_of GrowsTyped _)
      (fun _ _ _ => trans_of GrowsTyped) (fun w c hc => growsTyped_step w (hcalls c hc)) w
  rw [← hb] at hrun
  exact hrun

/-- **A tick** makes typed calls. -/
theorem growsTyped_processTick (hholes : holes.KeepToDefs) (obs : Val F) :
    (processTick session.recorded holes obs).Along GrowsTyped := by
  have hpass : (passthrough obs : Py (Episode (ε × List (EngineCall F)) F) _).Along GrowsTyped := by
    refine (onlyObserved_passthrough obs).mono ?_
    rintro ep _ ⟨tick, seen, rfl⟩
    exact growsTyped_of_eq rfl
  refine Py.along_bind hpass fun p => Py.along_bind (Py.along_modify fun ep => growsTyped_of_eq rfl) fun _ => ?_
  refine Py.along_bind Py.along_get fun ep => ?_
  split
  · refine Py.along_bind Py.along_get fun _ => Py.along_bind (Py.along_lift _) fun _ => ?_
    refine Py.along_bind (Py.along_lift _) fun trucks => Py.along_bind Py.along_get fun ep => ?_
    refine Py.along_bind (growsTyped_session (hholes _ _ _ _) _) fun result => Py.along_modify fun ep => ?_
    exact growsTyped_of_eq rfl
  · exact Py.along_pure _

theorem growsTyped_tickLoop (hholes : holes.KeepToDefs) : ∀ (fuel : Nat) (obs outcome : Val F),
    (tickLoop session.recorded holes fuel obs outcome).Along GrowsTyped
  | 0, _, _ => Py.along_pure _
  | fuel + 1, obs, outcome => by
    refine Py.along_bind (Py.along_lift _) fun running => ?_
    split
    · refine Py.along_bind (growsTyped_processTick hholes obs) fun _ => Py.along_bind (Py.along_lift _) fun t => ?_
      refine Py.along_bind Py.along_get fun ep => ?_
      refine Py.along_bind (growsTyped_onClient (.nextTick t ep.intakeTokens ep.dispatchTokens)) fun res => ?_
      exact Py.along_bind (Py.along_lift _) fun obs' => growsTyped_tickLoop hholes fuel obs' _
    · exact Py.along_pure _

theorem growsTyped_episodeRun (hholes : holes.KeepToDefs) (scenarioId : String) (seed : Option Int)
    (fuel : Nat) : (episodeRun session.recorded holes scenarioId seed fuel).Along GrowsTyped := by
  refine Py.along_bind (growsTyped_onClient (.startEpisode scenarioId seed)) fun start => ?_
  refine Py.along_bind (Py.along_lift _) fun runId => Py.along_bind (Py.along_lift _) fun obs => ?_
  refine Py.along_bind (growsTyped_tickLoop hholes fuel obs _) fun r => ?_
  cases r with
  | none => exact Py.along_pure _
  | some q => exact Py.along_bind Py.along_get fun _ => Py.along_bind (Py.along_lift _) fun _ => Py.along_pure _

end Runs

/-- **The engine is called with the types it declares**, over every run of an episode whose model keeps to the
definitions of its tools, up to where it returns or raises. -/
theorem typed_of_run (session : Session ε F) {holes : Holes (ε × List (EngineCall F)) F}
    (hholes : holes.KeepToDefs) (environ : String → Option String) (scenarioId : String) (seed : Option Int)
    (useLlm : Bool) (fuel : Nat) (engine : ε) :
    ∀ q ∈ ((runEpisode session.recorded holes environ scenarioId seed useLlm fuel).exec (engine, [])).2.2,
      TypedCall q.op q.args := by
  rcases exec_runEpisode_cases session.recorded holes environ scenarioId seed useLlm fuel (engine, []) with
    ⟨e, -, hrun⟩ | ⟨ep, hep, hrun⟩
  · rw [hrun]
    nofun
  · obtain ⟨intakeLlm, dispatchLlm, rfl⟩ := exists_fresh_of_new hep
    have hgrows : (episodeRun session.recorded holes scenarioId seed fuel).Along GrowsTyped :=
      growsTyped_episodeRun hholes scenarioId seed fuel
    obtain ⟨qs, hqs, htyped⟩ := hgrows (fresh (engine, []) useLlm intakeLlm dispatchLlm)
    rw [hrun]
    dsimp only
    rw [hqs]
    exact htyped

/-- A fire every tick, and a truck for the first. -/
def briefed : Holes (Unit × List (EngineCall Whole)) Whole where
  fold := drillHoles.fold
  agentLoop _ _ _ _ := .call "dispatch" sendTruck fun _ => .done ⟨.zero, 1, "on the way"⟩

theorem typed_of_run_briefed :
    let run := (runEpisode drillSession.recorded briefed (fun _ => some "key") "two-fires" none true 9).exec ((), [])
    run.2.2.map EngineCall.op = ["start_episode", "dispatch", "next_tick"] ∧ ∀ q ∈ run.2.2, TypedCall q.op q.args :=
  have hbriefed : briefed.KeepToDefs := fun _ _ _ _ => show _ ∧ _ from ⟨offered_sendTruck, fun _ => trivial⟩
  ⟨by decide +kernel, typed_of_run drillSession hbriefed (fun _ => some "key") "two-fires" none true 9 ()⟩

end Episode

end HadrAgent
