import HadrAgent.Runner.Connection

/-!
# Two episodes side by side

An episode reaches its engine through the calls of its session only. Two runs whose episodes stay related, call by call
and tick by tick (`Matches`), return or raise the same (`Matches.episodeBlock`).

- `matches_over`: this holds for any two engines that answer alike in related worlds, where the agent loops do the same;
- `agree_block`: such engines have the same runs.
-/

namespace HadrAgent

variable {β γ ε δ F : Type}

/-! ## Contacts and rounds -/

/-- A relation that takes the contacts seen for equal, and that their intake keeps. -/
structure Episode.Routes (R : Episode ε F → Episode δ F → Prop) : Prop where
  seen : ∀ {ep ep'}, R ep ep' → ep'.seen = ep.seen
  see : ∀ (seen) {ep ep'}, R ep ep' → R { ep with seen := seen } { ep' with seen := seen }
  clock : ∀ (tick) {ep ep'}, R ep ep' → R { ep with tick := tick } { ep' with tick := tick }

namespace Episode.Routes

variable [Runtime F] {R : Episode ε F → Episode δ F → Prop}

theorem routeContact (hR : Routes R) (routed : Routed F) (c : Val F) {ep : Episode ε F} {ep' : Episode δ F}
    (h : R ep ep') : Py.Agree R (Episode.routeContact routed c) (Episode.routeContact routed c) ep ep' := by
  refine Py.agree_bind (Py.agree_lift _ h) fun contactId ep ep' h => ?_
  refine Py.agree_bind (Py.agree_lift _ h) fun _ ep ep' h => Py.agree_get_bind ?_
  rw [hR.seen h]
  split
  · exact Py.agree_pure routed h
  · refine Py.agree_bind (Py.agree_modify ?_) fun _ ep ep' h => ?_
    · rw [hR.seen h]
      exact hR.see _ h
    · refine Py.agree_bind (Py.agree_lift _ h) fun v ep ep' h => ?_
      split
      · exact Py.agree_bind (Py.agree_lift _ h) fun _ ep ep' h => Py.agree_pure _ h
      · exact Py.agree_pure _ h

theorem routeContacts (hR : Routes R) : ∀ (contacts : List (Val F)) (routed : Routed F) {ep : Episode ε F}
    {ep' : Episode δ F}, R ep ep' →
      Py.Agree R (Episode.routeContacts routed contacts) (Episode.routeContacts routed contacts) ep ep'
  | [], routed, _, _, h => Py.agree_pure routed h
  | c :: contacts, routed, _, _, h =>
    Py.agree_bind (hR.routeContact routed c h) fun routed _ _ h => hR.routeContacts contacts routed h

/-- **The intake of a tick** is the same in related episodes. -/
theorem passthrough (hR : Routes R) (obs : Val F) {ep : Episode ε F} {ep' : Episode δ F} (h : R ep ep') :
    Py.Agree R (Episode.passthrough obs) (Episode.passthrough obs) ep ep' := by
  refine Py.agree_bind (Py.agree_lift _ h) fun tick ep ep' h => ?_
  refine Py.agree_bind (Py.agree_modify (hR.clock tick h)) fun _ ep ep' h => ?_
  refine Py.agree_bind (Py.agree_lift _ h) fun v ep ep' h => ?_
  refine Py.agree_bind (Py.agree_lift _ h) fun contacts ep ep' h => ?_
  exact Py.agree_bind (hR.routeContacts contacts _ h) fun routed ep ep' h => Py.agree_pure _ h

end Episode.Routes

/-- Two engines with their holes under which related episodes stay related, call by call and tick by tick. -/
structure Matches [Runtime F] (R : Episode ε F → Episode δ F → Prop) (session : Session ε F) (holes : Holes ε F)
    (session' : Session δ F) (holes' : Holes δ F) : Prop where
  intakeTokens : ∀ {ep ep'}, R ep ep' → ep'.intakeTokens = ep.intakeTokens
  dispatchTokens : ∀ {ep ep'}, R ep ep' → ep'.dispatchTokens = ep.dispatchTokens
  call : ∀ (op args) {ep ep'}, R ep ep' →
    Py.Agree R (Episode.onClient (session.call op args)) (Episode.onClient (session'.call op args)) ep ep'
  tick : ∀ (obs) {ep ep'}, R ep ep' →
    Py.Agree R (Episode.processTick session holes obs) (Episode.processTick session' holes' obs) ep ep'

namespace Matches

variable [Runtime F] {R : Episode ε F → Episode δ F → Prop} {session : Session ε F} {holes : Holes ε F}
  {session' : Session δ F} {holes' : Holes δ F} (hR : Matches R session holes session' holes')
include hR

theorem tokenReport {ep : Episode ε F} {ep' : Episode δ F} (h : R ep ep') : ep'.tokenReport = ep.tokenReport := by
  unfold Episode.tokenReport
  rw [hR.intakeTokens h, hR.dispatchTokens h]

theorem summarize {ep : Episode ε F} {ep' : Episode δ F} (h : R ep ep') (runId obs outcome : Val F) :
    HadrAgent.summarize runId obs outcome ep' = HadrAgent.summarize runId obs outcome ep := by
  unfold HadrAgent.summarize
  rw [hR.intakeTokens h, hR.dispatchTokens h]

/-- **The loop**, round by round. -/
theorem tickLoop : ∀ (fuel : Nat) (obs outcome : Val F) {ep : Episode ε F} {ep' : Episode δ F}, R ep ep' →
    Py.Agree R (HadrAgent.tickLoop session holes fuel obs outcome) (HadrAgent.tickLoop session' holes' fuel obs outcome)
      ep ep'
  | 0, _, _, _, _, h => Py.agree_pure none h
  | fuel + 1, obs, outcome, ep, ep', h => by
    refine Py.agree_bind (Py.agree_lift _ h) fun running ep ep' h => ?_
    split
    · refine Py.agree_bind (hR.tick obs h) fun _ ep ep' h => ?_
      refine Py.agree_bind (Py.agree_lift _ h) fun t ep ep' h => Py.agree_get_bind ?_
      rw [hR.tokenReport h]
      refine Py.agree_bind (hR.call _ _ h) fun res ep ep' h => ?_
      exact Py.agree_bind (Py.agree_lift _ h) fun obs' ep ep' h => tickLoop fuel obs' _ h
    · exact Py.agree_pure _ h

/-- **The block of a run.** -/
theorem episodeBlock (scenarioId : String) (seed : Option Int) (fuel : Nat) {ep : Episode ε F} {ep' : Episode δ F}
    (h : R ep ep') : Py.Agree R (HadrAgent.episodeBlock session holes scenarioId seed fuel)
      (HadrAgent.episodeBlock session' holes' scenarioId seed fuel) ep ep' := by
  refine Py.agree_bind (hR.call _ _ h) fun start ep ep' h => ?_
  refine Py.agree_bind (Py.agree_lift _ h) fun runId ep ep' h => ?_
  refine Py.agree_bind (Py.agree_lift _ h) fun obs ep ep' h => ?_
  refine Py.agree_bind (hR.tickLoop fuel obs _ h) fun r ep ep' h => ?_
  cases r with
  | none => exact Py.agree_pure none h
  | some q =>
    refine Py.agree_get_bind ?_
    rw [hR.summarize h]
    exact Py.agree_pure _ h

theorem episodeRun (scenarioId : String) (seed : Option Int) (fuel : Nat) {ep : Episode ε F} {ep' : Episode δ F}
    (h : R ep ep') : Py.Agree R (HadrAgent.episodeRun session holes scenarioId seed fuel)
      (HadrAgent.episodeRun session' holes' scenarioId seed fuel) ep ep' := by
  rw [episodeRun_eq, episodeRun_eq]
  exact Py.agree_bind (hR.episodeBlock scenarioId seed fuel h) fun s _ _ h => Py.agree_lift _ h

end Matches

/-! ## Related worlds -/

/-- In related worlds the sessions answer alike. -/
def Session.Agree (R : ε → δ → Prop) (session : Session ε F) (session' : Session δ F) : Prop :=
  ∀ op args e d, R e d → Py.Agree R (session.callTool op args) (session'.callTool op args) e d

/-- In related worlds the stages and the agent loop do alike. -/
structure Holes.Agree (R : ε → δ → Prop) (holes : Holes ε F) (holes' : Holes δ F) : Prop where
  fold : holes'.fold = holes.fold
  agentLoop : ∀ incidents trucks tick e d, R e d →
    holes'.agentLoop incidents trucks tick d = holes.agentLoop incidents trucks tick e

/-- The backends answer alike where they are related. -/
structure DispatchTools.Agree (R : β → γ → Prop) (tools : DispatchTools β F) (tools' : DispatchTools γ F) : Prop where
  buildingToCoords : ∀ v {b c}, R b c → Py.Agree R (tools.buildingToCoords v) (tools'.buildingToCoords v) b c
  travelTime : ∀ v v' {b c}, R b c → Py.Agree R (tools.travelTime v v') (tools'.travelTime v v') b c
  dispatch : ∀ vehicleId incidentId x y rationale {b c}, R b c →
    Py.Agree R (tools.dispatch vehicleId incidentId x y rationale) (tools'.dispatch vehicleId incidentId x y rationale)
      b c

/-- The sessions of the dispatcher differ in their backends only, and these are related. -/
def World.Over (R : β → γ → Prop) (w : World β F) (w' : World γ F) : Prop :=
  ∃ c, R w.backend c ∧ w' = { w with backend := c }

/-- The episodes differ in their worlds only, and these are related. -/
def Episode.Over (R : ε → δ → Prop) (ep : Episode ε F) (ep' : Episode δ F) : Prop :=
  ∃ d, R ep.client d ∧ ep' = { ep with client := d }

section Dispatch

variable [Runtime F] {R : β → γ → Prop}

omit [Runtime F] in
theorem agree_onBackend {α : Type} {m : Py β α} {m' : Py γ α} {w : World β F} {w' : World γ F}
    (hm : ∀ {b c}, R b c → Py.Agree R m m' b c) (h : World.Over R w w') :
    Py.Agree (World.Over R) (onBackend m) (onBackend m') w w' := by
  obtain ⟨c, hc, rfl⟩ := h
  obtain ⟨hr, hs⟩ := hm hc
  unfold Py.Agree onBackend
  rw [Py.exec_zoom, Py.exec_zoom]
  exact ⟨hr, _, hs, rfl⟩

omit [Runtime F] in
theorem agree_logged {α : Type} (m : Py (IncidentStore F) α) {w : World β F} {w' : World γ F}
    (h : World.Over R w w') : Py.Agree (World.Over R) (logged noLog m) (logged noLog m) w w' := by
  refine Py.agree_bind ?_ fun a w w' h => Py.agree_get_bind ?_
  · obtain ⟨c, hc, rfl⟩ := h
    unfold Py.Agree
    rw [Py.exec_zoom, Py.exec_zoom]
    exact ⟨rfl, c, hc, rfl⟩
  · refine Py.agree_bind (agree_onBackend (fun hbc => ?_) h) fun _ w w' h => Py.agree_pure a h
    exact Py.agree_pure () hbc

omit [Runtime F] in
theorem incidents_of_over {w : World β F} {w' : World γ F} (h : World.Over R w w') : w'.incidents = w.incidents := by
  obtain ⟨c, -, rfl⟩ := h
  rfl

theorem agree_fileIncidentUpdate (args : Dict F) (tick : Val F) {w : World β F} {w' : World γ F}
    (h : World.Over R w w') :
    Py.Agree (World.Over R) (fileIncidentUpdate noLog args tick) (fileIncidentUpdate noLog args tick) w w' := by
  refine Py.agree_get_bind ?_
  rw [incidents_of_over h]
  refine Py.agree_bind (Py.agree_lift _ h) fun i w w' h => ?_
  cases i with
  | none => exact Py.agree_pure _ h
  | some i =>
    dsimp only
    split
    · exact Py.agree_bind (agree_logged _ h) fun _ w w' h => Py.agree_pure _ h
    · exact Py.agree_bind (agree_logged _ h) fun _ w w' h => Py.agree_pure _ h

variable {tools : DispatchTools β F} {tools' : DispatchTools γ F}

theorem DispatchTools.Agree.dispatchTruck (hR : tools.Agree R tools') (args : Dict F) {w : World β F} {w' : World γ F}
    (h : World.Over R w w') :
    Py.Agree (World.Over R) (HadrAgent.dispatchTruck tools args) (HadrAgent.dispatchTruck tools' args) w w' := by
  refine Py.agree_get_bind ?_
  rw [incidents_of_over h]
  refine Py.agree_bind (Py.agree_lift _ h) fun i w w' h => ?_
  cases i with
  | none => exact Py.agree_pure _ h
  | some i =>
    refine Py.agree_bind (Py.agree_lift _ h) fun vehicleId w w' h => ?_
    refine Py.agree_bind (Py.agree_lift _ h) fun v w w' h => Py.agree_bind (Py.agree_lift _ h) fun x w w' h => ?_
    refine Py.agree_bind (Py.agree_lift _ h) fun v w w' h => Py.agree_bind (Py.agree_lift _ h) fun y w w' h => ?_
    refine Py.agree_bind (agree_onBackend (hR.dispatch _ _ x y _) h) fun out w w' h => ?_
    dsimp only
    split
    · refine Py.agree_bind (Py.agree_modify ?_) fun _ w w' h => Py.agree_pure out h
      obtain ⟨c, hc, rfl⟩ := h
      exact ⟨c, hc, rfl⟩
    · exact Py.agree_pure out h

/-- **A tool call** in two sessions, one case for each tool. -/
theorem DispatchTools.Agree.callTool (hR : tools.Agree R tools') (name : String) (args : Dict F) (tick : Val F)
    {w : World β F} {w' : World γ F} (h : World.Over R w w') : Py.Agree (World.Over R)
      (HadrAgent.callTool tools noLog name args tick) (HadrAgent.callTool tools' noLog name args tick) w w' := by
  unfold HadrAgent.callTool
  split
  · exact Py.agree_bind (Py.agree_lift _ h) fun v w w' h => agree_onBackend (hR.buildingToCoords v) h
  · split
    · exact agree_onBackend (hR.travelTime _ _) h
    · split
      · exact agree_fileIncidentUpdate args tick h
      · split
        · exact hR.dispatchTruck args h
        · exact Py.agree_pure _ h

theorem DispatchTools.Agree.step (hR : tools.Agree R tools') (c : ToolCall F) {w : World β F} {w' : World γ F}
    (h : World.Over R w w') : (w'.step tools' noLog c).1 = (w.step tools noLog c).1 ∧
      World.Over R (w.step tools noLog c).2 (w'.step tools' noLog c).2 := by
  obtain ⟨hr, hs⟩ := hR.callTool c.name c.args c.tick h
  unfold World.step runTool
  generalize (HadrAgent.callTool tools noLog c.name c.args c.tick).exec w = run at hr hs ⊢
  generalize (HadrAgent.callTool tools' noLog c.name c.args c.tick).exec w' = run' at hr hs ⊢
  obtain ⟨r, u⟩ := run
  obtain ⟨r', u'⟩ := run'
  obtain rfl : r = r' := hr
  cases r with
  | ok reply => exact ⟨rfl, hs⟩
  | error e => exact ⟨rfl, hs⟩

/-- **A session of a loop**, reply by reply. -/
theorem DispatchTools.Agree.run (hR : tools.Agree R tools') (tick : Val F) (loop : AgentLoop F) :
    ∀ {w : World β F} {w' : World γ F}, World.Over R w w' →
      Py.Agree (World.Over R) (loop.run tools noLog tick) (loop.run tools' noLog tick) w w' := by
  induction loop with
  | done r => exact Py.agree_pure r
  | raise e => exact fun h => ⟨rfl, h⟩
  | call name args next ih =>
    intro w w' h
    refine Py.agree_bind ?_ fun reply _ _ h => ih reply h
    obtain ⟨hr, hs⟩ := hR.step ⟨name, args, tick⟩ h
    exact ⟨congrArg Except.ok hr.symm, hs⟩

theorem DispatchTools.Agree.runDispatch (hR : tools.Agree R tools') (loop : AgentLoop F) (tick : Val F)
    {w : World β F} {w' : World γ F} (h : World.Over R w w') : Py.Agree (World.Over R)
      (HadrAgent.runDispatch tools noLog loop tick) (HadrAgent.runDispatch tools' noLog loop tick) w w' := by
  refine Py.agree_bind (Py.agree_modify ?_) fun _ _ _ h => ?_
  · obtain ⟨c, hc, rfl⟩ := h
    exact ⟨c, hc, rfl⟩
  · refine Py.agree_bind (hR.run tick loop h) fun r w w' h => ?_
    refine Py.agree_bind (Py.agree_modify ?_) fun _ w w' h => Py.agree_get_bind ?_
    · obtain ⟨c, hc, rfl⟩ := h
      exact ⟨c, hc, rfl⟩
    · obtain ⟨c, hc, rfl⟩ := h
      exact Py.agree_pure _ ⟨c, hc, rfl⟩

end Dispatch

namespace Episode

variable {R : ε → δ → Prop}

theorem routes_over : Routes (@Over ε δ F R) where
  seen := by
    rintro ep _ ⟨d, -, rfl⟩
    rfl
  see := by
    rintro seen ep _ ⟨d, hd, rfl⟩
    exact ⟨d, hd, rfl⟩
  clock := by
    rintro tick ep _ ⟨d, hd, rfl⟩
    exact ⟨d, hd, rfl⟩

theorem agree_onWorld {α : Type} {m : Py ε α} {m' : Py δ α} (hm : ∀ e d, R e d → Py.Agree R m m' e d)
    {ep : Episode ε F} {ep' : Episode δ F} (h : Over R ep ep') :
    Py.Agree (Over R) (onClient m) (onClient m') ep ep' := by
  obtain ⟨d, hd, rfl⟩ := h
  obtain ⟨hr, hs⟩ := hm _ _ hd
  unfold Py.Agree onClient
  rw [Py.exec_zoom, Py.exec_zoom]
  exact ⟨hr, _, hs, rfl⟩

variable [Runtime F] {session : Session ε F} {session' : Session δ F}

theorem agree_call (hR : session.Agree R session') (op : String) (args : Dict F) {ep : Episode ε F}
    {ep' : Episode δ F} (h : Over R ep ep') :
    Py.Agree (Over R) (onClient (session.call op args)) (onClient (session'.call op args)) ep ep' := by
  refine agree_onWorld (fun e d hd => ?_) h
  exact Py.agree_bind (hR op args e d hd) fun res _ _ h => Py.agree_lift _ h

theorem agree_coordsOf (hR : session.Agree R session') (buildingId : Val F) {ep : Episode ε F} {ep' : Episode δ F}
    (h : Over R ep ep') : Py.Agree (Over R) (coordsOf session buildingId) (coordsOf session' buildingId) ep ep' := by
  refine Py.agree_bind (Py.agree_lift _ h) fun _ ep ep' h => Py.agree_get_bind ?_
  have hcache : ep'.coordsCache = ep.coordsCache := by
    obtain ⟨d, -, rfl⟩ := h
    rfl
  rw [hcache]
  cases ep.coordsCache.get? buildingId.tokens with
  | some point => exact Py.agree_pure point h
  | none =>
    refine Py.agree_bind (agree_call hR _ _ h) fun r ep ep' h => ?_
    refine Py.agree_bind (Py.agree_lift _ h) fun p ep ep' h => ?_
    refine Py.agree_bind (Py.agree_lift _ h) fun x ep ep' h => Py.agree_bind (Py.agree_lift _ h) fun y ep ep' h => ?_
    refine Py.agree_bind (Py.agree_modify ?_) fun _ ep ep' h => Py.agree_pure _ h
    obtain ⟨d, hd, rfl⟩ := h
    exact ⟨d, hd, rfl⟩

/-- **The tools of an episode** answer alike. -/
theorem agree_tools (hR : session.Agree R session') : (tools session).Agree (Over R) (tools session') where
  buildingToCoords v _ _ h := Py.agree_bind (agree_coordsOf hR v h) fun p _ _ h => Py.agree_pure _ h
  travelTime v v' _ _ h := Py.agree_bind (agree_call hR _ _ h) fun r _ _ h => Py.agree_pure _ h
  dispatch vehicleId incidentId x y rationale ep ep' h := by
    refine Py.agree_get_bind ?_
    have htick : ep'.tick = ep.tick := by
      obtain ⟨d, -, rfl⟩ := h
      rfl
    rw [htick]
    exact Py.agree_bind (agree_call hR _ _ h) fun r _ _ h => Py.agree_pure _ h

omit [Runtime F] in
theorem agree_inSession {α : Type} {m : Py (World (Episode ε F) F) α} {m' : Py (World (Episode δ F) F) α}
    (hm : ∀ {w w'}, World.Over (Over R) w w' → Py.Agree (World.Over (Over R)) m m' w w') {ep : Episode ε F}
    {ep' : Episode δ F} (h : Over R ep ep') : Py.Agree (Over R) (inSession m) (inSession m') ep ep' := by
  obtain ⟨d, hd, rfl⟩ := h
  have hworld : World.Over (Over R) ⟨ep.incidents, .empty, ep⟩ ⟨ep.incidents, .empty, { ep with client := d }⟩ :=
    ⟨_, ⟨d, hd, rfl⟩, rfl⟩
  obtain ⟨hr, b, ⟨d', hd', rfl⟩, hw⟩ := hm hworld
  unfold Py.Agree inSession
  rw [Py.exec_zoom, Py.exec_zoom]
  refine ⟨hr, d', hd', ?_⟩
  rw [hw]

variable {holes : Holes ε F} {holes' : Holes δ F}

theorem agree_dispatchTick (hR : session.Agree R session') (hH : holes.Agree R holes') (obs tick : Val F)
    {ep : Episode ε F} {ep' : Episode δ F} (h : Over R ep ep') :
    Py.Agree (Over R) (dispatchTick session holes obs tick) (dispatchTick session' holes' obs tick) ep ep' := by
  refine Py.agree_get_bind ?_
  have hassert : ep'.assertClient = ep.assertClient := by
    obtain ⟨d, -, rfl⟩ := h
    rfl
  rw [hassert]
  refine Py.agree_bind (Py.agree_lift _ h) fun _ ep ep' h => ?_
  refine Py.agree_bind (Py.agree_lift _ h) fun trucks ep ep' h => Py.agree_get_bind ?_
  refine Py.agree_bind (agree_inSession (fun hw => ?_) h) fun result ep ep' h => Py.agree_modify ?_
  · obtain ⟨d, hd, rfl⟩ := h
    rw [hH.agentLoop ep.incidents trucks tick ep.client d hd]
    exact (agree_tools hR).runDispatch _ tick hw
  · obtain ⟨d, hd, rfl⟩ := h
    exact ⟨d, hd, rfl⟩

/-- **A tick** in related worlds. -/
theorem agree_tick (hR : session.Agree R session') (hH : holes.Agree R holes') (obs : Val F) {ep : Episode ε F}
    {ep' : Episode δ F} (h : Over R ep ep') :
    Py.Agree (Over R) (processTick session holes obs) (processTick session' holes' obs) ep ep' := by
  refine Py.agree_bind (routes_over.passthrough obs h) fun p ep ep' h => ?_
  obtain ⟨tick, routed⟩ := p
  refine Py.agree_bind (Py.agree_modify ?_) fun _ ep ep' h => Py.agree_get_bind ?_
  · obtain ⟨d, hd, rfl⟩ := h
    rw [hH.fold]
    exact ⟨d, hd, rfl⟩
  · have hllm : ep'.useLlm = ep.useLlm := by
      obtain ⟨d, -, rfl⟩ := h
      rfl
    rw [hllm]
    split
    · exact agree_dispatchTick hR hH obs tick h
    · exact Py.agree_pure _ h

end Episode

/-- **Two engines that answer alike**, with agent loops that do the same there. -/
theorem matches_over [Runtime F] {R : ε → δ → Prop} {session : Session ε F} {holes : Holes ε F} {session' : Session δ F}
    {holes' : Holes δ F} (hR : session.Agree R session') (hH : holes.Agree R holes') :
    Matches (Episode.Over R) session holes session' holes' where
  intakeTokens := by
    rintro ep _ ⟨d, -, rfl⟩
    rfl
  dispatchTokens := by
    rintro ep _ ⟨d, -, rfl⟩
    rfl
  call _ _ _ _ h := Episode.agree_call hR _ _ h
  tick obs _ _ h := Episode.agree_tick hR hH obs h

/-- The episode that a run begins with is the same in another world. -/
theorem Episode.new_eq_map (environ : String → Option String) (useLlm : Bool) (e : ε) (d : δ) :
    (new environ d useLlm : Except Exc (Episode δ F)) =
      (new environ e useLlm : Except Exc (Episode ε F)).map fun ep => { ep with client := d } := by
  unfold new
  cases useLlm with
  | false => rfl
  | true =>
    rw [if_pos rfl, if_pos rfl]
    cases llmClient environ "INTAKE_" with
    | error x => rfl
    | ok intakeLlm => cases llmClient environ "DISPATCH_" <;> rfl

/-- **Runs in related worlds** return or raise the same. -/
theorem agree_block [Runtime F] {R : ε → δ → Prop} {session : Session ε F} {holes : Holes ε F} {session' : Session δ F}
    {holes' : Holes δ F} (hR : session.Agree R session') (hH : holes.Agree R holes')
    (environ : String → Option String) (scenarioId : String) (seed : Option Int) (useLlm : Bool) (fuel : Nat) {e : ε}
    {d : δ} (h : R e d) : Py.Agree R (block session holes environ scenarioId seed useLlm fuel)
      (block session' holes' environ scenarioId seed useLlm fuel) e d := by
  refine Py.agree_get_bind ?_
  rw [Episode.new_eq_map environ useLlm e d]
  cases Episode.new environ e useLlm with
  | error x => exact ⟨rfl, h⟩
  | ok ep =>
    obtain ⟨hr, d', hd', hclient⟩ := (matches_over hR hH).episodeBlock scenarioId seed fuel
      (⟨d, h, rfl⟩ : Episode.Over R { ep with client := e } { ep with client := d })
    unfold Py.Agree
    simp only [Py.exec_bind, Py.exec_lift, Except.map, Py.exec_zoom]
    refine ⟨hr, ?_⟩
    rw [hclient]
    exact hd'

end HadrAgent
