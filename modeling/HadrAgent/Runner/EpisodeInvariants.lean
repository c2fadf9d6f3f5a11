import HadrAgent.Dispatch.CloseReasons
import HadrAgent.Runner.EpisodeSteps
import HadrAgent.Runner.TickProtocol
import HadrAgent.Stores.IncidentIds

/-!
# What an episode keeps

Invariants of the transitions of an episode, so of every run, wherever it returns or raises.

- `sound_of_run`: where the holes go through the methods of the stores, the stores keep their invariants and lose
  nothing, and every dispatch command names an incident on file;
- `nothing_sent`: where nothing is folded into the stores, no dispatch command is issued, whatever the model asks for;
- `located_once`: the cache holds what the engine answered, and a building it answered for is not asked for again.
-/

namespace HadrAgent

variable {ε F : Type}

/-- Intake and reconciliation go through `add`, `open`, `link` and `close` with a reason. -/
structure Holes.UseStores [Runtime F] (holes : Holes ε F) : Prop where
  incidents : ∀ routed tick stores, ∃ calls : List (IncidentCall F), (∀ c ∈ calls, (AgentStep.store c).Reasoned) ∧
    (holes.fold routed tick stores).1 = Runs.final IncidentStore.step stores.1 calls
  reports : ∀ routed tick stores, ∃ rows, (holes.fold routed tick stores).2 = Runs.final ReportStore.add stores.2 rows

namespace Episode

/-! ## The stores -/

/-- The incident of a dispatch command is on file. -/
def OnFile (s : IncidentStore F) (q : EngineCall F) : Prop :=
  ∃ id i, q.args.get? "incident_id" = some (.str id) ∧ s.byId.get? id = some i

/-- The stores keep their invariants, and every dispatch command names an incident on file. -/
structure Sound [Runtime F] (ep : Episode (ε × List (EngineCall F)) F) : Prop where
  minted : ep.incidents.Minted
  accounted : ep.incidents.Accounted
  evidence : ∃ rows, ep.reports.Logs rows
  filed : ∀ q ∈ ep.client.2, q.op = "dispatch" → OnFile ep.incidents q

/-- Incidents and evidence are appended, in their order. -/
structure Grows (ep ep' : Episode ε F) : Prop where
  incidents : ep.incidents.all.map Incident.incidentId <+: ep'.incidents.all.map Incident.incidentId
  reports : ep.reports.all <+: ep'.reports.all

/-- The stores as they were. -/
theorem Grows.of_eq {ep ep' : Episode ε F} (hi : ep'.incidents = ep.incidents) (hr : ep'.reports = ep.reports) :
    Grows ep ep' := by
  refine ⟨?_, ?_⟩
  · rw [hi]
  · rw [hr]

theorem Grows.trans {ep₁ ep₂ ep₃ : Episode ε F} (h : Grows ep₁ ep₂) (h' : Grows ep₂ ep₃) : Grows ep₁ ep₃ :=
  ⟨h.incidents.trans h'.incidents, h.reports.trans h'.reports⟩

/-- An incident stays on file as long as its key does. -/
theorem OnFile.mono {s s' : IncidentStore F} (hkeys : s.byId.keys ⊆ s'.byId.keys) {q : EngineCall F}
    (h : OnFile s q) : OnFile s' q := by
  obtain ⟨id, i, hid, hi⟩ := h
  obtain ⟨i', hi'⟩ := OrdDict.exists_get?_of_mem (hkeys (OrdDict.mem_keys_of_get? hi))
  exact ⟨id, i', hid, hi'⟩

theorem keys_subset_of_le {s s' : IncidentStore F} (h : s.Minted) (h' : s'.Minted)
    (hp : s.all.map Incident.incidentId <+: s'.all.map Incident.incidentId) : s.byId.keys ⊆ s'.byId.keys := by
  rw [h.map_incidentId_all, h'.map_incidentId_all] at hp
  intro id hid
  obtain ⟨id', hid', e⟩ := List.mem_map.mp (hp.subset (List.mem_map_of_mem hid))
  exact Val.str.inj e ▸ hid'

variable [Runtime F] {session : Session ε F} {holes : Holes (ε × List (EngineCall F)) F}

/-- The stores and the record as they were. -/
theorem Sound.congr {ep ep' : Episode (ε × List (EngineCall F)) F} (h : ep.Sound) (hi : ep'.incidents = ep.incidents)
    (hr : ep'.reports = ep.reports) (hrecord : ep'.client.2 = ep.client.2) : ep'.Sound where
  minted := hi ▸ h.minted
  accounted := hi ▸ h.accounted
  evidence := hr ▸ h.evidence
  filed := by
    rw [hrecord, hi]
    exact h.filed

/-- A call on the engine, which touches no store. -/
theorem Sound.called {ep : Episode (ε × List (EngineCall F)) F} (h : ep.Sound) (op : String) (args : Dict F)
    (hfiled : op = "dispatch" → OnFile ep.incidents (session.entry op args ep.client.1)) :
    (ep.called session op args).Sound where
  minted := h.minted
  accounted := h.accounted
  evidence := h.evidence
  filed q hq hop := by
    rcases List.mem_append.mp hq with hq | hq
    · exact h.filed q hq hop
    · obtain rfl := List.mem_singleton.mp hq
      exact hfiled hop

/-- The stores after the holes. -/
theorem Sound.folded {ep : Episode (ε × List (EngineCall F)) F} (h : ep.Sound) (hholes : holes.UseStores)
    (routed : Routed F) : (ep.folded holes routed).Sound ∧ Grows ep (ep.folded holes routed) := by
  obtain ⟨calls, hcalls, hfold⟩ := hholes.incidents routed ep.tick (ep.incidents, ep.reports)
  obtain ⟨rows, hrows⟩ := hholes.reports routed ep.tick (ep.incidents, ep.reports)
  obtain ⟨before, hbefore⟩ := h.evidence
  have hincidents : (ep.folded holes routed).incidents = Runs.final IncidentStore.step ep.incidents calls := hfold
  have hreports : (ep.folded holes routed).reports = Runs.final ReportStore.add ep.reports rows := hrows
  have hminted : (ep.folded holes routed).incidents.Minted := hincidents ▸ IncidentStore.minted_final h.minted calls
  have hlogs : (ep.folded holes routed).reports.Logs (before ++ rows) :=
    hreports ▸ (ReportStore.logs_run rows hbefore).1
  have hgrows : Grows ep (ep.folded holes routed) := by
    refine ⟨?_, ?_⟩
    · rw [hincidents, IncidentStore.map_incidentId_final calls h.minted]
      exact List.prefix_append _ _
    · rw [hlogs.all_eq, hbefore.all_eq]
      exact firstOcc_prefix (List.prefix_append _ _)
  refine ⟨⟨hminted, ?_, ⟨_, hlogs⟩, ?_⟩, hgrows⟩
  · rw [hincidents]
    exact IncidentStore.records_final (fun c _ _ _ ho => opened_accounted ho)
      (fun c hc _ _ hr => onRecord_accounted (hcalls c hc) hr) h.accounted
  · intro q hq hop
    exact (h.filed q hq hop).mono (keys_subset_of_le h.minted hminted hgrows.incidents)

/-- A record rewritten by the dispatcher. -/
theorem Sound.refiled {ep : Episode (ε × List (EngineCall F)) F} (h : ep.Sound) {id : String} {args : Dict F}
    {i i' : Incident F} (hi : ep.incidents.byId.get? id = some i) (hi' : i.refiled args ep.tick = .ok i') :
    ({ ep with incidents := ep.incidents.put (.str id) i' } : Episode (ε × List (EngineCall F)) F).Sound ∧
      Grows ep { ep with incidents := ep.incidents.put (.str id) i' } := by
  have hid : i'.incidentId = i.incidentId := (refiled_spec hi').frame .incidentId nofun nofun nofun nofun
  have hminted : (ep.incidents.put (.str id) i').Minted := h.minted.rewrite hi hid
  have hkeys : (ep.incidents.put (.str id) i').byId.keys = ep.incidents.byId.keys :=
    OrdDict.keys_insert_of_mem (OrdDict.mem_keys_of_get? hi) i'
  refine ⟨⟨hminted, ?_, h.evidence, ?_⟩, ?_, List.prefix_rfl⟩
  · intro id' j hj
    have hj' : (ep.incidents.byId.insert id i').get? id' = some j := hj
    rw [OrdDict.get?_insert] at hj'
    split at hj'
    · exact Option.some.inj hj' ▸ refiled_accounted hi' (h.accounted id i hi)
    · exact h.accounted id' j hj'
  · intro q hq hop
    exact (h.filed q hq hop).mono (by rw [hkeys]; exact List.Subset.refl _)
  · show _ <+: (ep.incidents.put (.str id) i').all.map Incident.incidentId
    rw [hminted.map_incidentId_all, h.minted.map_incidentId_all, hkeys]

/-- **A transition** keeps the stores sound and loses nothing. -/
theorem sound_step (hholes : holes.UseStores) {ep ep' : Episode (ε × List (EngineCall F)) F} (h : ep.Sound)
    (hstep : Step session holes ep ep') : ep'.Sound ∧ Grows ep ep' := by
  have hstay : ∀ {op : String} {args : Dict F}, op ≠ "dispatch" → (ep.called session op args).Sound :=
    fun hop => h.called _ _ fun e => absurd e hop
  cases hstep with
  | started scenarioId seed => exact ⟨hstay (by decide), .of_eq rfl rfl⟩
  | observed tick => exact ⟨h.congr rfl rfl rfl, .of_eq rfl rfl⟩
  | seen seen => exact ⟨h.congr rfl rfl rfl, .of_eq rfl rfl⟩
  | folded routed => exact h.folded hholes routed
  | unlocated hmiss hpoint => exact ⟨hstay (by decide), .of_eq rfl rfl⟩
  | @located buildingId p hmiss hpoint =>
    have hcall : (ep.called session "building_to_coords" (locateArgs buildingId)).Sound := hstay (by decide)
    exact ⟨hcall.congr rfl rfl rfl, .of_eq rfl rfl⟩
  | timed fromSpec toSpec => exact ⟨hstay (by decide), .of_eq rfl rfl⟩
  | @dispatched id i hi vehicleId x y rationale => exact ⟨h.called _ _ fun _ => ⟨id, i, rfl, hi⟩, .of_eq rfl rfl⟩
  | refiled hi hi' => exact h.refiled hi hi'
  | charged usage => exact ⟨h.congr rfl rfl rfl, .of_eq rfl rfl⟩
  | ticked => exact ⟨hstay (by decide), .of_eq rfl rfl⟩

theorem sound_steps (hholes : holes.UseStores) {ep ep' : Episode (ε × List (EngineCall F)) F} (h : ep.Sound)
    (hsteps : Steps session holes ep ep') : ep'.Sound ∧ Grows ep ep' := by
  refine hsteps.keeps (I := fun ep' => ep'.Sound ∧ Grows ep ep') ?_ ⟨h, .of_eq rfl rfl⟩
  rintro ep₁ ep₂ ⟨hsound, hgrows⟩ hstep
  obtain ⟨hsound', hgrows'⟩ := sound_step hholes hsound hstep
  exact ⟨hsound', hgrows.trans hgrows'⟩

theorem sound_of_new {environ : String → Option String} {engine : ε} {useLlm : Bool}
    {ep : Episode (ε × List (EngineCall F)) F} (h : Episode.new environ (engine, []) useLlm = .ok ep) : ep.Sound := by
  obtain ⟨intakeLlm, dispatchLlm, rfl⟩ := exists_fresh_of_new h
  exact ⟨.empty, IncidentStore.accounted_empty, ⟨[], .empty⟩, nofun⟩

/-- **The stores of an episode**, over every engine, every agent loop, and every way a tick or a run may end: a new
episode is sound, a tick and a run keep it so, and neither loses an incident or a row of evidence. -/
theorem sound_of_run (session : Session ε F) {holes : Holes (ε × List (EngineCall F)) F} (hholes : holes.UseStores) :
    (∀ environ engine useLlm, ∀ ep : Episode (ε × List (EngineCall F)) F,
      Episode.new environ (engine, []) useLlm = .ok ep → ep.Sound) ∧
    ∀ ep : Episode (ε × List (EngineCall F)) F, ep.Sound →
      (∀ obs, ((processTick session.recorded holes obs).exec ep).2.Sound ∧
        Grows ep ((processTick session.recorded holes obs).exec ep).2) ∧
      ∀ scenarioId seed fuel, ((episodeRun session.recorded holes scenarioId seed fuel).exec ep).2.Sound ∧
        Grows ep ((episodeRun session.recorded holes scenarioId seed fuel).exec ep).2 := by
  refine ⟨fun environ engine useLlm ep hnew => sound_of_new hnew, fun ep hep => ⟨?_, ?_⟩⟩
  · intro obs
    have htick : Steps session holes ep ((processTick session.recorded holes obs).exec ep).2 :=
      (post_processTick obs ep).1
    exact sound_steps hholes hep htick
  · intro scenarioId seed fuel
    have hrun : Steps session holes ep ((episodeRun session.recorded holes scenarioId seed fuel).exec ep).2 :=
      steps_episodeRun scenarioId seed fuel ep
    exact sound_steps hholes hep hrun

/-- The drill goes through the stores. -/
theorem drillHoles_useStores : drillHoles.UseStores where
  incidents _ tick _ :=
    ⟨[.openIncident (.str "fire") .none tick .none .empty], fun _ hc => List.mem_singleton.mp hc ▸ trivial, rfl⟩
  reports _ _ _ := ⟨[], rfl⟩

/-- The drill leaves the one incident that it sent a truck to. -/
theorem sound_of_run_drill :
    let ep := fresh ((), []) true none (some ⟨"", "key"⟩)
    let ep' := ((episodeRun drillSession.recorded drillHoles "two-fires" none 9).exec ep).2
    ep'.client.2.map EngineCall.op = ["start_episode", "dispatch", "next_tick"] ∧
      ep'.incidents.byId.keys = ["inc-1"] ∧ ep'.Sound := by
  intro ep ep'
  have hep : ep.Sound := ⟨.empty, IncidentStore.accounted_empty, ⟨[], .empty⟩, nofun⟩
  have hrun := ((sound_of_run drillSession drillHoles_useStores).2 ep hep).2 "two-fires" none 9
  exact ⟨by decide +kernel, by decide +kernel, hrun.1⟩

/-! ## Nothing filed, nothing sent -/

/-- No incident was ever filed, and no dispatch command issued. -/
structure Idle (ep : Episode (ε × List (EngineCall F)) F) : Prop where
  unfiled : ep.incidents.byId = .empty
  unsent : ∀ q ∈ ep.client.2, q.op ≠ "dispatch"

omit [Runtime F] in
theorem Idle.called {ep : Episode (ε × List (EngineCall F)) F} (h : ep.Idle) {op : String} (hop : op ≠ "dispatch")
    (args : Dict F) : (ep.called session op args).Idle where
  unfiled := h.unfiled
  unsent q hq := by
    rcases List.mem_append.mp hq with hq | hq
    · exact h.unsent q hq
    · obtain rfl := List.mem_singleton.mp hq
      exact hop

/-- A transition of an idle episode: there is no incident that the dispatcher could name. -/
theorem idle_step (hfold : ∀ routed tick stores, stores.1.byId = .empty →
      (holes.fold routed tick stores).1.byId = .empty)
    {ep ep' : Episode (ε × List (EngineCall F)) F} (h : ep.Idle) (hstep : Step session holes ep ep') : ep'.Idle := by
  have hno : ∀ {id : String} {i : Incident F}, ep.incidents.byId.get? id ≠ some i := by
    intro id i hi
    rw [h.unfiled] at hi
    cases hi
  cases hstep with
  | started scenarioId seed => exact h.called (by decide) _
  | observed tick => exact ⟨h.unfiled, h.unsent⟩
  | seen seen => exact ⟨h.unfiled, h.unsent⟩
  | folded routed => exact ⟨hfold routed ep.tick (ep.incidents, ep.reports) h.unfiled, h.unsent⟩
  | unlocated hmiss hpoint => exact h.called (by decide) _
  | @located buildingId p hmiss hpoint =>
    have hcall : (ep.called session "building_to_coords" (locateArgs buildingId)).Idle := h.called (by decide) _
    exact ⟨hcall.unfiled, hcall.unsent⟩
  | timed fromSpec toSpec => exact h.called (by decide) _
  | dispatched hi vehicleId x y rationale => exact absurd hi hno
  | refiled hi hi' => exact absurd hi hno
  | charged usage => exact ⟨h.unfiled, h.unsent⟩
  | ticked => exact h.called (by decide) _

/-- **An episode that files no incident sends no truck**, over every engine and whatever the model asks for, up to where
it returns or raises. The holes as they ship are such. -/
theorem nothing_sent (session : Session ε F) {holes : Holes (ε × List (EngineCall F)) F}
    (hfold : ∀ routed tick stores, stores.1.byId = .empty → (holes.fold routed tick stores).1.byId = .empty)
    (environ : String → Option String) (scenarioId : String) (seed : Option Int) (useLlm : Bool) (fuel : Nat)
    (engine : ε) :
    ∀ q ∈ ((runEpisode session.recorded holes environ scenarioId seed useLlm fuel).exec (engine, [])).2.2,
      q.op ≠ "dispatch" := by
  have hnew : ∀ intakeLlm dispatchLlm,
      (fresh (engine, []) useLlm intakeLlm dispatchLlm : Episode (ε × List (EngineCall F)) F).Idle :=
    fun _ _ => ⟨rfl, nofun⟩
  have hstep : ∀ {ep ep'}, Idle ep → Step session holes ep ep' → Idle ep' := idle_step hfold
  obtain ⟨ep, hidle, hclient⟩ := keeps_runEpisode hnew hstep environ scenarioId seed fuel
  rw [← hclient]
  exact hidle.unsent

/-- Where the drill files nothing, what its model asks for is refused. -/
theorem nothing_sent_drill :
    let holes := { drillHoles with fold := fun _ _ stores => stores }
    let run := (runEpisode drillSession.recorded holes (fun _ => some "key") "two-fires" none true 9).exec ((), [])
    run.2.2.map EngineCall.op = ["start_episode", "next_tick"] ∧ ∀ q ∈ run.2.2, q.op ≠ "dispatch" :=
  ⟨rfl, nothing_sent drillSession (fun _ _ _ h => h) (fun _ => some "key") "two-fires" none true 9 ()⟩

end Episode

namespace EngineCall

variable [Runtime F]

/-- The building a call asks for. -/
def building (q : EngineCall F) : Option (Key F) :=
  if q.op = "building_to_coords" then (q.args.get? "building_id").map Val.tokens else none

/-- The building a call asks for and the point it was answered with. -/
def locates (q : EngineCall F) : Option (Key F × (Val F × Val F)) :=
  match q.building, EngineReply.point q.result with
  | some k, .ok p => some (k, p)
  | _, _ => none

/-- The later of two calls does not ask again for what the earlier was answered. -/
def AsksOnce (q q' : EngineCall F) : Prop := ∀ k p, q.locates = some (k, p) → q'.building ≠ some k

theorem locates_of_building_eq_none {q : EngineCall F} (h : q.building = none) : q.locates = none := by
  unfold locates
  rw [h]

theorem locates_of_error {q : EngineCall F} {e : Exc} (h : EngineReply.point q.result = .error e) :
    q.locates = none := by
  unfold locates
  rw [h]
  cases q.building <;> rfl

theorem locates_of_ok {q : EngineCall F} {k : Key F} {p : Val F × Val F} (hk : q.building = some k)
    (h : EngineReply.point q.result = .ok p) : q.locates = some (k, p) := by
  unfold locates
  rw [hk, h]

theorem building_of_ne {q : EngineCall F} (h : q.op ≠ "building_to_coords") : q.building = none := if_neg h

end EngineCall

namespace Episode

variable [Runtime F] {session : Session ε F} {holes : Holes (ε × List (EngineCall F)) F}

/-- The cache holds what the engine answered, and no building it answered for is asked for again. -/
structure Cached (ep : Episode (ε × List (EngineCall F)) F) : Prop where
  items : ep.coordsCache.items = ep.client.2.filterMap EngineCall.locates
  once : ep.client.2.Pairwise EngineCall.AsksOnce

theorem Cached.congr {ep ep' : Episode (ε × List (EngineCall F)) F} (h : ep.Cached)
    (hcache : ep'.coordsCache = ep.coordsCache) (hrecord : ep'.client.2 = ep.client.2) : ep'.Cached where
  items := by
    rw [hcache, hrecord]
    exact h.items
  once := hrecord ▸ h.once

/-- A call that asks for no building that was answered. -/
theorem Cached.append {ep : Episode (ε × List (EngineCall F)) F} (h : ep.Cached) {q : EngineCall F}
    (hq : ∀ k, q.building = some k → ep.coordsCache.get? k = none) :
    (ep.client.2 ++ [q]).Pairwise EngineCall.AsksOnce := by
  refine List.pairwise_append.mpr ⟨h.once, List.pairwise_singleton _ _, ?_⟩
  intro q₀ hq₀ q' hq' k p hlocates hasked
  obtain rfl := List.mem_singleton.mp hq'
  have hmem : (k, p) ∈ ep.coordsCache.items := h.items ▸ List.mem_filterMap.mpr ⟨q₀, hq₀, hlocates⟩
  cases (hq k hasked).symm.trans (OrdDict.get?_eq_some.mpr hmem)

/-- A call that is not answered with a point. -/
theorem Cached.called {ep : Episode (ε × List (EngineCall F)) F} (h : ep.Cached) {op : String} {args : Dict F}
    (hq : ∀ k, (session.entry op args ep.client.1).building = some k → ep.coordsCache.get? k = none)
    (hlocates : (session.entry op args ep.client.1).locates = none) : (ep.called session op args).Cached where
  items := by
    show ep.coordsCache.items = (ep.client.2 ++ [_]).filterMap _
    rw [List.filterMap_append, List.filterMap_cons_none hlocates, List.filterMap_nil, List.append_nil]
    exact h.items
  once := h.append hq

/-- A call for something else than a building. -/
theorem Cached.called_of_ne {ep : Episode (ε × List (EngineCall F)) F} (h : ep.Cached) {op : String}
    (hop : op ≠ "building_to_coords") (args : Dict F) : (ep.called session op args).Cached := by
  have hnone : (session.entry op args ep.client.1).building = none := EngineCall.building_of_ne hop
  refine h.called ?_ (EngineCall.locates_of_building_eq_none hnone)
  intro k hk
  rw [hnone] at hk
  cases hk

/-- **A transition** keeps the cache. -/
theorem cached_step {ep ep' : Episode (ε × List (EngineCall F)) F} (h : ep.Cached)
    (hstep : Step session holes ep ep') : ep'.Cached := by
  cases hstep with
  | started scenarioId seed => exact h.called_of_ne (by decide) _
  | observed tick => exact h.congr rfl rfl
  | seen seen => exact h.congr rfl rfl
  | folded routed => exact h.congr rfl rfl
  | @unlocated buildingId e hmiss hpoint =>
    refine h.called ?_ (EngineCall.locates_of_error hpoint)
    intro k hk
    obtain rfl := Option.some.inj hk
    exact hmiss
  | @located buildingId p hmiss hpoint =>
    have hlocates : (session.entry "building_to_coords" (locateArgs buildingId) ep.client.1).locates =
        some (buildingId.tokens, p) := EngineCall.locates_of_ok rfl hpoint
    refine ⟨?_, h.append ?_⟩
    · show (ep.coordsCache.insert buildingId.tokens p).items = (ep.client.2 ++ [_]).filterMap _
      rw [OrdDict.items_insert_of_notMem (OrdDict.get?_eq_none.mp hmiss), List.filterMap_append, h.items,
        List.filterMap_cons_some hlocates, List.filterMap_nil]
    · intro k hk
      obtain rfl := Option.some.inj hk
      exact hmiss
  | timed fromSpec toSpec => exact h.called_of_ne (by decide) _
  | dispatched hi vehicleId x y rationale => exact h.called_of_ne (by decide) _
  | refiled hi hi' => exact h.congr rfl rfl
  | charged usage => exact h.congr rfl rfl
  | ticked => exact h.called_of_ne (by decide) _

/-- **A building is located once**, over every run of an episode and every engine, whatever intake and reconciliation
leave in the stores and whatever calls the agent loop makes, up to where it returns or raises: once the engine has
answered for a building, the episode does not ask for it again, so it has one answer for a building at most. -/
theorem located_once (session : Session ε F) (holes : Holes (ε × List (EngineCall F)) F)
    (environ : String → Option String) (scenarioId : String) (seed : Option Int) (useLlm : Bool) (fuel : Nat)
    (engine : ε) :
    let record := ((runEpisode session.recorded holes environ scenarioId seed useLlm fuel).exec (engine, [])).2.2
    record.Pairwise EngineCall.AsksOnce ∧ ((record.filterMap EngineCall.locates).map Prod.fst).Nodup := by
  have hnew : ∀ intakeLlm dispatchLlm,
      (fresh (engine, []) useLlm intakeLlm dispatchLlm : Episode (ε × List (EngineCall F)) F).Cached :=
    fun _ _ => ⟨rfl, List.Pairwise.nil⟩
  have hstep : ∀ {ep ep'}, Cached ep → Step session holes ep ep' → Cached ep' := cached_step
  obtain ⟨ep, hcached, hclient⟩ := keeps_runEpisode hnew hstep environ scenarioId seed fuel
  rw [← hclient]
  refine ⟨hcached.once, ?_⟩
  rw [← hcached.items]
  exact ep.coordsCache.keys_nodup

end Episode

end HadrAgent
