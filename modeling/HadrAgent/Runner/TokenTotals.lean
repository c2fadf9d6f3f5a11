import HadrAgent.Agent.Usage
import HadrAgent.Python.Rules
import HadrAgent.Runner.TickProtocol

/-!
# The totals an episode reports

What the engine is told of the tokens of the dispatcher. A traced run (`runEpisodeTraced`) is the run of an episode that
also writes down the result of each dispatch; without what it writes down it is the run (`erases_runEpisodeTraced`).

- `post_processTickTraced`: a tick adds one result and its usage, or none and nothing;
- `post_tickLoopTraced`: every `next_tick` reports the usages of the results before it;
- `token_accounting`: so it is in every run of an episode.
-/

namespace HadrAgent

variable {ε F : Type}

/-- An episode, and the results of its dispatches. -/
abbrev Traced (ε F : Type) := Episode ε F × List (DispatchResult F)

/-- The usages of some dispatches. -/
def usageTotal (results : List (DispatchResult F)) : TokenUse := (results.map DispatchResult.usage).sum

/-! ## Traced runs -/

section Traced

variable [Runtime F]

namespace Episode

/-- `dispatchTick`, with its result written down. -/
def dispatchTickTraced (session : Session ε F) (holes : Holes ε F) (obs tick : Val F) : Py (Traced ε F) PUnit := do
  (← Py.beside _ get).assertClient
  let trucks ← obs.getD "vehicles" (.list [])
  let ep ← Py.beside _ get
  let loop := holes.agentLoop ep.incidents trucks tick ep.client
  let result ← (inSession (runDispatch (tools session) noLog loop tick)).beside _
  Py.note (· ++ [result])
  Py.beside _ (modify fun ep => { ep with dispatchTokens := ep.dispatchTokens.add result.usage })

/-- `runHoles`, traced. -/
def runHolesTraced (session : Session ε F) (holes : Holes ε F) (obs tick : Val F) (routed : Routed F) :
    Py (Traced ε F) PUnit := do
  (foldReports holes routed tick).beside _
  if (← Py.beside _ get).useLlm then dispatchTickTraced session holes obs tick

/-- `processTick`, traced. -/
def processTickTraced (session : Session ε F) (holes : Holes ε F) (obs : Val F) : Py (Traced ε F) PUnit := do
  let (tick, routed) ← (passthrough obs).beside _
  runHolesTraced session holes obs tick routed

end Episode

/-- `tickLoop`, traced. -/
def tickLoopTraced (session : Session ε F) (holes : Holes ε F) :
    Nat → Val F → Val F → Py (Traced ε F) (Option (Val F × Val F))
  | 0, _, _ => pure none
  | fuel + 1, obs, outcome => do
    if ← isRunning obs then
      Episode.processTickTraced session holes obs
      let expectedTick ← obs.getItem "tick"
      let tokens := (← Py.beside _ get).tokenReport
      let res ← (Episode.onClient (session.nextTick expectedTick (some tokens))).beside _
      tickLoopTraced session holes fuel (← res.getItem "observation") (res.getD "outcome" .none)
    else return some (obs, outcome)

/-- `episodeRun`, traced. -/
def episodeRunTraced (session : Session ε F) (holes : Holes ε F) (scenarioId : String) (seed : Option Int)
    (fuel : Nat) : Py (Traced ε F) (Option (Summary F)) := do
  let start ← (Episode.onClient (session.startEpisode scenarioId seed)).beside _
  let runId ← start.getItem "run_id"
  match ← tickLoopTraced session holes fuel (← start.getItem "observation") .none with
  | none => return none
  | some (obs, outcome) => return some (← summarize runId obs outcome (← Py.beside _ get))

/-- `runEpisode`, traced. -/
def runEpisodeTraced (session : Session ε F) (holes : Holes ε F) (environ : String → Option String)
    (scenarioId : String) (seed : Option Int) (useLlm : Bool) (fuel : Nat) :
    Py (ε × List (DispatchResult F)) (Option (Summary F)) := do
  let ep ← Episode.new environ (← get).1 useLlm
  (episodeRunTraced session holes scenarioId seed fuel).zoom (fun p => ({ ep with client := p.1 }, p.2))
    fun q _ => (q.1.client, q.2)

/-! ## Erasure -/

namespace Episode

theorem erases_dispatchTickTraced (session : Session ε F) (holes : Holes ε F) (obs tick : Val F) :
    (dispatchTickTraced session holes obs tick).Erases (dispatchTick session holes obs tick) := by
  refine Py.erases_bind (Py.erases_beside _) fun ep => Py.erases_bind (Py.erases_lift _) fun _ => ?_
  refine Py.erases_bind (Py.erases_lift _) fun trucks => Py.erases_bind (Py.erases_beside _) fun ep => ?_
  exact Py.erases_bind (Py.erases_beside _) fun result => Py.erases_note_bind (Py.erases_beside _)

theorem erases_runHolesTraced (session : Session ε F) (holes : Holes ε F) (obs tick : Val F) (routed : Routed F) :
    (runHolesTraced session holes obs tick routed).Erases (runHoles session holes obs tick routed) := by
  refine Py.erases_bind (Py.erases_beside _) fun _ => Py.erases_bind (Py.erases_beside _) fun ep => ?_
  split
  · exact erases_dispatchTickTraced session holes obs tick
  · exact Py.erases_pure _

theorem erases_processTickTraced (session : Session ε F) (holes : Holes ε F) (obs : Val F) :
    (processTickTraced session holes obs).Erases (processTick session holes obs) :=
  Py.erases_bind (Py.erases_beside _) fun p => erases_runHolesTraced session holes obs p.1 p.2

end Episode

theorem erases_tickLoopTraced (session : Session ε F) (holes : Holes ε F) : ∀ (fuel : Nat) (obs outcome : Val F),
    (tickLoopTraced session holes fuel obs outcome).Erases (tickLoop session holes fuel obs outcome)
  | 0, _, _ => Py.erases_pure _
  | fuel + 1, obs, outcome => by
    refine Py.erases_bind (Py.erases_lift _) fun running => ?_
    split
    · refine Py.erases_bind (Episode.erases_processTickTraced session holes obs) fun _ => ?_
      refine Py.erases_bind (Py.erases_lift _) fun tick => Py.erases_bind (Py.erases_beside _) fun ep => ?_
      refine Py.erases_bind (Py.erases_beside _) fun res => Py.erases_bind (Py.erases_lift _) fun obs' => ?_
      exact erases_tickLoopTraced session holes fuel obs' _
    · exact Py.erases_pure _

theorem erases_episodeRunTraced (session : Session ε F) (holes : Holes ε F) (scenarioId : String) (seed : Option Int)
    (fuel : Nat) :
    (episodeRunTraced session holes scenarioId seed fuel).Erases (episodeRun session holes scenarioId seed fuel) := by
  refine Py.erases_bind (Py.erases_beside _) fun start => Py.erases_bind (Py.erases_lift _) fun runId => ?_
  refine Py.erases_bind (Py.erases_lift _) fun obs => ?_
  refine Py.erases_bind (erases_tickLoopTraced session holes fuel obs .none) fun r => ?_
  cases r with
  | none => exact Py.erases_pure _
  | some p =>
    refine Py.erases_bind (Py.erases_beside _) fun ep => Py.erases_bind (Py.erases_lift _) fun s => ?_
    exact Py.erases_pure _

/-- **A traced run is the run**, with the results of its dispatches beside it. -/
theorem erases_runEpisodeTraced (session : Session ε F) (holes : Holes ε F) (environ : String → Option String)
    (scenarioId : String) (seed : Option Int) (useLlm : Bool) (fuel : Nat) :
    (runEpisodeTraced session holes environ scenarioId seed useLlm fuel).Erases
      (runEpisode session holes environ scenarioId seed useLlm fuel) := by
  intro p
  rw [runEpisodeTraced, runEpisode, Py.exec_bind, Py.exec_get, Py.exec_bind, Py.exec_get]
  simp only [Py.exec_bind, Py.exec_lift]
  cases Episode.new environ p.1 useLlm with
  | error e => exact ⟨rfl, rfl⟩
  | ok ep =>
    simp only [Py.exec_zoom]
    obtain ⟨hr, hs⟩ := erases_episodeRunTraced session holes scenarioId seed fuel ({ ep with client := p.1 }, p.2)
    exact ⟨hr, congrArg Episode.client hs⟩

end Traced

/-- What a new episode starts from. -/
theorem Episode.new_eq_ok {environ : String → Option String} {client : ε} {useLlm : Bool} {ep : Episode ε F}
    (h : Episode.new environ client useLlm = .ok ep) : ep.useLlm = useLlm ∧ ep.dispatchTokens = 0 := by
  cases useLlm with
  | false =>
    cases h
    exact ⟨rfl, rfl⟩
  | true =>
    obtain ⟨intakeLlm, _, h⟩ := Except.bind_eq_ok.mp h
    obtain ⟨dispatchLlm, _, h⟩ := Except.bind_eq_ok.mp h
    cases h
    exact ⟨rfl, rfl⟩

/-! ## Ticks -/

/-- The `next_tick` calls of a record. -/
def nextTicks (record : List (EngineCall F)) : List (EngineCall F) := record.filter fun q => q.op = "next_tick"

theorem nextTicks_append_of_ne (record : List (EngineCall F)) {q : EngineCall F} (h : q.op ≠ "next_tick") :
    nextTicks (record ++ [q]) = nextTicks record := by simp [nextTicks, h]

theorem nextTicks_append_of_eq (record : List (EngineCall F)) {q : EngineCall F} (h : q.op = "next_tick") :
    nextTicks (record ++ [q]) = nextTicks record ++ [q] := by simp [nextTicks, h]

/-- The totals of the dispatcher that a call reports. -/
def EngineCall.dispatchTotals (q : EngineCall F) : Option (Val F) :=
  match q.args.get? "tokens" with
  | some (.dict items) => items.lookup "dispatch"
  | _ => none

namespace Episode

/-- Nothing is added to the totals of the dispatcher, and no tick is ended. -/
structure Quiet (ep ep' : Episode (ε × List (EngineCall F)) F) : Prop where
  useLlm : ep'.useLlm = ep.useLlm
  dispatchTokens : ep'.dispatchTokens = ep.dispatchTokens
  nextTicks : HadrAgent.nextTicks ep'.client.2 = HadrAgent.nextTicks ep.client.2

instance : IsPreorder (Episode (ε × List (EngineCall F)) F) Quiet where
  refl _ := ⟨rfl, rfl, rfl⟩
  trans _ _ _ h h' :=
    ⟨h'.useLlm.trans h.useLlm, h'.dispatchTokens.trans h.dispatchTokens, h'.nextTicks.trans h.nextTicks⟩

theorem quiet_of_onlySeen {ep ep' : Episode (ε × List (EngineCall F)) F} (h : OnlySeen ep ep') : Quiet ep ep' := by
  obtain ⟨seen, rfl⟩ := h
  exact ⟨rfl, rfl, rfl⟩

theorem quiet_foldReports (holes : Holes (ε × List (EngineCall F)) F) (routed : Routed F) (tick : Val F) :
    (foldReports holes routed tick).Along Quiet := Py.along_modify fun _ => ⟨rfl, rfl, rfl⟩

variable [Runtime F]

theorem quiet_onClient (session : Session ε F) {op : String} (hop : op ≠ "next_tick") (args : Dict F) :
    (onClient (session.recorded.call op args)).Along Quiet := by
  intro ep
  rw [onClient, Py.exec_zoom, Session.exec_recorded_call]
  exact ⟨rfl, rfl, nextTicks_append_of_ne _ hop⟩

theorem quiet_coordsOf (session : Session ε F) (buildingId : Val F) :
    (coordsOf session.recorded buildingId).Along Quiet := by
  refine Py.along_bind (Py.along_lift _) fun _ => Py.along_bind Py.along_get fun ep => ?_
  split
  · exact Py.along_pure _
  · refine Py.along_bind (quiet_onClient session (by decide) _) fun r => ?_
    refine Py.along_bind (Py.along_lift _) fun p => Py.along_bind (Py.along_lift _) fun x => ?_
    refine Py.along_bind (Py.along_lift _) fun y => Py.along_bind (Py.along_modify ?_) fun _ => Py.along_pure _
    intro ep
    exact ⟨rfl, rfl, rfl⟩

/-- The tools of an episode leave its totals to the tick loop. -/
theorem quiet_tools (session : Session ε F) : (tools session.recorded).Along Quiet where
  buildingToCoords v := Py.along_bind (quiet_coordsOf session v) fun _ => Py.along_pure _
  travelTime v v' := Py.along_bind (quiet_onClient session (by decide) _) fun _ => Py.along_pure _
  dispatch vehicleId incidentId x y rationale :=
    Py.along_bind Py.along_get fun _ => Py.along_bind (quiet_onClient session (by decide) _) fun _ => Py.along_pure _

theorem quiet_session (session : Session ε F) (loop : AgentLoop F) (tick : Val F) :
    (inSession (runDispatch (tools session.recorded) noLog loop tick)).Along Quiet := by
  intro ep
  rw [inSession, Py.exec_zoom]
  have hrun := (quiet_tools session).runDispatch loop tick ⟨ep.incidents, .empty, ep⟩
  exact ⟨hrun.useLlm, hrun.dispatchTokens, hrun.nextTicks⟩

theorem quiet_passthrough (obs : Val F) :
    (passthrough obs : Py (Episode (ε × List (EngineCall F)) F) _).Along Quiet := by
  refine Py.along_bind (Py.along_lift _) fun tick => ?_
  refine Py.along_bind (Py.along_modify fun _ => ⟨rfl, rfl, rfl⟩) fun _ => ?_
  refine Py.along_bind (Py.along_lift _) fun v => Py.along_bind (Py.along_lift _) fun contacts => ?_
  refine Py.along_bind ((along_routeContacts contacts _).mono fun _ _ => quiet_of_onlySeen) fun _ => Py.along_pure _

end Episode

/-- A tick adds no result, and then no tokens; or it adds one, with its usage. It does the first when it raises, and
when it is not to ask the model. -/
inductive TickTotals (p : Traced (ε × List (EngineCall F)) F) :
    Except Exc PUnit → Traced (ε × List (EngineCall F)) F → Prop
  | none {r : Except Exc PUnit} {p' : Traced (ε × List (EngineCall F)) F} (h : Episode.Quiet p.1 p'.1)
      (hresults : p'.2 = p.2) (hllm : r = .ok ⟨⟩ → p.1.useLlm = false) : TickTotals p r p'
  | one {p' : Traced (ε × List (EngineCall F)) F} (result : DispatchResult F) (hllm : p.1.useLlm = true)
      (hllm' : p'.1.useLlm = true) (hnext : nextTicks p'.1.client.2 = nextTicks p.1.client.2)
      (hresults : p'.2 = p.2 ++ [result]) (htotal : p'.1.dispatchTokens = p.1.dispatchTokens + result.usage) :
      TickTotals p (.ok ⟨⟩) p'

theorem TickTotals.of_quiet {p q t : Traced (ε × List (EngineCall F)) F} {r : Except Exc PUnit}
    (h : Episode.Quiet p.1 q.1) (hresults : q.2 = p.2) (ht : TickTotals q r t) : TickTotals p r t := by
  cases ht with
  | none h' hr hllm =>
    exact .none (trans_of Episode.Quiet h h') (hr.trans hresults) fun e => h.useLlm.symm.trans (hllm e)
  | one result hllm hllm' hnext hr htotal =>
    refine .one result (h.useLlm.symm.trans hllm) hllm' (hnext.trans h.nextTicks) ?_ ?_
    · rw [hr, hresults]
    · rw [htotal, h.dispatchTokens]

/-- What raises before the dispatch adds nothing. -/
theorem TickTotals.raised {p q : Traced (ε × List (EngineCall F)) F} (h : Episode.Quiet p.1 q.1) (hresults : q.2 = p.2)
    (e : Exc) : TickTotals p (.error e) q := by
  refine .none h hresults ?_
  intro he
  cases he

namespace Episode

variable [Runtime F]

theorem post_dispatchTickTraced (session : Session ε F) (holes : Holes (ε × List (EngineCall F)) F) (obs tick : Val F)
    {p : Traced (ε × List (EngineCall F)) F} (hllm : p.1.useLlm = true) :
    (dispatchTickTraced session.recorded holes obs tick).Post p (TickTotals p) := by
  have hstay := refl_of Quiet p.1
  refine Py.post_beside_get_bind (Py.post_lift_bind (fun _ _ => ?_) (.raised hstay rfl))
  refine Py.post_lift_bind (fun trucks _ => ?_) (.raised hstay rfl)
  refine Py.post_beside_get_bind ?_
  refine Py.post_bind (Q := fun _ t => Quiet p.1 t.1 ∧ t.2 = p.2) ?_ ?_ ?_
  · exact Py.post_beside ⟨quiet_session session _ tick p.1, rfl⟩
  · rintro result t ⟨hquiet, hresults⟩
    refine .one result hllm (hquiet.useLlm.trans hllm) hquiet.nextTicks (congrArg (· ++ [result]) hresults) ?_
    exact congrArg (· + result.usage) hquiet.dispatchTokens
  · rintro e t ⟨hquiet, hresults⟩
    exact .raised hquiet hresults e

theorem post_runHolesTraced (session : Session ε F) (holes : Holes (ε × List (EngineCall F)) F) (obs tick : Val F)
    (routed : Routed F) (p : Traced (ε × List (EngineCall F)) F) :
    (runHolesTraced session.recorded holes obs tick routed).Post p (TickTotals p) := by
  refine Py.post_bind (Q := fun _ t => Quiet p.1 t.1 ∧ t.2 = p.2) ?_ ?_ ?_
  · exact Py.post_beside ⟨quiet_foldReports holes routed tick p.1, rfl⟩
  · rintro _ t ⟨hquiet, hresults⟩
    refine Py.post_beside_get_bind ?_
    split
    · next hllm =>
      exact Py.post_mono (post_dispatchTickTraced session holes obs tick hllm) fun _ _ h => h.of_quiet hquiet hresults
    · next hllm =>
      exact .none hquiet hresults fun _ => hquiet.useLlm.symm.trans (Bool.eq_false_iff.mpr hllm)
  · rintro e t ⟨hquiet, hresults⟩
    exact .raised hquiet hresults e

/-- **One tick** adds one result and its usage, or none and nothing. -/
theorem post_processTickTraced (session : Session ε F) (holes : Holes (ε × List (EngineCall F)) F) (obs : Val F)
    (p : Traced (ε × List (EngineCall F)) F) :
    (processTickTraced session.recorded holes obs).Post p (TickTotals p) := by
  refine Py.post_bind (Q := fun _ t => Quiet p.1 t.1 ∧ t.2 = p.2) ?_ ?_ ?_
  · exact Py.post_beside ⟨quiet_passthrough obs p.1, rfl⟩
  · rintro ⟨tick, routed⟩ t ⟨hquiet, hresults⟩
    refine Py.post_mono (post_runHolesTraced session holes obs tick routed t) fun _ _ h => ?_
    exact h.of_quiet hquiet hresults
  · rintro e t ⟨hquiet, hresults⟩
    exact .raised hquiet hresults e

end Episode

/-! ## Runs -/

theorem usageTotal_append (results : List (DispatchResult F)) (result : DispatchResult F) :
    usageTotal (results ++ [result]) = usageTotal results + result.usage := by
  unfold usageTotal
  rw [List.map_append, List.sum_append, List.map_singleton, List.sum_singleton]

/-- The totals that the `next_tick` calls of a record report: each those of the results before it. There is a result for
each when the model is asked, and none otherwise. -/
structure ReportsDispatches (useLlm : Bool) (record : List (EngineCall F)) (results : List (DispatchResult F)) :
    Prop where
  reports : ∀ k q, (nextTicks record)[k]? = some q →
    q.dispatchTotals = some (Episode.tokenEntry (usageTotal (results.take (k + 1))))
  dispatched : useLlm = true → (nextTicks record).length ≤ results.length
  silent : useLlm = false → results = []

/-- A new dispatch changes no report that was made. -/
theorem ReportsDispatches.append {record : List (EngineCall F)} {results : List (DispatchResult F)}
    (h : ReportsDispatches true record results) (result : DispatchResult F) :
    ReportsDispatches true record (results ++ [result]) := by
  have hlen := h.dispatched rfl
  refine ⟨?_, ?_, ?_⟩
  · intro k q hq
    have hk := (List.getElem?_eq_some_iff.mp hq).1
    rw [List.take_append_of_le_length (by omega)]
    exact h.reports k q hq
  · intro _
    rw [List.length_append]
    omega
  · intro hno
    exact absurd hno.symm Bool.false_ne_true

/-- The end of a tick reports all results there are. -/
theorem ReportsDispatches.next {useLlm : Bool} {record : List (EngineCall F)} {results : List (DispatchResult F)}
    {q : EngineCall F} (h : ReportsDispatches useLlm record results) (hop : q.op = "next_tick")
    (hq : q.dispatchTotals = some (Episode.tokenEntry (usageTotal results)))
    (hle : results.length ≤ (nextTicks record).length + 1)
    (hllm : useLlm = true → (nextTicks record).length < results.length) :
    ReportsDispatches useLlm (record ++ [q]) results := by
  have hnext := nextTicks_append_of_eq record hop
  refine ⟨?_, ?_, h.silent⟩
  · intro k q' hq'
    rw [hnext] at hq'
    rcases Nat.lt_or_ge k (nextTicks record).length with hk | hk
    · rw [List.getElem?_append_left hk] at hq'
      exact h.reports k q' hq'
    · rw [List.getElem?_append_right hk] at hq'
      obtain rfl := List.mem_singleton.mp (List.mem_of_getElem? hq')
      rw [List.take_of_length_le (by omega), hq]
  · intro hyes
    rw [hnext, List.length_append, List.length_singleton]
    exact hllm hyes

/-- The accounts of an episode: its totals are those of its results, and it has reported them. -/
structure Accounted (useLlm : Bool) (p : Traced (ε × List (EngineCall F)) F) : Prop where
  llm : p.1.useLlm = useLlm
  totals : p.1.dispatchTokens = usageTotal p.2
  reported : ReportsDispatches useLlm p.1.client.2 p.2

namespace Accounted

variable {useLlm : Bool} {p p' : Traced (ε × List (EngineCall F)) F}

theorem quiet (h : Accounted useLlm p) (hquiet : Episode.Quiet p.1 p'.1) (hresults : p'.2 = p.2) :
    Accounted useLlm p' := by
  refine ⟨hquiet.useLlm.trans h.llm, ?_, ?_⟩
  · rw [hquiet.dispatchTokens, hresults]
    exact h.totals
  · rw [hresults]
    refine ⟨?_, ?_, h.reported.silent⟩
    · rw [hquiet.nextTicks]
      exact h.reported.reports
    · rw [hquiet.nextTicks]
      exact h.reported.dispatched

/-- A tick keeps the accounts. -/
theorem tick {r : Except Exc PUnit} (h : Accounted useLlm p) (ht : TickTotals p r p') : Accounted useLlm p' := by
  cases ht with
  | none hquiet hresults hllm => exact h.quiet hquiet hresults
  | one result hllm hllm' hnext hresults htotal =>
    obtain rfl := h.llm.symm.trans hllm
    have happ := h.reported.append result
    refine ⟨hllm', ?_, ?_⟩
    · rw [htotal, hresults, usageTotal_append, h.totals]
    · rw [hresults]
      refine ⟨?_, ?_, happ.silent⟩
      · rw [hnext]
        exact happ.reports
      · rw [hnext]
        exact happ.dispatched

/-- After a tick that began with all its results reported, there is at most one to report, and one if the model was
asked. -/
theorem lengths (h : Accounted useLlm p) (heven : p.2.length ≤ (nextTicks p.1.client.2).length)
    (ht : TickTotals p (.ok ⟨⟩) p') :
    p'.2.length ≤ (nextTicks p'.1.client.2).length + 1 ∧
      (useLlm = true → (nextTicks p'.1.client.2).length < p'.2.length) := by
  cases ht with
  | none hquiet hresults hllm =>
    rw [hquiet.nextTicks, hresults]
    refine ⟨by omega, ?_⟩
    intro hyes
    exact absurd ((hllm rfl).symm.trans (h.llm.trans hyes)) Bool.false_ne_true
  | one result hllm hllm' hnext hresults htotal =>
    have hlen := h.reported.dispatched (h.llm.symm.trans hllm)
    rw [hnext, hresults, List.length_append, List.length_singleton]
    exact ⟨by omega, fun _ => by omega⟩

end Accounted

section Run

variable [Runtime F]

/-- **The loop** keeps the accounts, whatever it raises. Between its rounds no result is without its report. -/
theorem post_tickLoopTraced (session : Session ε F) (holes : Holes (ε × List (EngineCall F)) F) {useLlm : Bool} :
    ∀ (fuel : Nat) (obs outcome : Val F) (p : Traced (ε × List (EngineCall F)) F), Accounted useLlm p →
      p.2.length ≤ (nextTicks p.1.client.2).length →
        (tickLoopTraced session.recorded holes fuel obs outcome).Post p fun _ => Accounted useLlm
  | 0, _, _, _, h, _ => Py.post_pure h
  | fuel + 1, obs, outcome, p, h, heven => by
    refine Py.post_lift_bind (fun running _ => ?_) fun _ => h
    split
    · refine Py.post_bind (Episode.post_processTickTraced session holes obs p) ?_ fun _ _ ht => h.tick ht
      intro _ t ht
      have hacc := h.tick ht
      obtain ⟨hle, hllm⟩ := h.lengths heven ht
      refine Py.post_lift_bind (fun tick _ => Py.post_beside_get_bind ?_) fun _ => hacc
      refine Py.post_bind (Q := fun _ t => Accounted useLlm t ∧ t.2.length ≤ (nextTicks t.1.client.2).length) ?_ ?_
        fun _ _ h => h.1
      · refine Py.post_beside ?_
        unfold Py.Post
        rw [Episode.onClient, Py.exec_zoom, Session.nextTick, Session.exec_recorded_call]
        have hq := congrArg (some ∘ Episode.tokenEntry (F := F)) hacc.totals
        refine ⟨⟨hacc.llm, hacc.totals, hacc.reported.next rfl hq hle hllm⟩, ?_⟩
        show t.2.length ≤ (nextTicks (t.1.client.2 ++ [_])).length
        rw [nextTicks_append_of_eq _ rfl, List.length_append]
        exact hle
      · rintro res t' ⟨hacc', heven'⟩
        refine Py.post_lift_bind (fun obs' _ => ?_) fun _ => hacc'
        exact post_tickLoopTraced session holes fuel obs' _ t' hacc' heven'
    · exact Py.post_pure h

theorem post_episodeRunTraced (session : Session ε F) (holes : Holes (ε × List (EngineCall F)) F) (scenarioId : String)
    (seed : Option Int) (fuel : Nat) {ep : Episode (ε × List (EngineCall F)) F} (hrecord : ep.client.2 = [])
    (htotals : ep.dispatchTokens = 0) :
    (episodeRunTraced session.recorded holes scenarioId seed fuel).Post (ep, []) fun _ => Accounted ep.useLlm := by
  have hstart : Accounted ep.useLlm (ep, ([] : List (DispatchResult F))) := by
    refine ⟨rfl, htotals, ?_⟩
    show ReportsDispatches ep.useLlm ep.client.2 []
    rw [hrecord]
    refine ⟨?_, fun _ => Nat.le_refl 0, fun _ => rfl⟩
    intro k q hq
    cases hq
  refine Py.post_bind (Q := fun _ t => Accounted ep.useLlm t ∧ t.2 = []) ?_ ?_ fun _ _ h => h.1
  · refine Py.post_beside ?_
    have hop : "start_episode" ≠ "next_tick" := by decide
    have hquiet := Episode.quiet_onClient session hop (Session.startArgs scenarioId seed) ep
    exact ⟨hstart.quiet hquiet rfl, rfl⟩
  · rintro start t ⟨hacc, hnone⟩
    refine Py.post_lift_bind (fun runId _ => Py.post_lift_bind (fun obs _ => ?_) fun _ => hacc) fun _ => hacc
    have heven : t.2.length ≤ (nextTicks t.1.client.2).length := by
      rw [hnone]
      exact Nat.zero_le _
    refine Py.post_bind (post_tickLoopTraced session holes fuel obs .none t hacc heven) ?_ fun _ _ h => h
    intro r t' hacc'
    cases r with
    | none => exact Py.post_pure hacc'
    | some q =>
      refine Py.post_beside_get_bind (Py.post_lift_bind (fun s _ => ?_) fun _ => hacc')
      exact Py.post_pure hacc'

/-- **Every run of an episode** reports what its dispatches used, up to where it returns or raises. -/
theorem post_runEpisodeTraced (session : Session ε F) (holes : Holes (ε × List (EngineCall F)) F)
    (environ : String → Option String) (scenarioId : String) (seed : Option Int) (useLlm : Bool) (fuel : Nat)
    (engine : ε) :
    (runEpisodeTraced session.recorded holes environ scenarioId seed useLlm fuel).Post ((engine, []), [])
      fun _ p => ReportsDispatches useLlm p.1.2 p.2 := by
  refine Py.post_get_bind (Py.post_lift_bind (fun ep hep => ?_) fun _ => ?_)
  · obtain ⟨hllm, htotals⟩ := Episode.new_eq_ok hep
    have hrun := @post_episodeRunTraced _ _ _ session holes scenarioId seed fuel { ep with client := (engine, []) } rfl
      htotals
    unfold Py.Post at hrun ⊢
    rw [Py.exec_zoom]
    exact hllm ▸ hrun.reported
  · refine ⟨?_, fun _ => Nat.le_refl 0, fun _ => rfl⟩
    intro k q hq
    cases hq

end Run

/-- **Token accounting.** Usages added one by one to a new total give the sums of their contributions, in any order and
through any intermediate totals; no more is read from the cache than is read, if that is so of each; and in every run
of an episode a `next_tick` reports the usages of the dispatches before it. -/
theorem token_accounting (us : List Usage) :
    (TokenUse.zero.accumulate us = ⟨(us.map fun u => u.contribution.read).sum,
      (us.map fun u => u.contribution.write).sum, (us.map fun u => u.contribution.cacheRead).sum⟩) ∧
    (∀ us' : List Usage, us'.Perm us → TokenUse.zero.accumulate us' = TokenUse.zero.accumulate us) ∧
    (∀ groups : List (List Usage), groups.flatten.Perm us →
      TokenUse.zero.accumulate (groups.map fun g => .total (TokenUse.zero.accumulate g)) =
        TokenUse.zero.accumulate us) ∧
    ((∀ u ∈ us, u.contribution.cacheRead ≤ u.contribution.read) → ∀ n,
      (TokenUse.zero.accumulate (us.take n)).cacheRead ≤ (TokenUse.zero.accumulate (us.take n)).read) ∧
    ∀ (ε F : Type) [Runtime F] (session : Session ε F) (holes : Holes (ε × List (EngineCall F)) F)
      (environ : String → Option String) (scenarioId : String) (seed : Option Int) (useLlm : Bool) (fuel : Nat)
      (engine : ε),
      let run := (runEpisode session.recorded holes environ scenarioId seed useLlm fuel).exec (engine, [])
      ∃ results : List (DispatchResult F),
        (runEpisodeTraced session.recorded holes environ scenarioId seed useLlm fuel).exec ((engine, []), []) =
          (run.1, run.2, results) ∧
        ReportsDispatches useLlm run.2.2 results := by
  refine ⟨?_, ?_, ?_, ?_, ?_⟩
  · rw [TokenUse.zero_accumulate]
    ext
    · rw [TokenUse.read_sum, List.map_map]; rfl
    · rw [TokenUse.write_sum, List.map_map]; rfl
    · rw [TokenUse.cacheRead_sum, List.map_map]; rfl
  · intro us' h
    exact TokenUse.accumulate_perm h .zero
  · intro groups h
    rw [TokenUse.accumulate_groups]
    exact TokenUse.accumulate_perm h .zero
  · intro h n
    exact TokenUse.cacheRead_le_read_accumulate fun u hu => h u (List.mem_of_mem_take hu)
  · intro ε F _ session holes environ scenarioId seed useLlm fuel engine run
    obtain ⟨hr, hs⟩ :=
      erases_runEpisodeTraced session.recorded holes environ scenarioId seed useLlm fuel ((engine, []), [])
    have hrun := post_runEpisodeTraced session holes environ scenarioId seed useLlm fuel engine
    refine ⟨_, Prod.ext hr (Prod.ext hs rfl), ?_⟩
    exact hs ▸ hrun

end HadrAgent
