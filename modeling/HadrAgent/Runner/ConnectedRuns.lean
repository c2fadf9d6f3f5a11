import HadrAgent.Runner.AbortedRuns
import HadrAgent.Runner.Simulation

/-!
# Runs with their connection

Once it is connected, a run on the client object is a run in an open session (`EngineClient.exec_runEpisode`): the
assertion of `_call` holds in it. What closing raises wins over what the run returned or raised.

- `connection_of_any_run`: the contexts a run enters are left behind its last call, the session before the stream, and
  whatever was raised; if the run cannot connect, none of those it entered is left.
-/

namespace HadrAgent

variable {ε κ γ F : Type}

/-- The way into a connection: the session, and what closes it. -/
def Transport.connect (t : Transport ε κ F) : Py ε (ClientSession ε F × List (ExitCallback ε)) := do
  let streams ← t.stream.enter
  let sess ← (t.session streams).enter
  sess.handshake
  return (sess, [(t.session streams).exit, t.stream.exit])

namespace EngineClient

/-- The client object is connected, in this world. -/
def In (callbacks : List (ExitCallback ε)) (sess : ClientSession ε F) (c : EngineClient ε F) (e : ε) : Prop :=
  c = ⟨e, some callbacks, some sess⟩

theorem exec_enterContext_of_ok {α : Type} {cm : Context ε α} {c : EngineClient ε F} {a : α} {e : ε}
    (h : cm.enter.exec c.world = (.ok a, e)) :
    (enterContext cm).exec c = (.ok a, ⟨e, c.stack.map (cm.exit :: ·), c.sess⟩) := by
  rw [enterContext, Py.exec_bind, onWorld, Py.exec_zoom, h]
  rfl

theorem exec_enterContext_of_error {α : Type} {cm : Context ε α} {c : EngineClient ε F} {x : Exc} {e : ε}
    (h : cm.enter.exec c.world = (.error x, e)) : (enterContext cm).exec c = (.error x, ⟨e, c.stack, c.sess⟩) := by
  rw [enterContext, Py.exec_bind, onWorld, Py.exec_zoom, h]

/-- **`__aenter__`** connects: the client holds the session and what closes it, unless it raises. -/
theorem exec_aenter (t : Transport ε κ F) (e : ε) :
    (∃ x c, (t.connect.exec e).1 = .error x ∧ (aenter t).exec (new e) = (.error x, c) ∧
      c.world = (t.connect.exec e).2) ∨
    ∃ sess callbacks, (t.connect.exec e).1 = .ok (sess, callbacks) ∧
      (aenter t).exec (new e) = (.ok (), ⟨(t.connect.exec e).2, some callbacks, some sess⟩) := by
  rw [Transport.connect, Py.exec_bind, aenter, Py.exec_bind, Py.exec_modify]
  dsimp only
  rw [Py.exec_bind]
  cases hstream : t.stream.enter.exec e with
  | mk r e₁ =>
    cases r with
    | error x =>
      rw [exec_enterContext_of_error hstream]
      exact .inl ⟨x, _, rfl, rfl, rfl⟩
    | ok streams =>
      rw [exec_enterContext_of_ok hstream]
      dsimp only
      rw [Py.exec_bind, Py.exec_bind]
      cases hsess : (t.session streams).enter.exec e₁ with
      | mk r e₂ =>
        cases r with
        | error x =>
          rw [exec_enterContext_of_error hsess]
          exact .inl ⟨x, _, rfl, rfl, rfl⟩
        | ok sess =>
          rw [exec_enterContext_of_ok hsess]
          dsimp only
          rw [Py.exec_bind, Py.exec_bind, Py.exec_modify]
          dsimp only
          rw [onWorld, Py.exec_zoom]
          cases (sess.handshake.exec e₂).1 with
          | error x => exact .inl ⟨x, _, rfl, rfl, rfl⟩
          | ok _ => exact .inr ⟨sess, _, rfl, rfl⟩

/-- **`__aexit__`** unwinds; it leaves the client as a new one if that does not raise. -/
theorem exec_aexit (callbacks : List (ExitCallback ε)) (sess : ClientSession ε F) (e : ε) :
    ∃ c, aexit.exec ⟨e, some callbacks, some sess⟩ = (((unwind callbacks none).exec e).1, c) ∧
      c.world = ((unwind callbacks none).exec e).2 ∧
      (((unwind callbacks none).exec e).1 = .ok () → c = (new c.world : EngineClient ε F)) := by
  simp only [aexit, onWorld, Py.exec_bind, Py.exec_get, Py.exec_modify, Py.exec_zoom]
  cases ((unwind callbacks none).exec e).1 with
  | ok _ => exact ⟨_, rfl, rfl, fun _ => rfl⟩
  | error x => exact ⟨_, rfl, rfl, fun h => by cases h⟩

/-- **The assertion of `_call` holds**: what is asked of a connected client, its session answers. -/
theorem agree_session (callbacks : List (ExitCallback ε)) (sess : ClientSession ε F) :
    Session.Agree (In callbacks sess) session sess.tools := by
  rintro op args _ e rfl
  unfold Py.Agree session
  rw [Py.exec_bind, Py.exec_get]
  dsimp only
  rw [onWorld, Py.exec_zoom]
  exact ⟨rfl, rfl⟩

theorem agree_onClient_holes (holes : Holes ε F) (callbacks : List (ExitCallback ε)) (sess : ClientSession ε F) :
    holes.onClient.Agree (In callbacks sess) holes where
  fold := rfl
  agentLoop := by
    rintro incidents trucks tick _ e rfl
    rfl

variable [Runtime F]

/-- **A run on the client object**: it raises as it connects, or it is a run in an open session, and then it closes.
What closing raises replaces what the run has returned or raised. -/
theorem exec_runEpisode (t : Transport ε κ F) (holes : Holes ε F) (environ : String → Option String)
    (scenarioId : String) (seed : Option Int) (useLlm : Bool) (fuel : Nat) (e : ε) :
    (∃ x c, (t.connect.exec e).1 = .error x ∧
      (runEpisode t holes environ scenarioId seed useLlm fuel).exec (new e) = (.error x, c) ∧
      c.world = (t.connect.exec e).2) ∨
    ∃ sess callbacks c, (t.connect.exec e).1 = .ok (sess, callbacks) ∧
      let own := (HadrAgent.runEpisode sess.tools holes environ scenarioId seed useLlm fuel).exec (t.connect.exec e).2
      let closing := (unwind callbacks none).exec own.2
      (runEpisode t holes environ scenarioId seed useLlm fuel).exec (new e) = (closing.1 >>= fun _ => own.1, c) ∧
        c.world = closing.2 ∧ (closing.1 = .ok () → c = new c.world) := by
  rw [runEpisode, Py.exec_bind_lift, inConnection, Py.exec_bind]
  rcases exec_aenter t e with ⟨x, c, hconnect, henter, hworld⟩ | ⟨sess, callbacks, hconnect, henter⟩
  · rw [henter]
    exact .inl ⟨x, c, hconnect, rfl, hworld⟩
  · obtain ⟨hown, hin⟩ := agree_block (agree_session callbacks sess) (agree_onClient_holes holes callbacks sess)
      environ scenarioId seed useLlm fuel (rfl : In callbacks sess ⟨(t.connect.exec e).2, some callbacks, some sess⟩ _)
    have hopen := exec_runEpisode_block sess.tools holes environ scenarioId seed useLlm fuel (t.connect.exec e).2
    generalize (block sess.tools holes environ scenarioId seed useLlm fuel).exec (t.connect.exec e).2 = own
      at hown hin hopen
    obtain ⟨c, hexit, hworld, hnew⟩ := exec_aexit callbacks sess own.2
    refine .inr ⟨sess, callbacks, c, hconnect, ?_⟩
    rw [hopen]
    refine ⟨?_, hworld, hnew⟩
    rw [henter]
    dsimp only
    rw [Py.exec_bind, exec_attempt]
    dsimp only
    rw [hin, hown, Py.exec_bind, hexit]
    cases ((unwind callbacks none).exec own.2).1 with
    | ok _ =>
      dsimp only
      rw [Py.exec_lift]
      rfl
    | error x => rfl

end EngineClient

/-! ## The trace of a connection -/

/-- A context of the connection. -/
inductive Layer where
  | stream | session
deriving DecidableEq

/-- What happens to a connection: how leaving a context came out stands beside it. -/
inductive Link where
  | entered (layer : Layer)
  | initialized
  | called (op : String)
  | left (layer : Layer) (r : Except Exc Bool)

/-- A context that writes down that it is entered, and how it is left. -/
def Context.traced {α : Type} (layer : Layer) (cm : Context ε α) : Context (ε × List Link) α where
  enter := do
    let a ← cm.enter.beside (List Link)
    Py.note (· ++ [.entered layer])
    return a
  exit exc := do
    let r ← attempt ((cm.exit exc).beside (List Link))
    Py.note (· ++ [.left layer r])
    r

/-- A session that writes down what is asked of it. -/
def ClientSession.traced (sess : ClientSession ε F) : ClientSession (ε × List Link) F where
  handshake := do
    sess.handshake.beside (List Link)
    Py.note (· ++ [.initialized])
  tools := ⟨fun op args => do
    Py.note (· ++ [.called op])
    (sess.tools.callTool op args).beside (List Link)⟩

/-- A context beside a ghost state. -/
def Context.beside {α : Type} (γ : Type) (cm : Context ε α) : Context (ε × γ) α where
  enter := cm.enter.beside γ
  exit exc := (cm.exit exc).beside γ

def Context.map {α β : Type} (f : α → β) (cm : Context ε α) : Context ε β where
  enter := do return f (← cm.enter)
  exit := cm.exit

section Observed

variable {α : Type} {cm : Context ε α}

theorem exec_observed_enter_of_ok (layer : Layer) {p : (ε × List Link) × γ} {a : α} {e : ε}
    (h : cm.enter.exec p.1.1 = (.ok a, e)) :
    ((cm.traced layer).beside γ).enter.exec p = (.ok a, (e, p.1.2 ++ [.entered layer]), p.2) := by
  simp only [Context.beside, Context.traced, Py.exec_beside, Py.exec_bind, h, Py.note, Py.exec_modify, Py.exec_pure]

theorem exec_observed_enter_of_error (layer : Layer) {p : (ε × List Link) × γ} {x : Exc} {e : ε}
    (h : cm.enter.exec p.1.1 = (.error x, e)) :
    ((cm.traced layer).beside γ).enter.exec p = (.error x, (e, p.1.2), p.2) := by
  simp only [Context.beside, Context.traced, Py.exec_beside, Py.exec_bind, h]

/-- How a context is left is written down behind what was there. -/
theorem exec_observed_exit (layer : Layer) (exc : Option Exc) (p : (ε × List Link) × γ) :
    let run := (((cm.traced layer).beside γ).exit exc).exec p
    (run.2.1.2, run.2.2) = (p.1.2 ++ [.left layer run.1], p.2) := by
  simp only [Context.beside, Context.traced, Py.exec_beside, Py.exec_bind, exec_attempt, Py.note, Py.exec_modify,
    Py.exec_lift]

theorem exec_traced_callTool (sess : ClientSession ε F) (op : String) (args : Dict F) (p : ε × List Link) :
    ((sess.traced.tools.callTool op args).exec p).2.2 = p.2 ++ [.called op] := by
  simp only [ClientSession.traced, Py.exec_bind, Py.note, Py.exec_modify, Py.exec_beside]

end Observed

/-- A session that records its calls. -/
def ClientSession.recorded (sess : ClientSession ε F) : ClientSession (ε × List (EngineCall F)) F where
  handshake := sess.handshake.beside _
  tools := sess.tools.recorded

/-- A connection with its trace, and the record of its calls. -/
def Transport.observed (t : Transport ε κ F) : Transport ((ε × List Link) × List (EngineCall F)) κ F where
  stream := (t.stream.traced .stream).beside _
  session streams := (((t.session streams).traced .session).beside _).map fun sess => sess.traced.recorded

/-- **Connecting** enters the stream, then the session, and initializes it, as far as it comes. -/
theorem connect_observed (t : Transport ε κ F) (e : ε) :
    (∃ x e' links, t.observed.connect.exec ((e, []), []) = (.error x, (e', links), []) ∧
      links <+: [.entered .stream, .entered .session]) ∨
    ∃ (sess : ClientSession ε F) (streams : κ) (e' : ε), t.observed.connect.exec ((e, []), []) =
      (.ok (sess.traced.recorded, [(((t.session streams).traced .session).beside _).exit,
        ((t.stream.traced .stream).beside _).exit]),
        (e', [.entered .stream, .entered .session, .initialized]), []) := by
  rw [Transport.connect, Py.exec_bind]
  cases hstream : t.stream.enter.exec e with
  | mk r e₁ =>
    cases r with
    | error x =>
      rw [Transport.observed, exec_observed_enter_of_error .stream hstream]
      exact .inl ⟨x, e₁, [], rfl, List.nil_prefix⟩
    | ok streams =>
      rw [Transport.observed, exec_observed_enter_of_ok .stream hstream]
      dsimp only
      rw [Py.exec_bind, Context.map, Py.exec_bind]
      cases hsess : (t.session streams).enter.exec e₁ with
      | mk r e₂ =>
        cases r with
        | error x =>
          rw [exec_observed_enter_of_error .session hsess]
          exact .inl ⟨x, e₂, [.entered .stream], rfl, ⟨[.entered .session], rfl⟩⟩
        | ok sess =>
          rw [exec_observed_enter_of_ok .session hsess]
          dsimp only
          rw [Py.exec_pure]
          dsimp only
          rw [Py.exec_bind]
          simp only [ClientSession.recorded, ClientSession.traced, Py.exec_beside, Py.exec_bind, Py.note,
            Py.exec_modify]
          cases (sess.handshake.exec e₂).1 with
          | error x => exact .inl ⟨x, _, _, rfl, List.prefix_rfl⟩
          | ok _ => exact .inr ⟨sess, streams, _, rfl⟩

/-- **Closing** leaves the session, then the stream, and is on no record of calls. -/
theorem exec_unwind_observed {α β : Type} (sess : Context ε α) (stream : Context ε β) (w : (ε × List Link) × γ) :
    ∃ r r',
      let callbacks := [((sess.traced .session).beside γ).exit, ((stream.traced .stream).beside γ).exit]
      let run := (unwind callbacks none).exec w
      run.1 = raisedBy none [r, r'] ∧ run.2.1.2 = w.1.2 ++ [.left .session r, .left .stream r'] ∧ run.2.2 = w.2 := by
  let read : (ε × List Link) × γ → List Link × γ := fun w => (w.1.2, w.2)
  let act : Layer → Except Exc Bool → List Link × γ → List Link × γ := fun layer r p => (p.1 ++ [.left layer r], p.2)
  have hleft : List.Forall₂ (fun callback layer => ∀ exc w,
      read (Py.exec (callback exc) w).2 = act layer (Py.exec (callback exc) w).1 (read w))
      [((sess.traced .session).beside γ).exit, ((stream.traced .stream).beside γ).exit] [.session, .stream] :=
    .cons (exec_observed_exit .session) (.cons (exec_observed_exit .stream) .nil)
  obtain ⟨results, hlength, hraised, hread⟩ := exec_unwind hleft none w
  obtain ⟨r, r', rfl⟩ := List.length_eq_two.mp hlength
  obtain ⟨hlinks, hrest⟩ := Prod.mk.inj hread
  exact ⟨r, r', hraised, hlinks.trans (List.append_assoc ..), hrest⟩

/-! ## Runs -/

/-- The calls of a record, as the trace shows them. -/
def shown (calls : List (EngineCall F)) : List Link := calls.map fun q => .called q.op

/-- The trace has grown by the calls that are on record. -/
def Episode.OnTrace (links : List Link) (ep : Episode ((ε × List Link) × List (EngineCall F)) F) : Prop :=
  ep.client.1.2 = links ++ shown ep.client.2

theorem Episode.OnTrace.called {links : List Link} {ep : Episode ((ε × List Link) × List (EngineCall F)) F}
    (h : ep.OnTrace links) (sess : ClientSession ε F) (op : String) (args : Dict F) :
    (ep.called sess.traced.tools op args).OnTrace links := by
  have hlinks : (ep.called sess.traced.tools op args).client.1.2 = ep.client.1.2 ++ [.called op] :=
    exec_traced_callTool sess op args ep.client.1
  have hrecord : (ep.called sess.traced.tools op args).client.2 =
      ep.client.2 ++ [sess.traced.tools.entry op args ep.client.1] := rfl
  unfold Episode.OnTrace shown at h ⊢
  rw [hlinks, hrecord, h, List.map_append, List.append_assoc]
  rfl

variable [Runtime F]

/-- A transition calls the engine at most once. -/
theorem Episode.onTrace_step {links : List Link} {sess : ClientSession ε F}
    {holes : Holes ((ε × List Link) × List (EngineCall F)) F}
    {ep ep' : Episode ((ε × List Link) × List (EngineCall F)) F} (h : ep.OnTrace links)
    (hstep : Step sess.traced.tools holes ep ep') : ep'.OnTrace links := by
  cases hstep with
  | started scenarioId seed => exact h.called sess _ _
  | observed tick => exact h
  | seen seen => exact h
  | folded routed => exact h
  | unlocated hmiss hpoint => exact h.called sess _ _
  | located hmiss hpoint => exact h.called sess _ _
  | timed fromSpec toSpec => exact h.called sess _ _
  | dispatched hi vehicleId x y rationale => exact h.called sess _ _
  | refiled hi hi' => exact h
  | charged usage => exact h
  | ticked => exact h.called sess _ _

/-- **A run in an open session**: its protocol, and the same calls on the trace. -/
theorem traced_runEpisode (sess : ClientSession ε F) (holes : Holes ((ε × List Link) × List (EngineCall F)) F)
    (environ : String → Option String) (scenarioId : String) (seed : Option Int) (useLlm : Bool) (fuel : Nat) (e : ε)
    (links : List Link) :
    let run := (runEpisode sess.traced.recorded.tools holes environ scenarioId seed useLlm fuel).exec ((e, links), [])
    AnyRun run.2.2 run.1 ∧ run.2.1.2 = links ++ shown run.2.2 := by
  rw [show sess.traced.recorded.tools = sess.traced.tools.recorded from rfl]
  dsimp only
  refine ⟨?_, ?_⟩
  · rcases Episode.exec_runEpisode_cases sess.traced.tools.recorded holes environ scenarioId seed useLlm fuel
      ((e, links), []) with ⟨x, -, hrun⟩ | ⟨ep, hep, hrun⟩
    · rw [hrun]
      exact .unborn x rfl
    · obtain ⟨intakeLlm, dispatchLlm, rfl⟩ := Episode.exists_fresh_of_new hep
      rw [hrun]
      exact anyRun_episodeRun sess.traced.tools holes scenarioId seed fuel rfl
  · have hkeeps : ∃ ep : Episode ((ε × List Link) × List (EngineCall F)) F, ep.OnTrace links ∧ ep.client =
        ((runEpisode sess.traced.tools.recorded holes environ scenarioId seed useLlm fuel).exec ((e, links), [])).2 :=
      Episode.keeps_runEpisode (fun _ _ => (List.append_nil links).symm) Episode.onTrace_step environ scenarioId seed
        fuel
    obtain ⟨ep, htraced, hclient⟩ := hkeeps
    rw [← hclient]
    exact htraced

/-- What a run does to its connection, by its outcome. -/
inductive Lifecycle (links : List Link) (calls : List (EngineCall F)) : Except Exc (Option (Summary F)) → Prop
  /-- It could not connect. What it had entered by then stays open. -/
  | refused (x : Exc) (hlinks : links <+: [.entered .stream, .entered .session]) (hcalls : calls = []) :
      Lifecycle links calls (.error x)
  /-- It ran, and closed. What closing raised replaces what the run has returned or raised. -/
  | closed {own : Except Exc (Option (Summary F))} {r r' : Except Exc Bool} (hrun : AnyRun calls own)
      (hlinks : links = [.entered .stream, .entered .session, .initialized] ++ shown calls ++
        [.left .session r, .left .stream r']) : Lifecycle links calls (raisedBy none [r, r'] >>= fun _ => own)

/-- **The connection of any run**, for every transport and every engine behind it, whatever intake and reconciliation
leave in the stores and whatever calls the agent loop makes. The contexts that a run has entered it leaves once each,
behind its last call and the session before the stream, whatever was raised on the way, also by leaving the session. A
run that fails to connect asks nothing of the engine, and leaves
none of the contexts it had entered. -/
theorem connection_of_any_run (t : Transport ε κ F) (holes : Holes ((ε × List Link) × List (EngineCall F)) F)
    (environ : String → Option String) (scenarioId : String) (seed : Option Int) (useLlm : Bool) (fuel : Nat) (e : ε) :
    let run := (EngineClient.runEpisode t.observed holes environ scenarioId seed useLlm fuel).exec
      (.new ((e, []), []))
    Lifecycle run.2.world.1.2 run.2.world.2 run.1 := by
  dsimp only
  rcases EngineClient.exec_runEpisode t.observed holes environ scenarioId seed useLlm fuel ((e, []), []) with
    ⟨x, c, hconnect, hrun, hworld⟩ | ⟨sess, callbacks, c, hconnect, hrun, hworld, -⟩
  · rcases connect_observed t e with ⟨x', e', links, h, hlinks⟩ | ⟨sess, streams, e', h⟩
    · rw [hrun]
      dsimp only
      rw [hworld, h]
      exact .refused x hlinks rfl
    · rw [h] at hconnect
      cases hconnect
  · rcases connect_observed t e with ⟨x', e', links, h, hlinks⟩ | ⟨sess', streams, e', h⟩
    · rw [h] at hconnect
      cases hconnect
    · rw [h] at hconnect hrun hworld
      cases hconnect
      obtain ⟨hown, hlinks⟩ := traced_runEpisode sess' holes environ scenarioId seed useLlm fuel e'
        [.entered .stream, .entered .session, .initialized]
      dsimp only at hrun hworld hown hlinks
      rw [hrun, hworld]
      generalize (runEpisode sess'.traced.recorded.tools holes environ scenarioId seed useLlm fuel).exec _ = own
        at hown hlinks ⊢
      obtain ⟨r, r', hraised, hleft, hcalls⟩ := exec_unwind_observed (t.session streams) t.stream own.2
      rw [hraised, hleft, hcalls, hlinks]
      exact .closed hown rfl

/-- A transport whose engine does not answer the handshake. -/
def deaf : Transport Nat Unit Whole where
  stream := ⟨pure (), fun _ => pure false⟩
  session _ := ⟨pure ⟨throw ⟨.osError, "no answer"⟩, ⟨fun _ _ => throw ⟨.osError, "no answer"⟩⟩⟩, fun _ => pure false⟩

/-- Both contexts stay open. -/
example : ((EngineClient.runEpisode deaf.observed .shipped (fun _ => none) "two-fires" none false 3).exec
    (.new ((0, []), []))).2.world.1.2 = [.entered .stream, .entered .session] := rfl

end HadrAgent
