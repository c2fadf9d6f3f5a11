import HadrAgent.Python.Rules
import HadrAgent.Runner.EpisodeSteps

/-!
# Episodes that end

The tick loop runs as long as the engine says so. Where the engine has only so many ticks to give (`Session.Clock`), an
episode ends, and the fuel that bounds the rounds of the model makes no difference.

- `exec_tickLoop_of_fuel`, `exec_runEpisode_of_fuel`: what a run came to, it comes to with more fuel;
- `tickLoop_ends`: the loop needs a round for each tick that is left;
- `episode_ends`: so an episode returns or raises, and does the same for every fuel that is enough.
-/

namespace HadrAgent

variable {ε F : Type}

/-! ## More fuel -/

namespace Py

variable {σ α β : Type}

/-- What is returned or raised before the fuel is spent. -/
def Ended (r : Except Exc (Option α)) : Prop := r ≠ .ok none

theorem ended_error (e : Exc) : Ended (.error e : Except Exc (Option α)) := nofun

theorem ended_some (a : α) : Ended (.ok (some a)) := nofun

/-- Unless the first computation ran out of fuel, the second one does the same. -/
def Extends (m m' : Py σ (Option α)) (s : σ) : Prop := Ended (m.exec s).1 → m'.exec s = m.exec s

theorem extends_refl (m : Py σ (Option α)) (s : σ) : m.Extends m s := fun _ => rfl

/-- Behind the same beginning. -/
theorem extends_bind {m : Py σ β} {f g : β → Py σ (Option α)} {s : σ} (h : ∀ b t, (f b).Extends (g b) t) :
    (m >>= f).Extends (m >>= g) s := by
  intro hne
  rw [exec_bind] at hne ⊢
  rw [exec_bind]
  cases hm : (m.exec s).1 with
  | ok b =>
    rw [hm] at hne
    exact h b _ hne
  | error e => rfl

/-- Before the same end, which passes on that the fuel ran out. -/
theorem extends_bind_left {m m' : Py σ (Option β)} {f : Option β → Py σ (Option α)} {s : σ} (h : m.Extends m' s)
    (hnone : ∀ t, ((f none).exec t).1 = .ok none) : (m >>= f).Extends (m' >>= f) s := by
  intro hne
  rw [exec_bind] at hne ⊢
  rw [exec_bind]
  have hsome : Ended (m.exec s).1 := by
    intro e
    rw [e] at hne
    exact hne (hnone _)
  rw [h hsome]

theorem extends_zoom {τ : Type} {part : τ → σ} {replace : σ → τ → τ} {m m' : Py σ (Option α)} {t : τ}
    (h : m.Extends m' (part t)) : (m.zoom part replace).Extends (m'.zoom part replace) t := by
  intro hne
  rw [exec_zoom] at hne ⊢
  rw [exec_zoom, h hne]

end Py

variable [Runtime F]

/-- **The loop** does with more fuel what it did. -/
theorem exec_tickLoop_of_fuel (session : Session ε F) (holes : Holes ε F) : ∀ {fuel fuel' : Nat}, fuel ≤ fuel' →
    ∀ (obs outcome : Val F) (ep : Episode ε F),
      (tickLoop session holes fuel obs outcome).Extends (tickLoop session holes fuel' obs outcome) ep
  | 0, _, _, _, _, _ => fun hne => absurd rfl hne
  | fuel + 1, 0, hle, _, _, _ => absurd hle (Nat.not_succ_le_zero fuel)
  | fuel + 1, fuel' + 1, hle, obs, outcome, ep => by
    refine Py.extends_bind fun running ep => ?_
    cases running with
    | false => exact Py.extends_refl _ ep
    | true =>
      refine Py.extends_bind fun _ ep => Py.extends_bind fun t ep => Py.extends_bind fun _ ep => ?_
      refine Py.extends_bind fun res ep => Py.extends_bind fun obs' ep => ?_
      exact exec_tickLoop_of_fuel session holes (Nat.le_of_succ_le_succ hle) obs' _ ep

/-- **A run** does with more fuel what it did. -/
theorem exec_runEpisode_of_fuel (session : Session ε F) (holes : Holes ε F) (environ : String → Option String)
    (scenarioId : String) (seed : Option Int) (useLlm : Bool) {fuel fuel' : Nat} (hle : fuel ≤ fuel') (engine : ε) :
    (runEpisode session holes environ scenarioId seed useLlm fuel).Extends
      (runEpisode session holes environ scenarioId seed useLlm fuel') engine := by
  refine Py.extends_bind fun e e' => Py.extends_bind fun ep e' => Py.extends_zoom ?_
  refine Py.extends_bind fun start ep => Py.extends_bind fun runId ep => Py.extends_bind fun obs ep => ?_
  exact Py.extends_bind_left (exec_tickLoop_of_fuel session holes hle obs _ ep) fun _ => rfl

/-! ## Enough fuel -/

/-- What the engine has left: no call gives it more, and a `next_tick` after which the episode is still running takes
some. -/
structure Session.Clock (session : Session ε F) (left : ε → Nat) : Prop where
  keeps : ∀ op args e, left ((session.callTool op args).exec e).2 ≤ left e
  falls : ∀ args e res obs, ((session.call "next_tick" args).exec e).1 = .ok res →
    res.getItem "observation" = .ok obs → isRunning obs = .ok true →
      left ((session.call "next_tick" args).exec e).2 < left e

theorem Session.exec_call_snd (session : Session ε F) (op : String) (args : Dict F) (e : ε) :
    ((session.call op args).exec e).2 = ((session.callTool op args).exec e).2 := by
  rw [call, Py.exec_bind]
  cases ((session.callTool op args).exec e).1 with
  | ok res => exact congrArg Prod.snd (Py.exec_lift res.unwrap _)
  | error x => rfl

variable {session : Session ε F} {left : ε → Nat}

theorem Session.Clock.keeps_call (h : session.Clock left) (op : String) (args : Dict F) (e : ε) :
    left ((session.call op args).exec e).2 ≤ left e := by
  rw [session.exec_call_snd]
  exact h.keeps op args e

/-- Two worlds of the engine, the second with no more left. -/
def NoMore (left : ε → Nat) (e e' : ε) : Prop := left e' ≤ left e

instance : IsPreorder ε (NoMore left) where
  refl _ := Nat.le_refl _
  trans _ _ _ h h' := Nat.le_trans h' h

/-- Two episodes, the second with no more left. -/
def Episode.NoMore (left : ε → Nat) (ep ep' : Episode ε F) : Prop := left ep'.client ≤ left ep.client

instance : IsPreorder (Episode ε F) (Episode.NoMore left) where
  refl _ := Nat.le_refl _
  trans _ _ _ h h' := Nat.le_trans h' h

/-- **A tick** leaves no more. -/
theorem Session.Clock.processTick (h : session.Clock left) (holes : Holes ε F) (obs : Val F) :
    (Episode.processTick session holes obs).Along (Episode.NoMore left) := by
  have hrespects : session.Respects fun _ => HadrAgent.NoMore left :=
    ⟨fun _ op args _ => h.keeps_call op args, fun _ args _ => h.keeps_call "dispatch" args⟩
  refine Py.along_bind ((Episode.onlyObserved_passthrough obs).mono ?_) fun p => ?_
  · rintro ep _ ⟨tick, seen, rfl⟩
    exact Nat.le_refl (left ep.client)
  · exact (Episode.along_runHoles hrespects holes obs p.1 p.2).mono fun _ _ hmoves => hmoves.client

/-- The end of a tick, as the engine sees it. -/
theorem post_onClient_nextTick (session : Session ε F) (t tokens : Val F) (ep : Episode ε F) :
    let next := (session.call "next_tick" (Session.tickCommand t (some tokens))).exec ep.client
    (Episode.onClient (session.nextTick t (some tokens))).Post ep fun r ep' => r = next.1 ∧ ep'.client = next.2 := by
  unfold Py.Post
  rw [Episode.onClient, Py.exec_zoom]
  exact ⟨rfl, rfl⟩

/-- **The loop** needs a round for each tick that is left, and one to see that the episode is over. -/
theorem tickLoop_ends (h : session.Clock left) (holes : Holes ε F) : ∀ (fuel : Nat) (obs outcome : Val F)
    (ep : Episode ε F), 0 < fuel → (isRunning obs = .ok true → left ep.client + 1 < fuel) →
      (tickLoop session holes fuel obs outcome).Post ep fun r _ => Py.Ended r
  | 0, _, _, _, hpos, _ => absurd hpos (Nat.lt_irrefl 0)
  | fuel + 1, obs, outcome, ep, _, hleft => by
    refine Py.post_lift_bind (fun running hrun => ?_) Py.ended_error
    cases running with
    | false => exact Py.post_pure (Py.ended_some _)
    | true =>
      have hfuel := hleft hrun
      have htick : (Episode.processTick session holes obs).Post ep fun _ ep₁ => left ep₁.client ≤ left ep.client :=
        h.processTick holes obs ep
      refine Py.post_bind htick ?_ fun e _ _ => Py.ended_error e
      intro _ ep₁ hle
      refine Py.post_lift_bind (fun t _ => Py.post_get_bind ?_) Py.ended_error
      refine Py.post_bind (post_onClient_nextTick session t _ ep₁) ?_ fun e _ _ => Py.ended_error e
      rintro res ep₂ ⟨hres, hclient⟩
      refine Py.post_lift_bind (fun obs' hobs => ?_) Py.ended_error
      refine tickLoop_ends h holes fuel obs' _ ep₂ (by omega) fun hrun' => ?_
      have hfalls := h.falls _ ep₁.client res obs' hres.symm hobs hrun'
      rw [hclient]
      omega

/-- A run of an episode ends where the engine has few enough ticks left. -/
theorem episodeRun_ends (h : session.Clock left) (holes : Holes ε F) (scenarioId : String) (seed : Option Int)
    {fuel : Nat} {ep : Episode ε F} (hfuel : left ep.client + 1 < fuel) :
    (episodeRun session holes scenarioId seed fuel).Post ep fun r _ => Py.Ended r := by
  have hstart : (Episode.onClient (session.startEpisode scenarioId seed)).Post ep fun _ ep₁ =>
      left ep₁.client ≤ left ep.client := by
    unfold Py.Post
    rw [Episode.onClient, Py.exec_zoom]
    exact h.keeps_call _ _ _
  refine Py.post_bind hstart ?_ fun e _ _ => Py.ended_error e
  intro start ep₁ hle
  refine Py.post_lift_bind (fun runId _ => Py.post_lift_bind (fun obs _ => ?_) Py.ended_error) Py.ended_error
  refine Py.post_bind (tickLoop_ends h holes fuel obs _ ep₁ (by omega) fun _ => by omega) ?_
    fun e _ _ => Py.ended_error e
  intro r ep₂ hended
  cases r with
  | none => exact absurd rfl hended
  | some q =>
    exact Py.post_get_bind (Py.post_lift_bind (fun s _ => Py.post_pure (Py.ended_some s)) Py.ended_error)

theorem runEpisode_ends (h : session.Clock left) (holes : Holes ε F) (environ : String → Option String)
    (scenarioId : String) (seed : Option Int) (useLlm : Bool) {engine : ε} {fuel : Nat}
    (hfuel : left engine + 2 ≤ fuel) :
    Py.Ended ((runEpisode session holes environ scenarioId seed useLlm fuel).exec engine).1 := by
  rcases Episode.exec_runEpisode_cases session holes environ scenarioId seed useLlm fuel engine with
    ⟨e, -, hrun⟩ | ⟨ep, hep, hrun⟩
  · rw [hrun]
    exact Py.ended_error e
  · obtain ⟨intakeLlm, dispatchLlm, rfl⟩ := Episode.exists_fresh_of_new hep
    rw [hrun]
    exact episodeRun_ends h holes scenarioId seed hfuel

/-- **An episode ends** where the engine has only so many ticks to give, whatever intake and reconciliation leave in the
stores and whatever calls the agent loop makes: with a fuel of two more rounds it returns or raises, and every larger
fuel gives the same run. -/
theorem episode_ends (h : session.Clock left) (holes : Holes ε F) (environ : String → Option String)
    (scenarioId : String) (seed : Option Int) (useLlm : Bool) (engine : ε) {fuel : Nat}
    (hfuel : left engine + 2 ≤ fuel) :
    Py.Ended ((runEpisode session holes environ scenarioId seed useLlm fuel).exec engine).1 ∧
      (runEpisode session holes environ scenarioId seed useLlm fuel).exec engine =
        (runEpisode session holes environ scenarioId seed useLlm (left engine + 2)).exec engine := by
  have hended := runEpisode_ends h holes environ scenarioId seed useLlm (Nat.le_refl (left engine + 2))
  exact ⟨runEpisode_ends h holes environ scenarioId seed useLlm hfuel,
    exec_runEpisode_of_fuel session holes environ scenarioId seed useLlm hfuel engine hended⟩

/-- An engine that counts its ticks down. -/
def countdown : Session Nat Whole where
  callTool op _ := fun n =>
    let n' := if op = "next_tick" then n - 1 else n
    let observation : Val Whole :=
      .dict [("tick", .int n'), ("lifecycle", .str (if 0 < n' then "running" else "ended"))]
    .ok ⟨false, some (.ofList [("run_id", .str "run-1"), ("observation", observation)])⟩ n'

theorem clock_countdown : countdown.Clock id where
  keeps op args n := by
    show (if op = "next_tick" then n - 1 else n) ≤ n
    split <;> omega
  falls args n res obs hres hobs hrun := by
    show n - 1 < n
    cases n with
    | zero =>
      cases hres
      cases hobs
      cases hrun
    | succ n => exact Nat.lt_succ_self n

/-- Three ticks are over after three rounds, with any fuel from five. -/
theorem episode_ends_countdown :
    let run (fuel : Nat) := (runEpisode countdown .shipped (fun _ => none) "two-fires" none false fuel).exec 3
    (run 5).1 = .ok (some ⟨.str "run-1", .none, .int 0, .none, .none, .zero, .zero⟩) ∧ run 99 = run 5 :=
  ⟨rfl, (episode_ends clock_countdown .shipped (fun _ => none) "two-fires" none false 3 (by decide)).2⟩

end HadrAgent
