import HadrAgent.Dispatch.Effects

/-!
# One dispatch

`run_dispatch`, with the agent loop as a parameter: a loop is what it does to its tools, a tree of calls that branches
on their replies (`AgentLoop`). Whatever it does, its session is a run of tool calls (`exec_run`), so what every tool
call keeps, a dispatch keeps (`DispatchTools.Along.runDispatch`).
-/

namespace HadrAgent

/-- `LoopResult`. -/
structure LoopResult where
  usage : TokenUse
  rounds : Nat
  final : String

/-- What an agent loop does: it calls tools, each after the reply to the one before, until it returns or raises. -/
inductive AgentLoop (F : Type) where
  | done (r : LoopResult)
  | raise (e : Exc)
  | call (name : String) (args : Dict F) (next : Dict F → AgentLoop F)

variable {β F : Type} [Runtime F]

/-- A tool call, as the loop sees it. -/
def World.callTool (tools : DispatchTools β F) (log : DebugLog β F) (c : ToolCall F) : Py (World β F) (Dict F) :=
  fun w => .ok (w.step tools log c).1 (w.step tools log c).2

theorem World.exec_callTool (tools : DispatchTools β F) (log : DebugLog β F) (c : ToolCall F) (w : World β F) :
    (World.callTool tools log c).exec w = (.ok (w.step tools log c).1, (w.step tools log c).2) := rfl

/-- The loop with its tools. -/
def AgentLoop.run (tools : DispatchTools β F) (log : DebugLog β F) (tick : Val F) :
    AgentLoop F → Py (World β F) LoopResult
  | .done r => pure r
  | .raise e => throw e
  | .call name args next => do
    let reply ← World.callTool tools log ⟨name, args, tick⟩
    (next reply).run tools log tick

/-- `run_dispatch`. -/
def runDispatch (tools : DispatchTools β F) (log : DebugLog β F) (loop : AgentLoop F) (tick : Val F) :
    Py (World β F) (DispatchResult F) := do
  modify fun w => { w with result := .empty }
  let r ← loop.run tools log tick
  modify fun w => { w with result := { w.result with usage := r.usage, rounds := r.rounds, plan := r.final } }
  return (← get).result

/-! ## Sessions as runs -/

/-- **The session of a loop is a run of tool calls.** -/
theorem AgentLoop.exec_run (tools : DispatchTools β F) (log : DebugLog β F) (tick : Val F) (loop : AgentLoop F) :
    ∀ w : World β F, ∃ calls : List (ToolCall F), (∀ c ∈ calls, c.tick = tick) ∧
      ((loop.run tools log tick).exec w).2 = Runs.final (World.step tools log) w calls := by
  induction loop with
  | done r => intro w; exact ⟨[], nofun, rfl⟩
  | raise e => intro w; exact ⟨[], nofun, rfl⟩
  | call name args next ih =>
    intro w
    let c : ToolCall F := ⟨name, args, tick⟩
    obtain ⟨calls, htick, hrun⟩ := ih (w.step tools log c).1 (w.step tools log c).2
    refine ⟨c :: calls, ?_, ?_⟩
    · intro b hb
      rcases List.mem_cons.mp hb with rfl | hb
      · rfl
      · exact htick b hb
    · rw [run, Py.exec_bind, World.exec_callTool, Runs.final_cons]
      exact hrun

/-- The store and the backend a dispatch leaves are those of a run of tool calls. -/
theorem exec_runDispatch (tools : DispatchTools β F) (log : DebugLog β F) (loop : AgentLoop F) (tick : Val F)
    (w : World β F) : ∃ calls : List (ToolCall F), (∀ c ∈ calls, c.tick = tick) ∧
      ((runDispatch tools log loop tick).exec w).2.incidents =
        (Runs.final (World.step tools log) { w with result := .empty } calls).incidents ∧
      ((runDispatch tools log loop tick).exec w).2.backend =
        (Runs.final (World.step tools log) { w with result := .empty } calls).backend := by
  obtain ⟨calls, htick, hrun⟩ := loop.exec_run tools log tick { w with result := .empty }
  refine ⟨calls, htick, ?_⟩
  rw [← hrun]
  simp only [runDispatch, Py.exec_bind, Py.exec_modify]
  cases ((loop.run tools log tick).exec { w with result := .empty }).1 with
  | ok r => exact ⟨rfl, rfl⟩
  | error e => exact ⟨rfl, rfl⟩

end HadrAgent
