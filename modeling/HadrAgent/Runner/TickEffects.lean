import HadrAgent.Runner.Episode

/-!
# What a tick does to its episode

After its contacts are sorted, a tick has the tick and the contacts it has seen fixed; all it can still do to the engine
it does through the tools (`along_runHoles`). The statement is for any preorder `C` on the world of the engine that the
calls of the tools move along (`Session.Respects`).
-/

namespace HadrAgent

variable {β ε F : Type}

namespace Episode

/-- The tick and the contacts seen stay as they are, and the world moves along `C`. -/
structure Moves (C : Val F → ε → ε → Prop) (ep ep' : Episode ε F) : Prop where
  tick : ep'.tick = ep.tick
  seen : ep'.seen = ep.seen
  client : C ep.tick ep.client ep'.client

instance {C : Val F → ε → ε → Prop} [∀ t, IsPreorder ε (C t)] : IsPreorder (Episode ε F) (Moves C) where
  refl ep := ⟨rfl, rfl, refl_of (C ep.tick) ep.client⟩
  trans ep _ _ h h' :=
    ⟨h'.tick.trans h.tick, h'.seen.trans h.seen, trans_of (C ep.tick) h.client (h.tick ▸ h'.client)⟩

theorem along_onClient {α : Type} {C : Val F → ε → ε → Prop} {m : Py ε α} (hm : ∀ t, m.Along (C t)) :
    (onClient m).Along (Moves C) := by
  intro ep
  rw [onClient, Py.exec_zoom]
  exact ⟨rfl, rfl, hm ep.tick ep.client⟩

/-- Nothing changes but the contacts seen. -/
def OnlySeen (ep ep' : Episode ε F) : Prop := ∃ seen, ep' = { ep with seen := seen }

instance : IsPreorder (Episode ε F) OnlySeen where
  refl ep := ⟨ep.seen, rfl⟩
  trans := by
    rintro ep _ _ ⟨s, rfl⟩ ⟨t, rfl⟩
    exact ⟨t, rfl⟩

end Episode

/-! ## Tool calls -/

/-- The tools move their backend along `R`. -/
structure DispatchTools.Along (tools : DispatchTools β F) (R : β → β → Prop) : Prop where
  buildingToCoords : ∀ v, (tools.buildingToCoords v).Along R
  travelTime : ∀ v v', (tools.travelTime v v').Along R
  dispatch : ∀ vehicleId incidentId x y rationale, (tools.dispatch vehicleId incidentId x y rationale).Along R

variable [Runtime F]

theorem DispatchTools.Along.step {tools : DispatchTools β F} {R : β → β → Prop} [IsPreorder β R] (h : tools.Along R)
    (w : World β F) (c : ToolCall F) : R w.backend (w.step tools noLog c).2.backend := by
  have heff := callTool_effect tools noLog w c
  rw [step_eq]
  generalize (callTool tools noLog c.name c.args c.tick).exec w = r at heff ⊢
  cases heff with
  | quiet hr => exact refl_of R _
  | asked hname hm =>
    rcases hm with ⟨v, rfl⟩ | ⟨v, v', rfl⟩
    · exact h.buildingToCoords v _
    · exact h.travelTime v v' _
  | refiled hname hid hi hi' hs => exact refl_of R _
  | dispatched hname hid hi hargs hrat hr =>
    obtain rfl := (Prod.mk.inj hr).2
    exact h.dispatch _ _ _ _ _ _

/-- **A dispatch** moves the backend along what its tools move it. -/
theorem DispatchTools.Along.runDispatch {tools : DispatchTools β F} {R : β → β → Prop} [IsPreorder β R]
    (h : tools.Along R) (loop : AgentLoop F) (tick : Val F) (w : World β F) :
    R w.backend ((runDispatch tools noLog loop tick).exec w).2.backend := by
  obtain ⟨calls, _, _, hb⟩ := exec_runDispatch tools noLog loop tick w
  rw [hb]
  exact Runs.final_rel (R := fun w w' : World β F => R w.backend w'.backend) (fun _ => refl_of R _)
    (fun _ _ _ h₁ h₂ => trans_of R h₁ h₂) (fun w c _ => h.step w c) { w with result := .empty }

/-! ## Contacts -/

namespace Episode

theorem along_routeContact (routed : Routed F) (c : Val F) :
    (routeContact routed c : Py (Episode ε F) _).Along OnlySeen := by
  refine Py.along_bind (Py.along_lift _) fun contactId => Py.along_bind (Py.along_lift _) fun _ => ?_
  refine Py.along_bind Py.along_get fun ep => ?_
  split
  · exact Py.along_pure _
  · refine Py.along_bind (Py.along_modify fun ep => ⟨_, rfl⟩) fun _ => Py.along_bind (Py.along_lift _) fun v => ?_
    split
    · exact Py.along_bind (Py.along_lift _) fun _ => Py.along_pure _
    · exact Py.along_pure _

theorem along_routeContacts : ∀ (contacts : List (Val F)) (routed : Routed F),
    (routeContacts routed contacts : Py (Episode ε F) _).Along OnlySeen
  | [], routed => Py.along_pure routed
  | c :: contacts, routed => Py.along_bind (along_routeContact routed c) fun _ => along_routeContacts contacts _

/-- Where the contacts are sorted, the episode has its tick, and only the contacts seen have changed besides. -/
theorem passthrough_eq_ok {obs tick : Val F} {routed : Routed F} {ep ep' : Episode ε F}
    (h : (passthrough obs).exec ep = (.ok (tick, routed), ep')) :
    obs.getItem "tick" = .ok tick ∧ ∃ seen, ep' = { ep with tick := tick, seen := seen } := by
  obtain ⟨t, htick, h⟩ := Py.exec_lift_bind_eq_ok.mp h
  rw [Py.exec_bind, Py.exec_modify] at h
  obtain ⟨v, _, h⟩ := Py.exec_lift_bind_eq_ok.mp h
  obtain ⟨contacts, _, h⟩ := Py.exec_lift_bind_eq_ok.mp h
  obtain ⟨r, ep₁, hroute, h⟩ := Py.exec_bind_eq_ok.mp h
  have halong := along_routeContacts contacts ⟨[], []⟩ { ep with tick := t }
  rw [hroute] at halong
  cases h
  exact ⟨htick, halong⟩

end Episode

/-! ## Ticks -/

/-- The calls a tool makes on tick `t` move the world along `C t`. -/
structure Session.Respects (session : Session ε F) (C : Val F → ε → ε → Prop) : Prop where
  read : ∀ t op args, op = "building_to_coords" ∨ op = "travel_time" → (session.call op args).Along (C t)
  dispatch : ∀ t args, args.get? "expected_tick" = some t → (session.call "dispatch" args).Along (C t)

namespace Episode

/-- A lookup of a point moves the episode as its call does, and as the cache may change. -/
theorem along_coordsOf_of_call {R : Episode ε F → Episode ε F → Prop} [IsPreorder (Episode ε F) R]
    {session : Session ε F} {buildingId : Val F} (hcall : (onClient (session.buildingToCoords buildingId)).Along R)
    (hcache : ∀ ep cache, R ep { ep with coordsCache := cache }) : (coordsOf session buildingId).Along R := by
  refine Py.along_bind (Py.along_lift _) fun _ => Py.along_bind Py.along_get fun ep => ?_
  split
  · exact Py.along_pure _
  · refine Py.along_bind hcall fun r => Py.along_bind (Py.along_lift _) fun p => ?_
    refine Py.along_bind (Py.along_lift _) fun x => Py.along_bind (Py.along_lift _) fun y => ?_
    exact Py.along_bind (Py.along_modify fun ep => hcache ep _) fun _ => Py.along_pure _

variable {C : Val F → ε → ε → Prop} [∀ t, IsPreorder ε (C t)]

theorem along_coordsOf {session : Session ε F} (h : session.Respects C) (buildingId : Val F) :
    (coordsOf session buildingId).Along (Moves C) := by
  refine Py.along_bind (Py.along_lift _) fun _ => Py.along_bind Py.along_get fun ep => ?_
  split
  · exact Py.along_pure _
  · refine Py.along_bind (along_onClient fun t => h.read t _ _ (.inl rfl)) fun r => ?_
    refine Py.along_bind (Py.along_lift _) fun p => Py.along_bind (Py.along_lift _) fun x => ?_
    refine Py.along_bind (Py.along_lift _) fun y => Py.along_bind (Py.along_modify ?_) fun _ => Py.along_pure _
    intro ep
    exact ⟨rfl, rfl, refl_of (C ep.tick) ep.client⟩

/-- **The tools of an episode** give the engine its tick. -/
theorem along_tools {session : Session ε F} (h : session.Respects C) : (tools session).Along (Moves C) where
  buildingToCoords v := Py.along_bind (along_coordsOf h v) fun _ => Py.along_pure _
  travelTime v v' := Py.along_bind (along_onClient fun t => h.read t _ _ (.inr rfl)) fun _ => Py.along_pure _
  dispatch vehicleId incidentId x y rationale := by
    intro ep
    have hcall := h.dispatch ep.tick (Session.dispatchCommand ep.tick vehicleId incidentId
      (.dict [("x", .float x), ("y", .float y)]) rationale) rfl
    simp only [tools, Session.dispatch, Py.exec_bind, Py.exec_get, onClient, Py.exec_zoom]
    cases ((session.call "dispatch" _).exec ep.client).1 with
    | ok r => exact ⟨rfl, rfl, hcall ep.client⟩
    | error e => exact ⟨rfl, rfl, hcall ep.client⟩

theorem along_dispatchTick {session : Session ε F} (h : session.Respects C) (holes : Holes ε F) (obs tick : Val F) :
    (dispatchTick session holes obs tick).Along (Moves C) := by
  refine Py.along_bind Py.along_get fun _ => Py.along_bind (Py.along_lift _) fun _ => ?_
  refine Py.along_bind (Py.along_lift _) fun trucks => Py.along_bind Py.along_get fun ep => ?_
  refine Py.along_bind ?_ fun result => Py.along_modify fun ep => ⟨rfl, rfl, refl_of (C ep.tick) ep.client⟩
  intro ep'
  rw [inSession, Py.exec_zoom]
  have hrun := (along_tools h).runDispatch (holes.agentLoop ep.incidents trucks tick ep.client) tick
    ⟨ep'.incidents, .empty, ep'⟩
  exact ⟨hrun.tick, hrun.seen, hrun.client⟩

/-- **After its contacts**, a tick keeps the tick and the contacts seen, and reaches the engine by the tools only. -/
theorem along_runHoles {session : Session ε F} (h : session.Respects C) (holes : Holes ε F) (obs tick : Val F)
    (routed : Routed F) : (runHoles session holes obs tick routed).Along (Moves C) := by
  refine Py.along_bind (Py.along_modify fun ep => ⟨rfl, rfl, refl_of (C ep.tick) ep.client⟩) fun _ => ?_
  refine Py.along_bind Py.along_get fun ep => ?_
  split
  · exact along_dispatchTick h holes obs tick
  · exact Py.along_pure _

end Episode

end HadrAgent
