import HadrAgent.Dispatch.Commands

/-!
# What the model may write

`write_authority`: a tool call that does not answer `{"ok": True}` as `file_incident_update` leaves the store as it
was; one that does rewrites status, close reason, notes and tick of the record it names (`Refiled`).
-/

namespace HadrAgent

variable {F : Type}

/-- An argument that is present and not null. -/
def given (args : Dict F) (name : String) : Option (Val F) := (args.get? name).filter fun v => !v.isNone

theorem get?_updateFields (args : Dict F) {name : String} (h : name = "status" ∨ name = "notes") :
    (updateFields args).get? name = given args name := by
  unfold updateFields given
  rw [OrdDict.get?_filter]
  congr 1
  funext v
  rcases h with rfl | rfl <;> rfl

theorem get?_updateFields_of_ne (args : Dict F) {name : String} (hs : name ≠ "status") (hn : name ≠ "notes") :
    (updateFields args).get? name = none := by
  refine OrdDict.get?_eq_none.mpr fun hm => ?_
  rcases updateFields_keys hm with h | h
  · exact hs h
  · exact hn h

/-- The fields `file_incident_update` writes. -/
def beliefFields : List Field := [.status, .closeReason, .notes, .updatedTick]

/-- The stores hold the same incidents, in the same order, up to the beliefs of the model. -/
structure SameStructure (s s' : IncidentStore F) : Prop where
  keys : s'.byId.keys = s.byId.keys
  seq : s'.seq = s.seq
  fields : ∀ id i, s.byId.get? id = some i →
    ∃ i', s'.byId.get? id = some i' ∧ ∀ f ∉ beliefFields, i'.get f = i.get f

theorem SameStructure.refl (s : IncidentStore F) : SameStructure s s :=
  ⟨rfl, rfl, fun _ i hi => ⟨i, hi, fun _ _ => rfl⟩⟩

theorem SameStructure.trans (s t u : IncidentStore F) (h : SameStructure s t) (h' : SameStructure t u) :
    SameStructure s u where
  keys := h'.keys.trans h.keys
  seq := h'.seq.trans h.seq
  fields id i hi := by
    obtain ⟨j, hj, hij⟩ := h.fields id i hi
    obtain ⟨k, hk, hjk⟩ := h'.fields id j hj
    exact ⟨k, hk, fun f hf => (hjk f hf).trans (hij f hf)⟩

variable [Runtime F]

theorem closing_iff (args : Dict F) : closing args = true ↔ given args "status" = some (.str "closed") := by
  unfold closing Dict.getD
  rw [get?_updateFields args (.inl rfl), Val.eq_str_iff]
  cases given args "status" with
  | none => exact ⟨nofun, nofun⟩
  | some v => simp

theorem closingReason_eq (args : Dict F) :
    closingReason args = ((given args "notes").filter Val.truthy).getD (.str "closed by dispatch") := by
  unfold closingReason Dict.getD
  rw [get?_updateFields args (.inr rfl)]
  cases given args "notes" with
  | none => rfl
  | some v =>
    rw [Option.filter_some]
    simp only [Option.getD_some]
    split <;> rfl

/-- What `file_incident_update` does to the record it names. -/
structure Refiled (args : Dict F) (tick : Val F) (i i' : Incident F) : Prop where
  legal : ∀ status, given args "status" = some status → status.LegalStatus
  tick : i'.updatedTick = if tick.isNone then i.updatedTick else tick
  closed : given args "status" = some (.str "closed") → i'.status = .str "closed" ∧
    i'.closeReason = ((given args "notes").filter Val.truthy).getD (.str "closed by dispatch") ∧ i'.notes = i.notes
  updated : given args "status" ≠ some (.str "closed") → i'.status = (given args "status").getD i.status ∧
    i'.notes = (given args "notes").getD i.notes ∧ i'.closeReason = i.closeReason
  frame : ∀ f : Field, f ≠ .status → f ≠ .closeReason → f ≠ .notes → f ≠ .updatedTick → i'.get f = i.get f

theorem refiled_spec {args : Dict F} {tick : Val F} {i i' : Incident F} (h : i.refiled args tick = .ok i') :
    Refiled args tick i i' := by
  unfold Incident.refiled at h
  cases hc : closing args with
  | true =>
    rw [if_pos hc] at h
    obtain rfl := Except.ok.inj h
    have hstatus := (closing_iff args).mp hc
    refine ⟨fun _ hs => .inr (Option.some.inj (hs.symm.trans hstatus)), ?_, fun _ => ⟨?_, ?_, ?_⟩,
      fun hn => absurd hstatus hn, fun f hs hr _ ht => ?_⟩
    · exact Incident.updatedTick_bump _ tick
    · exact Incident.get_closed _ tick i (g := .status) nofun
    · rw [← closingReason_eq]
      exact Incident.get_closed _ tick i (g := .closeReason) nofun
    · exact Incident.get_closed _ tick i (g := .notes) nofun
    · rw [Incident.get_closed _ tick i ht, if_neg hs, if_neg hr]
  | false =>
    rw [if_neg (by simp [hc])] at h
    have hstatus : given args "status" ≠ some (.str "closed") := fun e => by
      rw [(closing_iff args).mpr e] at hc
      cases hc
    have hlegal := (Incident.updated_eq_ok h).1
    rw [get?_updateFields args (.inl rfl)] at hlegal
    refine ⟨hlegal, ?_, fun e => absurd e hstatus, fun _ => ⟨?_, ?_, ?_⟩, fun f hs _ hn ht => ?_⟩
    · have hname : (updateFields args).get? Field.updatedTick.name = none :=
        get?_updateFields_of_ne args (by decide) (by decide)
      have hget : (i.setAll (updateFields args)).updatedTick = i.updatedTick :=
        (Incident.get_setAll i _ .updatedTick).trans (by rw [hname]; rfl)
      rw [(Incident.updated_eq_ok h).2, Incident.updatedTick_bump, hget]
    · exact (Incident.get_updated h (g := .status) nofun).trans (by rw [← get?_updateFields args (.inl rfl)]; rfl)
    · exact (Incident.get_updated h (g := .notes) nofun).trans (by rw [← get?_updateFields args (.inr rfl)]; rfl)
    · have hname : (updateFields args).get? Field.closeReason.name = none :=
        get?_updateFields_of_ne args (by decide) (by decide)
      exact (Incident.get_updated h (g := .closeReason) nofun).trans (by rw [hname]; rfl)
    · have hname : (updateFields args).get? f.name = none :=
        get?_updateFields_of_ne args (fun e => hs (Field.name_injective e)) fun e => hn (Field.name_injective e)
      rw [Incident.get_updated h ht, hname]
      rfl

/-! ## Write authority -/

variable {β : Type}

/-- What a call with that reply may do to the store: a `file_incident_update` that answers ok rewrites the record it
names, and every other call leaves the store exactly as it was. -/
structure Authorized (c : ToolCall F) (reply : Dict F) (s s' : IncidentStore F) : Prop where
  files : c.name = "file_incident_update" ∧ reply = okReply → ∃ id i i',
    c.args.getD "incident_id" (.str "") = .str id ∧ s.byId.get? id = some i ∧ Refiled c.args c.tick i i' ∧
      s' = { s with byId := s.byId.insert id i' }
  keeps : ¬ (c.name = "file_incident_update" ∧ reply = okReply) → s' = s

/-- **One call** on a store without a log does what it may. -/
theorem authorized_step (tools : DispatchTools β F) (w : World β F) (c : ToolCall F) :
    Authorized c (w.step tools noLog c).1 w.incidents (w.step tools noLog c).2.incidents := by
  have heff := callTool_effect tools noLog w c
  rw [step_eq]
  generalize (callTool tools noLog c.name c.args c.tick).exec w = r at heff ⊢
  cases heff with
  | quiet hr => exact ⟨fun h => absurd h.2 (replyOf_ne_okReply hr), fun _ => rfl⟩
  | asked hname hm => exact ⟨fun h => absurd h.1 hname, fun _ => rfl⟩
  | refiled hname hid hi hi' hs =>
    exact ⟨fun _ => ⟨_, _, _, hid, hi, refiled_spec hi', hs⟩, fun h => absurd ⟨hname, rfl⟩ h⟩
  | dispatched hname hid hi hargs hrat hr =>
    exact ⟨fun h => absurd (h.1.symm.trans hname) (by decide), fun _ => rfl⟩

theorem sameStructure_step (tools : DispatchTools β F) (log : DebugLog β F) (w : World β F) (c : ToolCall F) :
    SameStructure w.incidents (w.step tools log c).2.incidents := by
  rcases step_incidents tools log w c with he | ⟨id, i, i', _, _, hi, hr, he⟩
  · rw [he]
    exact .refl _
  · rw [he]
    refine ⟨OrdDict.keys_insert_of_mem (OrdDict.mem_keys_of_get? hi) i', rfl, fun id' j hj => ?_⟩
    by_cases e : id' = id
    · subst e
      obtain rfl := Option.some.inj (hi.symm.trans hj)
      refine ⟨i', OrdDict.get?_insert_self _ _ _, fun f hf => ?_⟩
      simp only [beliefFields, List.mem_cons, List.not_mem_nil, or_false, not_or] at hf
      exact (refiled_spec hr).frame f hf.1 hf.2.1 hf.2.2.1 hf.2.2.2
    · exact ⟨j, (OrdDict.get?_insert_of_ne _ i' e).trans hj, fun _ _ => rfl⟩

/-- **Write authority of the model**, over every run of tool calls on a store without a log: the structure of the store
stays as it was, and every call of the run does only what it may. -/
theorem write_authority (tools : DispatchTools β F) (w : World β F) (calls : List (ToolCall F)) :
    SameStructure w.incidents (Runs.final (World.step tools noLog) w calls).incidents ∧
    ∀ pre c post u reply u', calls = pre ++ c :: post → u = Runs.final (World.step tools noLog) w pre →
      u.step tools noLog c = (reply, u') → Authorized c reply u.incidents u'.incidents := by
  constructor
  · exact Runs.final_rel (R := fun w w' : World β F => SameStructure w.incidents w'.incidents)
      (fun _ => .refl _) (fun _ _ _ => SameStructure.trans _ _ _) (fun w c _ => sameStructure_step tools noLog w c) w
  · rintro pre c post u reply u' - - hstep
    have h := authorized_step tools u c
    rwa [hstep] at h

end HadrAgent
