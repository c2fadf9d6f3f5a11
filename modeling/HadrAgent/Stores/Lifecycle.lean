import HadrAgent.Stores.Independence

/-!
# Status and close reason

- `legalStatus_after`: whatever is called, every record is `"open"` or `"closed"`;
- `close_reason_after`: in runs that hand in close reasons through `close` only, a record has a close reason exactly
  when a `close` reached it, and its status is the one written last. The two go together as long as no `update` writes a
  status.
-/

namespace HadrAgent

variable {F : Type}

namespace IncidentCall

/-- Calls that hand in a close reason through `close` only, and update status and notes only. -/
def Plain : IncidentCall F → Prop
  | openIncident _ _ _ _ fields => fields.get? "close_reason" = none
  | update _ _ fields => ∀ name ∈ fields.keys, name = "status" ∨ name = "notes"
  | link .. => True
  | close _ reason _ => reason.isNone = false

instance (c : IncidentCall F) : Decidable c.Plain :=
  match c with
  | openIncident _ _ _ _ fields => inferInstanceAs (Decidable (fields.get? "close_reason" = none))
  | update _ _ fields => inferInstanceAs (Decidable (∀ name ∈ fields.keys, name = "status" ∨ name = "notes"))
  | link .. => inferInstanceAs (Decidable True)
  | close _ reason _ => inferInstanceAs (Decidable (reason.isNone = false))

/-- Whether the call is one of `close`. -/
def closes : IncidentCall F → Bool
  | close .. => true
  | _ => false

/-- The status a call writes into the record it addresses. -/
def statusWritten : IncidentCall F → Option String
  | update _ _ fields => match fields.get? "status" with
    | some (.str status) => if status = statusOpen ∨ status = statusClosed then some status else none
    | _ => none
  | close .. => some statusClosed
  | _ => none

theorem statusWritten_of_closes {c : IncidentCall F} (h : c.closes = true) : c.statusWritten = some statusClosed := by
  cases c with
  | close incidentId reason tick => rfl
  | _ => cases h

theorem statusWritten_update_of_illegal {incidentId tick : Val F} {fields : Dict F} {status : Val F}
    (hf : fields.get? "status" = some status) (hs : ¬ status.LegalStatus) :
    (update incidentId tick fields).statusWritten = none := by
  simp only [statusWritten, hf]
  cases status with
  | str status =>
    refine if_neg fun h => hs ?_
    rcases h with rfl | rfl
    · exact .inl rfl
    · exact .inr rfl
  | _ => rfl

theorem statusWritten_update_of_legal {incidentId tick : Val F} {fields : Dict F} {status : Val F}
    (hf : fields.get? "status" = some status) (hs : status.LegalStatus) :
    (update incidentId tick fields).statusWritten.map Val.str = some status := by
  simp only [statusWritten, hf]
  rcases hs with rfl | rfl <;> rfl

variable [Runtime F]

/-- No call writes a status outside the vocabulary. -/
theorem onRecord_legalStatus {c : IncidentCall F} {i i' : Incident F} (h : c.onRecord i = .ok i')
    (hi : i.status.LegalStatus) : i'.status.LegalStatus := by
  cases c with
  | openIncident incidentType coords tick buildingId fields => exact Except.ok.inj h ▸ hi
  | update incidentId tick fields =>
    have hu := (onRecord_update h).2
    have hget : i'.status = (fields.get? "status").getD i.status := Incident.get_updated hu (g := .status) nofun
    rw [hget]
    cases hf : fields.get? "status" with
    | none => exact hi
    | some status => exact (Incident.updated_eq_ok hu).1 status hf
  | link incidentId reportId tick =>
    have hget : i'.status = i.status := Incident.get_linked h (g := .status) nofun nofun
    rwa [hget]
  | close incidentId reason tick =>
    obtain rfl := Except.ok.inj h
    exact .inr (Incident.get_closed reason tick i (g := .status) (by decide))

/-! ## Plain calls -/

/-- A plain `update` with an illegal status raises. -/
theorem onCell_update_of_illegal {incidentId tick : Val F} {fields : Dict F} {status : Val F}
    (hf : fields.get? "status" = some status) (hs : ¬ status.LegalStatus) (i : Incident F) :
    ((update incidentId tick fields).onCell i).2 = i := by
  unfold onCell
  cases hr : (update incidentId tick fields).onRecord i with
  | error e => rfl
  | ok i' => exact absurd ((Incident.updated_eq_ok (onRecord_update hr).2).1 status hf) hs

/-- A plain `update` with a legal status or none writes its fields. -/
theorem onCell_update_of_legal {incidentId tick : Val F} {fields : Dict F} (h : (update incidentId tick fields).Plain)
    (hs : ∀ status, fields.get? "status" = some status → status.LegalStatus) (i : Incident F) :
    ((update incidentId tick fields).onCell i).2 = (i.setAll fields).bump tick := by
  have hown : ∀ name ∈ fields.keys, name ∉ updateParams := fun name hn => by
    rcases h name hn with rfl | rfl <;> decide
  have hnames : ∀ name ∈ fields.keys, name ∈ fieldNames := fun name hn => by
    rcases h name hn with rfl | rfl <;> decide
  simp only [onCell, onRecord, bindOwn_of_notMem hown, Incident.updated_of_known hnames hs]

/-- What a plain call does to the status: it writes one, or keeps it. -/
theorem onCell_status {c : IncidentCall F} (hc : c.Plain) (i : Incident F) :
    (c.onCell i).2.status = (c.statusWritten.map Val.str).getD i.status := by
  cases c with
  | openIncident incidentType coords tick buildingId fields => rfl
  | update incidentId tick fields =>
    by_cases hs : ∀ status, fields.get? "status" = some status → status.LegalStatus
    · have hget : ((i.setAll fields).bump tick).status = (fields.get? "status").getD i.status :=
        (Incident.get_bump_of_ne _ tick (g := .status) (by decide)).trans (Incident.get_setAll i fields .status)
      rw [onCell_update_of_legal hc hs, hget]
      cases hf : fields.get? "status" with
      | none => simp only [statusWritten, hf, Option.map_none, Option.getD_none]
      | some status => rw [statusWritten_update_of_legal hf (hs status hf)]
    · obtain ⟨status, hf, hl⟩ : ∃ status, fields.get? "status" = some status ∧ ¬ status.LegalStatus := by
        simpa using hs
      rw [onCell_update_of_illegal hf hl, statusWritten_update_of_illegal hf hl]
      rfl
  | link incidentId reportId tick =>
    unfold onCell
    cases hr : (link incidentId reportId tick).onRecord i with
    | error e => rfl
    | ok i' => exact Incident.get_linked hr (g := .status) (by decide) (by decide)
  | close incidentId reason tick => exact Incident.get_closed reason tick i (g := .status) (by decide)

/-- What a plain call does to the close reason: `close` gives one, the others keep it. -/
theorem onCell_closeReason {c : IncidentCall F} (hc : c.Plain) (i : Incident F) :
    (c.onCell i).2.closeReason.isNone = (!c.closes && i.closeReason.isNone) := by
  cases c with
  | openIncident incidentType coords tick buildingId fields => rfl
  | update incidentId tick fields =>
    by_cases hs : ∀ status, fields.get? "status" = some status → status.LegalStatus
    · have hn : fields.get? Field.closeReason.name = none := OrdDict.get?_eq_none.mpr fun hm => by
        rcases hc _ hm with h | h <;> exact absurd h (by decide)
      have hget : ((i.setAll fields).bump tick).closeReason = i.closeReason :=
        (Incident.get_bump_of_ne _ tick (g := .closeReason) (by decide)).trans
          ((Incident.get_setAll i fields .closeReason).trans (by rw [hn]; rfl))
      rw [onCell_update_of_legal hc hs, hget]
      rfl
    · obtain ⟨status, hf, hl⟩ : ∃ status, fields.get? "status" = some status ∧ ¬ status.LegalStatus := by
        simpa using hs
      rw [onCell_update_of_illegal hf hl]
      rfl
  | link incidentId reportId tick =>
    unfold onCell
    cases hr : (link incidentId reportId tick).onRecord i with
    | error e => rfl
    | ok i' =>
      have hget : i'.closeReason = i.closeReason :=
        Incident.get_linked hr (g := .closeReason) (by decide) (by decide)
      exact congrArg Val.isNone hget
  | close incidentId reason tick =>
    have hget : (i.closed reason tick).closeReason = reason :=
      Incident.get_closed reason tick i (g := .closeReason) (by decide)
    exact (congrArg Val.isNone hget).trans hc

end IncidentCall

namespace IncidentStore

variable [Runtime F]

/-- **The status vocabulary is closed**: every record of a reachable store is open or closed. -/
theorem legalStatus_after (calls : List (IncidentCall F)) :
    ∀ id i, (after calls).byId.get? id = some i → i.status.LegalStatus :=
  records_final (P := fun i => i.status.LegalStatus) (fun _ _ _ _ h => .inl (IncidentCall.OpenedAs.status_eq h))
    (fun _ _ _ _ h => IncidentCall.onRecord_legalStatus h) nofun

/-! ## Plain runs -/

/-- The status of a record after the calls addressed to it: the one written last, or the one it had. -/
theorem fold_status {id : String} {calls : List (IncidentCall F)} (h : ∀ c ∈ calls, c.Plain) (i : Incident F) :
    (fold id calls i).status =
      (((callsOn id calls).reverse.findSome? IncidentCall.statusWritten).map Val.str).getD i.status := by
  induction calls generalizing i with
  | nil => rfl
  | cons c calls ih =>
    have ih := ih (fun b hb => h b (List.mem_cons_of_mem _ hb))
    by_cases hk : c.key = some id
    · rw [fold_cons_of_key hk, ih, IncidentCall.onCell_status (h c List.mem_cons_self), callsOn_cons_of_key hk,
        List.reverse_cons, List.findSome?_append]
      cases (callsOn id calls).reverse.findSome? IncidentCall.statusWritten with
      | none => cases hw : c.statusWritten <;> simp [hw]
      | some status => rfl
    · rw [fold_cons_of_ne hk, ih, callsOn_cons_of_ne hk]

/-- A record has a close reason after the calls addressed to it when one was `close`, or it had one. -/
theorem fold_closeReason {id : String} {calls : List (IncidentCall F)} (h : ∀ c ∈ calls, c.Plain) (i : Incident F) :
    (fold id calls i).closeReason.isNone =
      (!(callsOn id calls).any IncidentCall.closes && i.closeReason.isNone) := by
  induction calls generalizing i with
  | nil => rfl
  | cons c calls ih =>
    have ih := ih (fun b hb => h b (List.mem_cons_of_mem _ hb))
    by_cases hk : c.key = some id
    · rw [fold_cons_of_key hk, ih, IncidentCall.onCell_closeReason (h c List.mem_cons_self), callsOn_cons_of_key hk,
        List.any_cons, Bool.not_or, ← Bool.and_assoc, Bool.and_comm (!c.closes)]
    · rw [fold_cons_of_ne hk, ih, callsOn_cons_of_ne hk]

/-- What the calls addressed to a record since its opening say about it. -/
structure Retired (own : List (IncidentCall F)) (i : Incident F) : Prop where
  /-- It has a close reason exactly when it was closed with `close`. -/
  reason : i.closeReason.isNone = false ↔ ∃ c ∈ own, c.closes = true
  /-- Its status is the one written last. -/
  status : i.status = .str statusClosed ↔ own.reverse.findSome? IncidentCall.statusWritten = some statusClosed
  /-- Status and reason go together when only `close` wrote the status. -/
  coherent : (∀ c ∈ own, c.closes = false → c.statusWritten = none) →
    (i.status = .str statusClosed ↔ i.closeReason.isNone = false)

theorem retired_fold {id : String} {calls : List (IncidentCall F)} (h : ∀ c ∈ calls, c.Plain) {i : Incident F}
    (hs : i.status = .str statusOpen) (hr : i.closeReason = .none) : Retired (callsOn id calls) (fold id calls i) := by
  have hreason : (fold id calls i).closeReason.isNone = false ↔ ∃ c ∈ callsOn id calls, c.closes = true := by
    rw [fold_closeReason h, hr]
    simp [Val.isNone]
  have hstatus : (fold id calls i).status = .str statusClosed ↔
      (callsOn id calls).reverse.findSome? IncidentCall.statusWritten = some statusClosed := by
    rw [fold_status h, hs]
    cases (callsOn id calls).reverse.findSome? IncidentCall.statusWritten with
    | none => exact ⟨fun e => absurd (Val.str.inj e) (by decide), nofun⟩
    | some status => simp
  refine ⟨hreason, hstatus, fun hw => ?_⟩
  rw [hreason, hstatus]
  constructor
  · intro hf
    obtain ⟨c, hc, hcw⟩ := List.exists_of_findSome?_eq_some hf
    refine ⟨c, List.mem_reverse.mp hc, ?_⟩
    by_contra hn
    rw [hw c (List.mem_reverse.mp hc) (by simpa using hn)] at hcw
    cases hcw
  · rintro ⟨c, hc, hcl⟩
    cases hf : (callsOn id calls).reverse.findSome? IncidentCall.statusWritten with
    | none =>
      have hcw := List.findSome?_eq_none_iff.mp hf c (List.mem_reverse.mpr hc)
      rw [IncidentCall.statusWritten_of_closes hcl] at hcw
      cases hcw
    | some status =>
      obtain ⟨b, hb, hbw⟩ := List.exists_of_findSome?_eq_some hf
      have hbc : b.closes = true := by
        by_contra hn
        rw [hw b (List.mem_reverse.mp hb) (by simpa using hn)] at hbw
        cases hbw
      rw [← hbw, IncidentCall.statusWritten_of_closes hbc]

/-- **Status and close reason along plain runs.** Every record of the store was opened by a call of the run; since then
it has a close reason exactly when it was closed with `close`, its status is the one written last, and the two go
together when no `update` wrote a status. -/
theorem close_reason_after {calls : List (IncidentCall F)} (h : ∀ c ∈ calls, c.Plain) {id : String} {i : Incident F}
    (hi : (after calls).byId.get? id = some i) :
    ∃ pre c post i₀, calls = pre ++ c :: post ∧ c.opens = true ∧ ((after pre).step c).1 = .ok i₀ ∧
      i₀.incidentId = .str id ∧ Retired (callsOn id post) i := by
  rcases get?_of_get?_final calls hi with ⟨j, hj⟩ | ⟨pre, c, post, i₀, rfl, ho, hr, hid⟩
  · cases hj
  · have hpost : ∀ b ∈ post, b.Plain := fun b hb => h b (by simp [hb])
    have hc : c.Plain := h c (by simp)
    obtain ⟨id', hid', hfin⟩ := get?_final_of_opened (minted_after pre) ho hr post
    obtain rfl : id = id' := Val.str.inj (hid.symm.trans hid')
    have hi' : i = fold id post i₀ := by
      rw [after, Runs.final_append] at hi
      exact Option.some.inj (hi.symm.trans hfin)
    obtain ⟨_, _, _, _, _, rfl, hopened⟩ := (openedAs_of_step ho hr).exists_openIncident
    have hreason : i₀.closeReason = .none := hopened.get_eq (g := .closeReason) hc
    exact ⟨pre, _, post, i₀, rfl, ho, hr, hid, hi' ▸ retired_fold hpost hopened.status_eq hreason⟩

/-- Opened, then marked closed by `update`. -/
def markedClosed : List (IncidentCall Whole) :=
  [.openIncident (.str "fire") (.tuple [.int 0, .int 0]) (.int 1) .none .empty,
    .update (.str "inc-1") (.int 2) (.ofList [("status", .str "closed")])]

/-- Opened, closed, and reopened. -/
def reopened : List (IncidentCall Whole) :=
  [.openIncident (.str "fire") (.tuple [.int 0, .int 0]) (.int 1) .none .empty,
    .close (.str "inc-1") (.str "extinguished") (.int 2),
    .update (.str "inc-1") (.int 3) (.ofList [("status", .str "open")])]

theorem close_reason_after_reopened :
    ∃ i, (after reopened).byId.get? "inc-1" = some i ∧ ∃ pre c post i₀, reopened = pre ++ c :: post ∧ c.opens = true ∧
      ((after pre).step c).1 = .ok i₀ ∧ i₀.incidentId = .str "inc-1" ∧ Retired (callsOn "inc-1" post) i :=
  ⟨_, rfl, @close_reason_after Whole _ reopened (by decide) "inc-1" _ rfl⟩

/-- `update` can close an incident without a reason, and reopen one that keeps its reason. -/
theorem status_apart_from_reason :
    ((∀ c ∈ markedClosed, c.Plain) ∧ ∃ i, (after markedClosed).byId.get? "inc-1" = some i ∧
      i.status = .str statusClosed ∧ i.closeReason = .none) ∧
    (∀ c ∈ reopened, c.Plain) ∧ ∃ i, (after reopened).byId.get? "inc-1" = some i ∧
      i.status = .str statusOpen ∧ i.closeReason = .str "extinguished" :=
  ⟨⟨by decide, _, rfl, rfl, rfl⟩, by decide, _, rfl, rfl, rfl⟩

end IncidentStore

end HadrAgent
