import HadrAgent.Lib.FirstOcc
import HadrAgent.Stores.Lifecycle

/-!
# Evidence links

The reports linked to an incident are a history of its `link` calls: the first link of each report, in order
(`Linked`). Every call keeps this (`linked_step`) as long as nobody hands in a list of reports, so along a run every
incident lists the reports linked to it, each once (`reports_of_run`).
-/

namespace HadrAgent

variable {F : Type}

namespace IncidentCall

/-- Calls of `open` and `update` that are not given `report_ids`. -/
def Unlisted : IncidentCall F → Prop
  | openIncident _ _ _ _ fields => fields.get? "report_ids" = none
  | update _ _ fields => fields.get? "report_ids" = none
  | link .. => True
  | close .. => True

instance (c : IncidentCall F) : Decidable c.Unlisted :=
  match c with
  | openIncident _ _ _ _ fields => inferInstanceAs (Decidable (fields.get? "report_ids" = none))
  | update _ _ fields => inferInstanceAs (Decidable (fields.get? "report_ids" = none))
  | link .. => inferInstanceAs (Decidable True)
  | close .. => inferInstanceAs (Decidable True)

/-- The report a call links. -/
def linkedReport : IncidentCall F → Option (Val F)
  | link _ reportId _ => some reportId
  | _ => none

end IncidentCall

variable [Runtime F]

/-- The reports of a list, the first of each. -/
def firstReports (reports : List (Val F)) : List (Val F) := firstOcc Val.tokens reports

/-- A report that is listed already is not listed again. -/
theorem firstReports_append (reports : List (Val F)) (reportId : Val F) :
    firstReports (reports ++ [reportId]) =
      if (firstReports reports).any (Val.same reportId) then firstReports reports
      else firstReports reports ++ [reportId] := by
  have hany : (firstReports reports).any (Val.same reportId) = true ↔ reportId.tokens ∈ reports.map Val.tokens := by
    unfold firstReports
    rw [← @mem_map_firstOcc (Val F) _ _ Val.tokens, List.any_eq_true, List.mem_map]
    constructor
    · rintro ⟨r, hr, hs⟩
      exact ⟨r, hr, (Val.same_iff.mp hs).symm⟩
    · rintro ⟨r, hr, hs⟩
      exact ⟨r, hr, Val.same_iff.mpr hs.symm⟩
  have happ := @firstOcc_append_singleton (Val F) _ _ Val.tokens reports reportId
  by_cases h : reportId.tokens ∈ reports.map Val.tokens
  · rw [if_pos (hany.mpr h)]
    exact happ.trans (if_pos h)
  · rw [if_neg fun e => h (hany.mp e)]
    exact happ.trans (if_neg h)

/-- A link on a record that lists its reports. -/
theorem Incident.linked_of_list {i : Incident F} {ids : List (Val F)} (hi : i.reportIds = .list ids)
    (reportId tick : Val F) :
    i.linked reportId tick =
      .ok ({ i with reportIds := .list (if ids.any (Val.same reportId) then ids else ids ++ [reportId]) }.bump tick)
    := by
  unfold linked
  simp only [hi, Val.isIn, bind, Except.bind]
  cases ids.any (Val.same reportId) <;> rfl

namespace IncidentCall

/-- **One call on a record** that lists its reports: only a link changes the list. -/
theorem onRecord_reportIds {c : IncidentCall F} (hc : c.Unlisted) {i i' : Incident F} {reports : List (Val F)}
    (hi : i.reportIds = .list (firstReports reports)) (h : c.onRecord i = .ok i') :
    i'.reportIds = .list (firstReports (reports ++ c.linkedReport.toList)) := by
  have hsame : ∀ {v : Val F}, v = i.reportIds → c.linkedReport = none →
      v = .list (firstReports (reports ++ c.linkedReport.toList)) := by
    intro v hv hn
    rw [hv, hn, Option.toList_none, List.append_nil, hi]
  cases c with
  | openIncident incidentType coords tick buildingId fields =>
    rw [← Except.ok.inj h]
    exact hsame rfl rfl
  | update incidentId tick fields =>
    have hg := Incident.get_updated (onRecord_update h).2 (g := .reportIds) nofun
    rw [show fields.get? Field.reportIds.name = none from hc] at hg
    exact hsame hg rfl
  | link incidentId reportId tick =>
    have hl : i.linked reportId tick = .ok i' := h
    rw [Incident.linked_of_list hi] at hl
    rw [← Except.ok.inj hl, linkedReport, Option.toList_some, firstReports_append]
    exact Incident.get_bump_of_ne _ tick (g := .reportIds) nofun
  | close incidentId reason tick =>
    rw [← Except.ok.inj h]
    exact hsame (Incident.get_closed reason tick i (g := .reportIds) nofun) rfl

omit [Runtime F] in
/-- A record that a call of `open` made lists no reports. -/
theorem OpenedAs.reportIds {c : IncidentCall F} (hc : c.Unlisted) {id : String} {i : Incident F}
    (h : c.OpenedAs id i) : i.reportIds = .list [] := by
  obtain ⟨incidentType, coords, tick, buildingId, fields, rfl, h⟩ := h.exists_openIncident
  exact h.get_eq (g := .reportIds) hc

end IncidentCall

namespace IncidentStore

/-- The report that a call links to an incident, if it is a `link` of that incident that does not raise. -/
def linkedBy (id : String) (s : IncidentStore F) (c : IncidentCall F) : Option (Val F) :=
  match (s.step c).1 with
  | .ok _ => if c.key = some id then c.linkedReport else none
  | .error _ => none

/-- The reports that a run links to an incident, in order. -/
def linkedAlong (id : String) : IncidentStore F → List (IncidentCall F) → List (Val F)
  | _, [] => []
  | s, c :: calls => (s.linkedBy id c).toList ++ linkedAlong id (s.step c).2 calls

/-- Every incident lists the reports linked to it so far, and nothing is linked to an incident that is not there. -/
structure Linked (s : IncidentStore F) (links : String → List (Val F)) : Prop where
  listed : ∀ id i, s.byId.get? id = some i → i.reportIds = .list (firstReports (links id))
  absent : ∀ id, s.byId.get? id = none → links id = []

theorem linkedBy_of_error {id : String} {s : IncidentStore F} {c : IncidentCall F} {e : Exc}
    (h : (s.step c).1 = .error e) : s.linkedBy id c = none := by
  unfold linkedBy
  rw [h]

theorem linkedBy_of_key_ne {id : String} {c : IncidentCall F} (h : c.key ≠ some id) (s : IncidentStore F) :
    s.linkedBy id c = none := by
  unfold linkedBy
  rw [if_neg h]
  cases (s.step c).1 <;> rfl

theorem linkedBy_of_key {id : String} {s : IncidentStore F} {c : IncidentCall F} {i : Incident F}
    (hk : c.key = some id) (h : (s.step c).1 = .ok i) : s.linkedBy id c = c.linkedReport := by
  unfold linkedBy
  rw [h]
  exact if_pos hk

/-- A record is stored whose list says what is linked to it; nothing else changes. -/
theorem Linked.insert {s s' : IncidentStore F} {links links' : String → List (Val F)} (h : s.Linked links)
    {id : String} {i : Incident F} (hs : s'.byId = s.byId.insert id i)
    (hi : i.reportIds = .list (firstReports (links' id))) (hother : ∀ id', id' ≠ id → links' id' = links id') :
    s'.Linked links' := by
  constructor
  · intro id' i' hi'
    rw [hs, OrdDict.get?_insert] at hi'
    split at hi'
    · next e =>
      rw [← Option.some.inj hi', e, hi]
    · next e =>
      rw [hother id' e]
      exact h.listed id' i' hi'
  · intro id' hi'
    rw [hs, OrdDict.get?_insert] at hi'
    split at hi'
    · cases hi'
    · next e =>
      rw [hother id' e]
      exact h.absent id' hi'

/-- **One call** keeps that. -/
theorem linked_step {s : IncidentStore F} {links links' : String → List (Val F)} (h : s.Linked links) (hm : s.Minted)
    {c : IncidentCall F} (hc : c.Unlisted) (hl : ∀ id, links' id = links id ++ (s.linkedBy id c).toList) :
    (s.step c).2.Linked links' := by
  have hsame : ∀ {id : String}, s.linkedBy id c = none → links' id = links id := by
    intro id hn
    rw [hl, hn, Option.toList_none, List.append_nil]
  have hkeep : (∀ id, s.linkedBy id c = none) → links' = links := fun hn => funext fun id => hsame (hn id)
  rcases s.step_cases c with ⟨e, he⟩ | ⟨_, e, he⟩ | ⟨ho, j, hj, he⟩ | ⟨id', j, j', hk, hj, hr, he⟩
  · rw [hkeep fun _ => linkedBy_of_error (congrArg Prod.fst he), he]
    exact h
  · rw [hkeep fun _ => linkedBy_of_error (congrArg Prod.fst he), he]
    exact ⟨h.listed, h.absent⟩
  · have hkey : ∀ id, c.key ≠ some id := fun id hk => by
      rw [IncidentCall.opens_of_key hk] at ho
      cases ho
    rw [hkeep fun id => linkedBy_of_key_ne (hkey id) s, he]
    refine h.insert rfl ?_ fun _ _ => rfl
    rw [h.absent _ hm.get?_next]
    exact hj.reportIds hc
  · rw [he]
    refine h.insert rfl ?_ fun id e => hsame (linkedBy_of_key_ne (fun hid => e (Option.some.inj (hid.symm.trans hk))) s)
    rw [hl, linkedBy_of_key hk (congrArg Prod.fst he)]
    exact IncidentCall.onRecord_reportIds hc (h.listed id' j hj) hr

theorem linked_final (calls : List (IncidentCall F)) : ∀ {s : IncidentStore F} {links links' : String → List (Val F)},
    s.Linked links → s.Minted → (∀ c ∈ calls, c.Unlisted) →
      (∀ id, links' id = links id ++ linkedAlong id s calls) → (Runs.final step s calls).Linked links' := by
  induction calls with
  | nil =>
    intro s links links' h _ _ hl
    rw [show links' = links from funext fun id => (hl id).trans (List.append_nil _)]
    exact h
  | cons c calls ih =>
    intro s links links' h hm hc hl
    have hstep : (s.step c).2.Linked fun id => links id ++ (s.linkedBy id c).toList :=
      linked_step h hm (hc c List.mem_cons_self) fun _ => rfl
    refine ih hstep (minted_step hm c) (fun b hb => hc b (List.mem_cons_of_mem _ hb)) fun id => ?_
    rw [hl, linkedAlong, List.append_assoc]

/-- **The reports of an incident**, along every run on a new store in which nobody hands in a list of reports: those
that the `link` calls of the run linked to it, in the order of their first link, each once. A link of a report that is
listed changes at most the tick, and every call that does not link a report to the incident leaves its list alone. -/
theorem reports_of_run (calls : List (IncidentCall F)) (hc : ∀ c ∈ calls, c.Unlisted) :
    (∀ id i, (after calls).byId.get? id = some i →
      i.reportIds = .list (firstOcc Val.tokens (linkedAlong id empty calls)) ∧
        ((firstOcc Val.tokens (linkedAlong id empty calls)).map Val.tokens).Nodup) ∧
    (∀ id i ids reportId tick, (after calls).byId.get? id = some i → i.reportIds = .list ids →
      (∃ r ∈ ids, Val.same reportId r = true) →
        ∃ i' s', (link (.str id) reportId tick).exec (after calls) = (.ok i', s') ∧
          s'.byId.get? id = some i' ∧ ∀ f : Field, f ≠ .updatedTick → i'.get f = i.get f) ∧
    ∀ pre c post, calls = pre ++ c :: post → ∀ id i, (after pre).byId.get? id = some i →
      (c.key = some id → c.linkedReport = none) →
        ∃ i', (after (pre ++ [c])).byId.get? id = some i' ∧ i'.reportIds = i.reportIds := by
  have hlinked : ∀ l : List (IncidentCall F), (∀ c ∈ l, c.Unlisted) →
      (after l).Linked fun id => linkedAlong id empty l := by
    intro l hl
    have hempty : (empty : IncidentStore F).Linked fun _ => [] := ⟨nofun, fun _ _ => rfl⟩
    exact linked_final l hempty Minted.empty hl fun _ => rfl
  refine ⟨fun id i hi => ⟨(hlinked calls hc).listed id i hi, nodup_map_firstOcc _⟩, ?_, ?_⟩
  · intro id i ids reportId tick hi hids hr
    have hany : ids.any (Val.same reportId) = true := List.any_eq_true.mpr hr
    have hl := Incident.linked_of_list hids reportId tick
    rw [hany, if_pos rfl, ← hids] at hl
    refine ⟨i.bump tick, _, by rw [exec_link, act_of_lookup hi, hl], OrdDict.get?_insert_self _ _ _, fun f hf => ?_⟩
    exact Incident.get_bump_of_ne i tick hf
  · rintro pre c post rfl id i hi hno
    have hpre : ∀ b ∈ pre, b.Unlisted := fun b hb => hc b (List.mem_append_left _ hb)
    have hstep : (after (pre ++ [c])) = ((after pre).step c).2 := Runs.final_append pre [c] empty
    have hbefore := hlinked pre hpre
    have hnone : linkedBy id (after pre) c = none := by
      unfold linkedBy
      split
      · split
        · next hk => exact hno hk
        · rfl
      · rfl
    have hafter := linked_step hbefore (minted_after pre) (hc c (by simp)) fun _ => rfl
    obtain ⟨i', hi'⟩ : ∃ i', ((after pre).step c).2.byId.get? id = some i' := by
      by_cases hk : c.key = some id
      · exact ⟨_, get?_step_of_key hk hi⟩
      · exact ⟨i, get?_step_of_ne hk (minted_after pre) hi⟩
    refine ⟨i', hstep ▸ hi', ?_⟩
    have hlist := hafter.listed id i' hi'
    rw [hnone, Option.toList_none, List.append_nil] at hlist
    rw [hlist, hbefore.listed id i hi]

/-- Two fires; the second is linked to the first report twice, the second one in between. -/
def relinked : List (IncidentCall Whole) :=
  [.openIncident (.str "fire") (.tuple [.int 0, .int 0]) (.int 1) .none .empty,
    .openIncident (.str "fire") (.tuple [.int 9, .int 9]) (.int 1) .none .empty,
    .link (.str "inc-2") (.str "c-1") (.int 1), .link (.str "inc-1") (.str "c-1") (.int 1),
    .link (.str "inc-2") (.str "c-2") (.int 2), .close (.str "inc-2") (.str "burnt out") (.int 3),
    .link (.str "inc-2") (.str "c-1") (.int 4)]

theorem reports_of_run_relinked : ∃ i, (after relinked).byId.get? "inc-2" = some i ∧
    i.reportIds = .list [.str "c-1", .str "c-2"] :=
  ⟨_, rfl, ((reports_of_run relinked (by decide)).1 "inc-2" _ rfl).1⟩

end IncidentStore

end HadrAgent
