import HadrAgent.Stores.Find

/-!
# No incident is stranded

In every reachable store the open and the closed incidents that `find` returns are together what it returns without a
status, each list in the same order (`find_of_find_none`, `find_isOk_iff`), and closing an incident moves it from one to
the other (`find_close`). `find_partition` has both.
-/

namespace HadrAgent

theorem Whole.lt_strictWeakOn : Listsort.StrictWeakOn (Runtime.lt : Whole → Whole → Bool) fun d => ∃ n, d = .val n where
  asymm := by
    rintro _ _ ⟨m, rfl⟩ ⟨n, rfl⟩ h
    have hmn : m < n := of_decide_eq_true h
    exact decide_eq_false (by omega)
  negTrans := by
    rintro _ _ _ ⟨l, rfl⟩ ⟨m, rfl⟩ ⟨n, rfl⟩ hlm hmn
    have hlm' : ¬ l < m := of_decide_eq_false hlm
    have hmn' : ¬ m < n := of_decide_eq_false hmn
    exact decide_eq_false (by omega)

namespace IncidentStore

variable {F : Type}

/-- Closing an incident replaces its record where it stands. -/
theorem all_close {s : IncidentStore F} (h : s.Minted) {id : String} {i : Incident F} (hi : s.byId.get? id = some i)
    (reason tick : Val F) {s' : IncidentStore F}
    (hs' : s' = { s with byId := s.byId.insert id (i.closed reason tick) }) :
    ∃ l r, s.all = l ++ i :: r ∧ s'.all = l ++ i.closed reason tick :: r ∧
      ∀ j ∈ l ++ r, j.incidentId ≠ i.incidentId := by
  obtain ⟨l, r, hl, hr⟩ := OrdDict.values_insert_of_get? hi (i.closed reason tick)
  have hall : s.all = l.map Prod.snd ++ i :: r.map Prod.snd := by simp [all, OrdDict.values, hl]
  refine ⟨_, _, hall, by simp [all, OrdDict.values, hs', hr], ?_⟩
  have hnodup := h.nodup_incidentId
  rw [hall, List.map_append, List.map_cons, List.nodup_middle, List.nodup_cons, ← List.map_append] at hnodup
  intro j hj e
  exact hnodup.1 (e ▸ List.mem_map_of_mem hj)

variable [Runtime F] {near radius incidentType : Val F}

/-- **A status filter commutes with the query.** -/
theorem find_of_find_none {s : IncidentStore F} (hord : DistancesOrdered near s.all) {status : Val F}
    (hs : status.isNone = false) {all : List (Incident F)} (h : s.find near radius incidentType .none = .ok all) :
    s.find near radius incidentType status = .ok (all.filter fun i => i.status.eq status) := by
  rw [find_eq] at h ⊢
  cases hf : collect near radius incidentType .none s.all with
  | error e => rw [hf] at h; cases h
  | ok found =>
    rw [hf] at h
    rw [collect_of_collect_none hs hf]
    exact nearestFirst_filter hord _ (fun i hi => (collect_sublist hf).subset hi) h

/-- `find` succeeds when its loop and its sort do. -/
theorem find_eq_ok {s : IncidentStore F} {status : Val F} {rs : List (Incident F)}
    (h : s.find near radius incidentType status = .ok rs) :
    ∃ found, collect near radius incidentType status s.all = .ok found ∧ nearestFirst near found = .ok rs := by
  rw [find_eq] at h
  exact Except.bind_eq_ok.mp h

/-- The query without a status raises exactly when one of the two queries does. -/
theorem find_isOk_iff {s : IncidentStore F} (hlegal : ∀ i ∈ s.all, i.status.LegalStatus)
    (hord : DistancesOrdered near s.all) :
    (∃ all, s.find near radius incidentType .none = .ok all) ↔
      (∃ o, s.find near radius incidentType (.str statusOpen) = .ok o) ∧
        ∃ c, s.find near radius incidentType (.str statusClosed) = .ok c := by
  constructor
  · rintro ⟨all, h⟩
    exact ⟨⟨_, find_of_find_none hord rfl h⟩, ⟨_, find_of_find_none hord rfl h⟩⟩
  · rintro ⟨⟨o, ho⟩, ⟨c, hc⟩⟩
    obtain ⟨fo, hfo, hno⟩ := find_eq_ok ho
    obtain ⟨fc, hfc, hnc⟩ := find_eq_ok hc
    obtain ⟨found, hf⟩ := collect_none_of_collect hlegal hfo hfc
    have hloc : near.isNone = false → ∀ i ∈ found, ∃ d, Runtime.dist i.coords near = .ok d := fun hn i hi => by
      have hso := Except.ok.inj ((collect_of_collect_none rfl hf).symm.trans hfo)
      have hsc := Except.ok.inj ((collect_of_collect_none rfl hf).symm.trans hfc)
      rcases hlegal i ((collect_sublist hf).subset hi) with h | h
      · refine nearestFirst_isOk.mp ⟨o, hno⟩ hn i ?_
        rw [← hso]
        exact List.mem_filter.mpr ⟨hi, by rw [h, Val.eq_str]; rfl⟩
      · refine nearestFirst_isOk.mp ⟨c, hnc⟩ hn i ?_
        rw [← hsc]
        exact List.mem_filter.mpr ⟨hi, by rw [h, Val.eq_str]; rfl⟩
    obtain ⟨rs, hrs⟩ := nearestFirst_isOk.mpr hloc
    refine ⟨rs, ?_⟩
    rw [find_eq, hf]
    exact hrs

/-! ## Closing -/

theorem exec_close_of_get? {s : IncidentStore F} {id : String} {i : Incident F} (hi : s.byId.get? id = some i)
    (reason tick : Val F) : (close (.str id) reason tick).exec s =
      (.ok (i.closed reason tick), { s with byId := s.byId.insert id (i.closed reason tick) }) := by
  rw [exec_close, act_of_lookup hi]

/-- A closed incident answers the other filters as before. -/
theorem selects_closed (i : Incident F) (reason tick : Val F) :
    selects near radius incidentType .none (i.closed reason tick) = selects near radius incidentType .none i := by
  have hc : (i.closed reason tick).coords = i.coords := Incident.get_closed reason tick i (g := .coords) nofun
  have ht : (i.closed reason tick).incidentType = i.incidentType :=
    Incident.get_closed reason tick i (g := .incidentType) nofun
  unfold selects
  rw [hc, ht]
  rfl

/-- The loop over a list with the incident `i` in the middle. -/
theorem collect_middle {status : Val F} {l r found : List (Incident F)} {i : Incident F}
    (h : collect near radius incidentType status (l ++ i :: r) = .ok found) :
    ∃ fl keep fr, collect near radius incidentType status l = .ok fl ∧
      selects near radius incidentType status i = .ok keep ∧ collect near radius incidentType status r = .ok fr ∧
      found = fl ++ if keep then i :: fr else fr := by
  obtain ⟨fl, fm, hl, hm, rfl⟩ := collect_append_eq_ok h
  obtain ⟨keep, fr, hk, hr, rfl⟩ := collect_cons_eq_ok hm
  exact ⟨fl, keep, fr, hl, hk, hr, rfl⟩

/-- A filter for the status an incident has. -/
theorem selects_of_status_eq {i : Incident F} {status : String} (h : i.status = .str status) :
    selects near radius incidentType (.str status) i = selects near radius incidentType .none i := by
  rw [selects_of_status rfl, h, Val.eq_str, decide_eq_true rfl, if_pos rfl]

/-- A filter for another status. -/
theorem selects_of_status_ne {i : Incident F} {status status' : String} (h : i.status = .str status)
    (hne : status ≠ status') : selects near radius incidentType (.str status') i = .ok false := by
  rw [selects_of_status rfl, h, Val.eq_str, decide_eq_false hne, if_neg Bool.false_ne_true]

/-- Closing the incident `i` between `l` and `r` moves what the loops collect of it. -/
theorem collect_close {l r fo fc : List (Incident F)} {i : Incident F} (hopen : i.status = .str statusOpen)
    (hfo : collect near radius incidentType (.str statusOpen) (l ++ i :: r) = .ok fo)
    (hfc : collect near radius incidentType (.str statusClosed) (l ++ i :: r) = .ok fc) (reason tick : Val F) :
    ∃ keep fl fr gl gr, selects near radius incidentType .none i = .ok keep ∧
      fo = (fl ++ if keep then i :: fr else fr) ∧ fc = gl ++ gr ∧
      collect near radius incidentType (.str statusOpen) (l ++ i.closed reason tick :: r) = .ok (fl ++ fr) ∧
      collect near radius incidentType (.str statusClosed) (l ++ i.closed reason tick :: r) =
        .ok (gl ++ if keep then i.closed reason tick :: gr else gr) ∧
      (fl.Sublist l ∧ fr.Sublist r) ∧ gl.Sublist l ∧ gr.Sublist r := by
  have hclosed : (i.closed reason tick).status = .str statusClosed :=
    Incident.get_closed reason tick i (g := .status) (by decide)
  obtain ⟨fl, keep, fr, hfl, hk, hfr, rfl⟩ := collect_middle hfo
  obtain ⟨gl, keep', gr, hgl, hk', hgr, rfl⟩ := collect_middle hfc
  rw [selects_of_status_eq hopen] at hk
  rw [selects_of_status_ne hopen (by decide)] at hk'
  obtain rfl := Except.ok.inj hk'
  have hko : selects near radius incidentType (.str statusOpen) (i.closed reason tick) = .ok false :=
    selects_of_status_ne hclosed (by decide)
  have hkc : selects near radius incidentType (.str statusClosed) (i.closed reason tick) = .ok keep := by
    rw [selects_of_status_eq hclosed, selects_closed, hk]
  exact ⟨keep, fl, fr, gl, gr, hk, rfl, rfl, collect_append (collect_cons hko hfr) hfl,
    collect_append (collect_cons hkc hgr) hgl, ⟨collect_sublist hfl, collect_sublist hfr⟩, collect_sublist hgl,
    collect_sublist hgr⟩

/-- Distances are those of the coordinates. -/
theorem distancesOrdered_replace {l r : List (Incident F)} {i i' : Incident F} (hc : i'.coords = i.coords)
    (h : DistancesOrdered near (l ++ i :: r)) : DistancesOrdered near (l ++ i' :: r) := by
  intro hn
  refine (h hn).mono ?_
  rintro d ⟨j, hj, hd⟩
  rw [List.mem_append, List.mem_cons] at hj
  rcases hj with hj | rfl | hj
  · exact ⟨j, List.mem_append_left _ hj, hd⟩
  · exact ⟨i, by simp, hc ▸ hd⟩
  · exact ⟨j, List.mem_append_right _ (List.mem_cons_of_mem _ hj), hd⟩

/-- What closing an open incident does to the two queries: it moves, or both stay as they were. -/
theorem find_close {s : IncidentStore F} (h : s.Minted) (hord : DistancesOrdered near s.all) {id : String}
    {i : Incident F} (hi : s.byId.get? id = some i) (hopen : i.status = .str statusOpen) {o c : List (Incident F)}
    (ho : s.find near radius incidentType (.str statusOpen) = .ok o)
    (hc : s.find near radius incidentType (.str statusClosed) = .ok c) (reason tick : Val F) {s' : IncidentStore F}
    (hs' : s' = { s with byId := s.byId.insert id (i.closed reason tick) }) :
    if selects near radius incidentType .none i = .ok true then
      (∃ a b, o = a ++ i :: b ∧ s'.find near radius incidentType (.str statusOpen) = .ok (a ++ b)) ∧
        ∃ a b, c = a ++ b ∧
          s'.find near radius incidentType (.str statusClosed) = .ok (a ++ i.closed reason tick :: b)
    else
      s'.find near radius incidentType (.str statusOpen) = .ok o ∧
        s'.find near radius incidentType (.str statusClosed) = .ok c := by
  have hcoords : (i.closed reason tick).coords = i.coords :=
    Incident.get_closed reason tick i (g := .coords) (by decide)
  have hid : (i.closed reason tick).incidentId = i.incidentId :=
    Incident.get_closed reason tick i (g := .incidentId) (by decide)
  obtain ⟨l, r, hall, hall', hne⟩ := all_close h hi reason tick hs'
  obtain ⟨fo, hfo, hno⟩ := find_eq_ok ho
  obtain ⟨fc, hfc, hnc⟩ := find_eq_ok hc
  rw [hall] at hfo hfc hord
  obtain ⟨keep, fl, fr, gl, gr, hk, rfl, rfl, hfo', hfc', ⟨hfl, hfr⟩, hgl, hgr⟩ :=
    collect_close hopen hfo hfc reason tick
  rw [find_eq, find_eq, hall', hfo', hfc', hk]
  cases keep with
  | false =>
    rw [if_neg (by simp)]
    exact ⟨hno, hnc⟩
  | true =>
    rw [if_pos rfl]
    constructor
    · exact nearestFirst_append_cons hord (fun j hj => (hfl.append (hfr.cons_cons i)).subset hj)
        (fun j hj => hne j ((hfl.append hfr).subset hj)) hno
    · refine nearestFirst_insert (distancesOrdered_replace hcoords hord)
        (fun j hj => (hgl.append (hgr.cons_cons _)).subset hj)
        (fun j hj => hid ▸ hne j ((hgl.append hgr).subset hj)) ?_ hnc
      intro hn
      rw [hcoords]
      exact nearestFirst_isOk.mp ⟨o, hno⟩ hn i (by simp)

/-- The queries for open and for closed incidents partition the query without a status. -/
structure Partitions (s : IncidentStore F) (near radius incidentType : Val F) : Prop where
  /-- The query without a status raises exactly when one of the two does. -/
  isOk : (∃ all, s.find near radius incidentType .none = .ok all) ↔
    (∃ o, s.find near radius incidentType (.str statusOpen) = .ok o) ∧
      ∃ c, s.find near radius incidentType (.str statusClosed) = .ok c
  /-- Its result is made of theirs, in the same order, each incident once and in the one of its status. -/
  parts : ∀ all o c, s.find near radius incidentType .none = .ok all →
    s.find near radius incidentType (.str statusOpen) = .ok o →
    s.find near radius incidentType (.str statusClosed) = .ok c →
      (all.map Incident.incidentId).Nodup ∧ all.Perm (o ++ c) ∧ o.Sublist all ∧ c.Sublist all ∧
        (∀ i ∈ o, i.status = .str statusOpen) ∧ ∀ i ∈ c, i.status = .str statusClosed
  /-- Closing an open incident moves it, if it matches the other filters, and leaves the order of the others. -/
  closing : ∀ id i reason tick o c, s.byId.get? id = some i → i.status = .str statusOpen →
    s.find near radius incidentType (.str statusOpen) = .ok o →
    s.find near radius incidentType (.str statusClosed) = .ok c →
      ∃ s', (close (.str id) reason tick).exec s = (.ok (i.closed reason tick), s') ∧
        if selects near radius incidentType .none i = .ok true then
          (∃ a b, o = a ++ i :: b ∧ s'.find near radius incidentType (.str statusOpen) = .ok (a ++ b)) ∧
            ∃ a b, c = a ++ b ∧
              s'.find near radius incidentType (.str statusClosed) = .ok (a ++ i.closed reason tick :: b)
        else
          s'.find near radius incidentType (.str statusOpen) = .ok o ∧
            s'.find near radius incidentType (.str statusClosed) = .ok c

/-- **No incident is stranded**: every reachable store partitions every query whose distances are totally ordered. -/
theorem find_partition (calls : List (IncidentCall F)) (near radius incidentType : Val F)
    (hord : DistancesOrdered near (after calls).all) : Partitions (after calls) near radius incidentType := by
  have hm := minted_after calls
  have hlegal : ∀ i ∈ (after calls).all, i.status.LegalStatus := fun i hi => by
    obtain ⟨id, hid⟩ := OrdDict.exists_get?_of_mem_values hi
    exact legalStatus_after calls id i hid
  refine ⟨find_isOk_iff hlegal hord, fun all o c h ho hc => ?_, fun id i reason tick o c hi hopen ho hc => ?_⟩
  · obtain rfl := Except.ok.inj (ho.symm.trans (find_of_find_none hord rfl h))
    obtain rfl := Except.ok.inj (hc.symm.trans (find_of_find_none hord rfl h))
    obtain ⟨found, hf, hn⟩ := find_eq_ok h
    have hperm := nearestFirst_perm hn
    have hstatus : ∀ i ∈ all, i.status.LegalStatus := fun i hi =>
      hlegal i ((collect_sublist hf).subset (hperm.mem_iff.mp hi))
    refine ⟨?_, ?_, List.filter_sublist, List.filter_sublist, fun i hi => ?_, fun i hi => ?_⟩
    · exact ((hperm.map _).nodup_iff).mpr (hm.nodup_incidentId.sublist ((collect_sublist hf).map _))
    · have hnot : all.filter (fun i => i.status.eq (.str statusClosed)) =
          all.filter fun i => !i.status.eq (.str statusOpen) := List.filter_congr fun i hi => by
        rcases hstatus i hi with e | e <;> rw [e, Val.eq_str, Val.eq_str] <;> decide
      rw [hnot]
      exact (List.filter_append_perm _ all).symm
    · obtain ⟨hi, he⟩ := List.mem_filter.mp hi
      rcases hstatus i hi with e | e
      · exact e
      · rw [e, Val.eq_str] at he
        exact absurd he (by decide)
    · obtain ⟨hi, he⟩ := List.mem_filter.mp hi
      rcases hstatus i hi with e | e
      · rw [e, Val.eq_str] at he
        exact absurd he (by decide)
      · exact e
  · exact ⟨_, exec_close_of_get? hi reason tick, find_close hm hord hi hopen ho hc reason tick rfl⟩

/-- Two fires, the farther one opened first. -/
def twoFires : List (IncidentCall Whole) :=
  [.openIncident (.str "fire") (.tuple [.int 3, .int 4]) (.int 1) .none .empty,
    .openIncident (.str "fire") (.tuple [.int 0, .int 1]) (.int 2) .none .empty,
    .close (.str "inc-1") (.str "extinguished") (.int 3)]

theorem distancesOrdered_twoFires : DistancesOrdered (.tuple [.int 0, .int 0]) (after twoFires).all := by
  intro _
  refine Whole.lt_strictWeakOn.mono ?_
  rintro d ⟨i, hi, hd⟩
  have hall : (after twoFires).all.map Incident.coords = [.tuple [.int 3, .int 4], .tuple [.int 0, .int 1]] := rfl
  have hc := hall ▸ List.mem_map_of_mem (f := Incident.coords) hi
  rcases List.mem_cons.mp hc with e | e
  · rw [e] at hd
    exact ⟨_, (Except.ok.inj hd).symm⟩
  · rw [List.mem_singleton.mp e] at hd
    exact ⟨_, (Except.ok.inj hd).symm⟩

theorem find_partition_twoFires :
    Partitions (after twoFires) (.tuple [.int 0, .int 0]) (.int 10) (.str "fire") :=
  find_partition twoFires _ _ _ distancesOrdered_twoFires

end IncidentStore

end HadrAgent
