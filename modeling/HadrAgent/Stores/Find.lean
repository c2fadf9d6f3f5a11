import HadrAgent.Stores.Lifecycle

/-!
# Queries by status

`find` collects the matching incidents in the order of their opening and sorts them by distance. The sort is stable, so
a status filter commutes with it: no incident is stranded between the open and the closed ones (`find_partition`), and
closing one moves it from the former to the latter (`find_partition`, last part).
-/

namespace HadrAgent

variable {F : Type} [Runtime F]

namespace Val

theorem eq_str (a b : String) : (Val.str a : Val F).eq (.str b) = decide (a = b) := by
  rw [Bool.eq_iff_iff, eq_str_iff, str.injEq, decide_eq_true_iff]

end Val

/-- The distances to the incidents of `l` are totally ordered. -/
def DistancesOrdered (near : Val F) (l : List (Incident F)) : Prop :=
  near.isNone = false →
    Listsort.StrictWeakOn (Runtime.lt : F → F → Bool) fun d => ∃ i ∈ l, Runtime.dist i.coords near = .ok d

namespace IncidentStore

variable {near radius incidentType status : Val F}

/-! ## The loop -/

/-- A status filter is asked first. -/
theorem selects_of_status (hs : status.isNone = false) (i : Incident F) :
    selects near radius incidentType status i =
      if i.status.eq status then selects near radius incidentType .none i else .ok false := by
  unfold selects
  rw [hs]
  cases i.status.eq status <;> rfl

theorem collect_cons_eq_ok {i : Incident F} {l found : List (Incident F)}
    (h : collect near radius incidentType status (i :: l) = .ok found) :
    ∃ keep rest, selects near radius incidentType status i = .ok keep ∧
      collect near radius incidentType status l = .ok rest ∧ found = if keep then i :: rest else rest := by
  obtain ⟨keep, hk, h⟩ := Except.bind_eq_ok.mp h
  obtain ⟨rest, hr, h⟩ := Except.bind_eq_ok.mp h
  exact ⟨keep, rest, hk, hr, (Except.ok.inj h).symm⟩

theorem collect_cons {i : Incident F} {l rest : List (Incident F)} {keep : Bool}
    (hk : selects near radius incidentType status i = .ok keep)
    (hr : collect near radius incidentType status l = .ok rest) :
    collect near radius incidentType status (i :: l) = .ok (if keep then i :: rest else rest) := by
  unfold collect
  rw [hk, hr]
  rfl

theorem collect_append_eq_ok {m : List (Incident F)} : ∀ {l found : List (Incident F)},
    collect near radius incidentType status (l ++ m) = .ok found →
      ∃ fl fm, collect near radius incidentType status l = .ok fl ∧
        collect near radius incidentType status m = .ok fm ∧ found = fl ++ fm
  | [], found, h => ⟨[], found, rfl, h, rfl⟩
  | i :: l, found, h => by
    obtain ⟨keep, rest, hk, hr, rfl⟩ := collect_cons_eq_ok h
    obtain ⟨fl, fm, hl, hm, rfl⟩ := collect_append_eq_ok hr
    refine ⟨_, fm, collect_cons hk hl, hm, ?_⟩
    cases keep <;> rfl

theorem collect_append {m fm : List (Incident F)} (hm : collect near radius incidentType status m = .ok fm) :
    ∀ {l fl : List (Incident F)}, collect near radius incidentType status l = .ok fl →
      collect near radius incidentType status (l ++ m) = .ok (fl ++ fm)
  | [], fl, h => by
    obtain rfl := Except.ok.inj h
    exact hm
  | i :: l, fl, h => by
    obtain ⟨keep, rest, hk, hr, rfl⟩ := collect_cons_eq_ok h
    rw [List.cons_append, collect_cons hk (collect_append hm hr)]
    cases keep <;> rfl

/-- What is collected stands in the store in the same order. -/
theorem collect_sublist : ∀ {l found : List (Incident F)},
    collect near radius incidentType status l = .ok found → found.Sublist l
  | [], found, h => by
    obtain rfl := Except.ok.inj h
    exact List.Sublist.refl _
  | i :: l, found, h => by
    obtain ⟨keep, rest, _, hr, rfl⟩ := collect_cons_eq_ok h
    cases keep with
    | true => exact (collect_sublist hr).cons_cons i
    | false => exact (collect_sublist hr).cons i

/-- A status filter selects among the incidents collected without one. -/
theorem collect_of_collect_none (hs : status.isNone = false) : ∀ {l found : List (Incident F)},
    collect near radius incidentType .none l = .ok found →
      collect near radius incidentType status l = .ok (found.filter fun i => i.status.eq status)
  | [], found, h => by
    obtain rfl := Except.ok.inj h
    rfl
  | i :: l, found, h => by
    obtain ⟨keep, rest, hk, hr, rfl⟩ := collect_cons_eq_ok h
    have hsel : selects near radius incidentType status i = _ := selects_of_status hs i
    have ih := collect_of_collect_none hs hr
    cases he : i.status.eq status with
    | true =>
      rw [he, if_pos rfl, hk] at hsel
      rw [collect_cons hsel ih]
      cases keep <;> simp [he]
    | false =>
      rw [he, if_neg Bool.false_ne_true] at hsel
      rw [collect_cons hsel ih]
      cases keep <;> simp [he]

/-- Where both status filters collect, so does the query without one. -/
theorem collect_none_of_collect : ∀ {l o c : List (Incident F)}, (∀ i ∈ l, i.status.LegalStatus) →
    collect near radius incidentType (.str statusOpen) l = .ok o →
    collect near radius incidentType (.str statusClosed) l = .ok c →
      ∃ found, collect near radius incidentType .none l = .ok found
  | [], _, _, _, _, _ => ⟨[], rfl⟩
  | i :: l, o, c, hl, ho, hc => by
    obtain ⟨ko, ro, hko, hro, rfl⟩ := collect_cons_eq_ok ho
    obtain ⟨kc, rc, hkc, hrc, rfl⟩ := collect_cons_eq_ok hc
    obtain ⟨found, hf⟩ := collect_none_of_collect (fun j hj => hl j (List.mem_cons_of_mem _ hj)) hro hrc
    rcases hl i List.mem_cons_self with h | h
    · rw [selects_of_status rfl, h, Val.eq_str, decide_eq_true rfl, if_pos rfl] at hko
      exact ⟨_, collect_cons hko hf⟩
    · rw [selects_of_status rfl, h, Val.eq_str, decide_eq_true rfl, if_pos rfl] at hkc
      exact ⟨_, collect_cons hkc hf⟩

/-! ## The sort -/

/-- The end of `find`: the incidents found, the nearest first. -/
def nearestFirst (near : Val F) (found : List (Incident F)) : Except Exc (List (Incident F)) :=
  if near.isNone then .ok found
  else do
    let keyed ← distances near found
    return (Listsort.sort nearer keyed).map Prod.snd

theorem find_eq (s : IncidentStore F) (near radius incidentType status : Val F) :
    s.find near radius incidentType status =
      (collect near radius incidentType status s.all >>= nearestFirst near) := by
  unfold find nearestFirst
  cases collect near radius incidentType status s.all with
  | error e => rfl
  | ok found => cases near.isNone <;> rfl

theorem distances_cons_eq_ok {i : Incident F} {l : List (Incident F)} {ds : List (F × Incident F)}
    (h : distances near (i :: l) = .ok ds) :
    ∃ d rest, Runtime.dist i.coords near = .ok d ∧ distances near l = .ok rest ∧ ds = (d, i) :: rest := by
  obtain ⟨d, hd, h⟩ := Except.bind_eq_ok.mp h
  obtain ⟨rest, hr, h⟩ := Except.bind_eq_ok.mp h
  exact ⟨d, rest, hd, hr, (Except.ok.inj h).symm⟩

theorem distances_cons {i : Incident F} {l : List (Incident F)} {d : F} {rest : List (F × Incident F)}
    (hd : Runtime.dist i.coords near = .ok d) (hr : distances near l = .ok rest) :
    distances near (i :: l) = .ok ((d, i) :: rest) := by
  unfold distances
  rw [hd, hr]
  rfl

/-- The keyed list: every incident with its distance. -/
theorem distances_spec : ∀ {l : List (Incident F)} {ds : List (F × Incident F)}, distances near l = .ok ds →
    ds.map Prod.snd = l ∧ ∀ p ∈ ds, p.2 ∈ l ∧ Runtime.dist p.2.coords near = .ok p.1
  | [], ds, h => by
    obtain rfl := Except.ok.inj h
    exact ⟨rfl, nofun⟩
  | i :: l, ds, h => by
    obtain ⟨d, rest, hd, hr, rfl⟩ := distances_cons_eq_ok h
    obtain ⟨hm, hall⟩ := distances_spec hr
    refine ⟨by rw [List.map_cons, hm], fun p hp => ?_⟩
    rcases List.mem_cons.mp hp with rfl | hp
    · exact ⟨List.mem_cons_self, hd⟩
    · exact ⟨List.mem_cons_of_mem _ (hall p hp).1, (hall p hp).2⟩

theorem distances_isOk : ∀ {l : List (Incident F)},
    (∃ ds, distances near l = .ok ds) ↔ ∀ i ∈ l, ∃ d, Runtime.dist i.coords near = .ok d
  | [] => ⟨fun _ => nofun, fun _ => ⟨[], rfl⟩⟩
  | i :: l => by
    constructor
    · rintro ⟨ds, h⟩ j hj
      obtain ⟨d, rest, hd, hr, -⟩ := distances_cons_eq_ok h
      rcases List.mem_cons.mp hj with rfl | hj
      · exact ⟨d, hd⟩
      · exact distances_isOk.mp ⟨rest, hr⟩ j hj
    · intro h
      obtain ⟨d, hd⟩ := h i List.mem_cons_self
      obtain ⟨rest, hr⟩ := distances_isOk.mpr fun j hj => h j (List.mem_cons_of_mem _ hj)
      exact ⟨_, distances_cons hd hr⟩

theorem distances_filter (q : Incident F → Bool) : ∀ {l : List (Incident F)} {ds : List (F × Incident F)},
    distances near l = .ok ds → distances near (l.filter q) = .ok (ds.filter fun p => q p.2)
  | [], ds, h => by
    obtain rfl := Except.ok.inj h
    rfl
  | i :: l, ds, h => by
    obtain ⟨d, rest, hd, hr, rfl⟩ := distances_cons_eq_ok h
    have ih := distances_filter q hr
    cases hq : q i with
    | true =>
      rw [List.filter_cons_of_pos hq, List.filter_cons_of_pos (by simpa using hq)]
      exact distances_cons hd ih
    | false =>
      rw [List.filter_cons_of_neg (by simp [hq]), List.filter_cons_of_neg (by simp [hq])]
      exact ih

theorem distances_append {m : List (Incident F)} {dm : List (F × Incident F)} (hm : distances near m = .ok dm) :
    ∀ {l : List (Incident F)} {dl : List (F × Incident F)}, distances near l = .ok dl →
      distances near (l ++ m) = .ok (dl ++ dm)
  | [], dl, h => by
    obtain rfl := Except.ok.inj h
    exact hm
  | i :: l, dl, h => by
    obtain ⟨d, rest, hd, hr, rfl⟩ := distances_cons_eq_ok h
    exact distances_cons hd (distances_append hm hr)

theorem nearestFirst_of_isNone (hn : near.isNone = true) (l : List (Incident F)) : nearestFirst near l = .ok l :=
  if_pos hn

theorem nearestFirst_of_distances (hn : near.isNone = false) {l : List (Incident F)} {ds : List (F × Incident F)}
    (hd : distances near l = .ok ds) : nearestFirst near l = .ok ((Listsort.sort nearer ds).map Prod.snd) := by
  unfold nearestFirst
  rw [hn, hd]
  rfl

/-- A result is the list itself, or its distances sorted. -/
theorem nearestFirst_eq_ok {l rs : List (Incident F)} (h : nearestFirst near l = .ok rs) :
    near.isNone = true ∧ rs = l ∨ near.isNone = false ∧
      ∃ ds, distances near l = .ok ds ∧ rs = (Listsort.sort nearer ds).map Prod.snd := by
  cases hn : near.isNone with
  | true =>
    rw [nearestFirst_of_isNone hn] at h
    exact .inl ⟨rfl, (Except.ok.inj h).symm⟩
  | false =>
    cases hd : distances near l with
    | error e =>
      unfold nearestFirst at h
      rw [hn, hd] at h
      cases h
    | ok ds =>
      rw [nearestFirst_of_distances hn hd] at h
      exact .inr ⟨rfl, ds, rfl, (Except.ok.inj h).symm⟩

/-- The sort rearranges. -/
theorem nearestFirst_perm {l rs : List (Incident F)} (h : nearestFirst near l = .ok rs) : rs.Perm l := by
  rcases nearestFirst_eq_ok h with ⟨_, rfl⟩ | ⟨_, ds, hd, rfl⟩
  · exact List.Perm.refl _
  · refine ((Listsort.sort_perm nearer ds).map Prod.snd).trans ?_
    rw [(distances_spec hd).1]

/-- The sort raises when a distance does. -/
theorem nearestFirst_isOk {l : List (Incident F)} : (∃ rs, nearestFirst near l = .ok rs) ↔
    (near.isNone = false → ∀ i ∈ l, ∃ d, Runtime.dist i.coords near = .ok d) := by
  constructor
  · rintro ⟨rs, h⟩ hn
    rcases nearestFirst_eq_ok h with ⟨hn', _⟩ | ⟨_, ds, hd, _⟩
    · rw [hn] at hn'
      cases hn'
    · exact distances_isOk.mp ⟨ds, hd⟩
  · intro h
    cases hn : near.isNone with
    | true => exact ⟨l, nearestFirst_of_isNone hn l⟩
    | false =>
      obtain ⟨ds, hd⟩ := distances_isOk.mpr (h hn)
      exact ⟨_, nearestFirst_of_distances hn hd⟩

section Ordered

variable {l : List (Incident F)} (hord : DistancesOrdered near l)
include hord

/-- Sort keys compare by their distances. -/
theorem nearer_strictWeakOn (hn : near.isNone = false) :
    Listsort.StrictWeakOn (nearer : F × Incident F → F × Incident F → Bool)
      fun p => p.2 ∈ l ∧ Runtime.dist p.2.coords near = .ok p.1 :=
  ⟨fun p q hp hq => (hord hn).asymm p.1 q.1 ⟨_, hp⟩ ⟨_, hq⟩,
    fun p q r hp hq hr => (hord hn).negTrans p.1 q.1 r.1 ⟨_, hp⟩ ⟨_, hq⟩ ⟨_, hr⟩⟩

/-- **Filtering commutes with the sort.** -/
theorem nearestFirst_filter (q : Incident F → Bool) {found rs : List (Incident F)} (hf : ∀ i ∈ found, i ∈ l)
    (h : nearestFirst near found = .ok rs) : nearestFirst near (found.filter q) = .ok (rs.filter q) := by
  rcases nearestFirst_eq_ok h with ⟨hn, rfl⟩ | ⟨hn, ds, hd, rfl⟩
  · exact nearestFirst_of_isNone hn _
  · have hP : ∀ p ∈ ds, p.2 ∈ l ∧ Runtime.dist p.2.coords near = .ok p.1 := fun p hp =>
      ⟨hf _ ((distances_spec hd).2 p hp).1, ((distances_spec hd).2 p hp).2⟩
    rw [nearestFirst_of_distances hn (distances_filter q hd), List.filter_map]
    have hsort := Listsort.filter_sort (nearer_strictWeakOn hord hn) (fun p => q p.2) hP
    exact congrArg (fun l => Except.ok (l.map Prod.snd)) hsort.symm

/-- **One incident more** among those sorted leaves the order of the others. -/
theorem nearestFirst_append_cons {fl fr rs : List (Incident F)} {i : Incident F} (hf : ∀ j ∈ fl ++ i :: fr, j ∈ l)
    (hne : ∀ j ∈ fl ++ fr, j.incidentId ≠ i.incidentId) (h : nearestFirst near (fl ++ i :: fr) = .ok rs) :
    ∃ a b, rs = a ++ i :: b ∧ nearestFirst near (fl ++ fr) = .ok (a ++ b) := by
  rcases nearestFirst_eq_ok h with ⟨hn, rfl⟩ | ⟨hn, ds, hd, rfl⟩
  · exact ⟨fl, fr, rfl, nearestFirst_of_isNone hn _⟩
  · have hloc := distances_isOk.mp ⟨ds, hd⟩
    obtain ⟨dl, hdl⟩ := distances_isOk.mpr fun j hj => hloc j (List.mem_append_left _ hj)
    obtain ⟨dr, hdr⟩ := distances_isOk.mpr fun j hj => hloc j (List.mem_append_right _ (List.mem_cons_of_mem i hj))
    obtain ⟨d, hdi⟩ := hloc i (by simp)
    obtain rfl := Except.ok.inj (hd.symm.trans (distances_append (distances_cons hdi hdr) hdl))
    have hP : ∀ p ∈ dl ++ (d, i) :: dr, p.2 ∈ l ∧ Runtime.dist p.2.coords near = .ok p.1 := fun p hp =>
      ⟨hf _ ((distances_spec hd).2 p hp).1, ((distances_spec hd).2 p hp).2⟩
    classical
    have hp : ∀ p ∈ dl ++ dr, decide (p.2.incidentId ≠ i.incidentId) = true := fun p hp =>
      decide_eq_true (hne _ ((distances_spec (distances_append hdr hdl)).2 p hp).1)
    obtain ⟨a, b, hab, hab'⟩ := Listsort.sort_append_cons (nearer_strictWeakOn hord hn) _ hP
      (decide_eq_false (not_not.mpr rfl)) hp
    refine ⟨a.map Prod.snd, b.map Prod.snd, ?_, ?_⟩
    · rw [hab, List.map_append, List.map_cons]
    · rw [nearestFirst_of_distances hn (distances_append hdr hdl), hab', List.map_append]

/-- **One incident more**, that has a distance, can be sorted with the others. -/
theorem nearestFirst_insert {fl fr rs : List (Incident F)} {i : Incident F} (hf : ∀ j ∈ fl ++ i :: fr, j ∈ l)
    (hne : ∀ j ∈ fl ++ fr, j.incidentId ≠ i.incidentId)
    (hd : near.isNone = false → ∃ d, Runtime.dist i.coords near = .ok d)
    (h : nearestFirst near (fl ++ fr) = .ok rs) :
    ∃ a b, rs = a ++ b ∧ nearestFirst near (fl ++ i :: fr) = .ok (a ++ i :: b) := by
  have hloc : near.isNone = false → ∀ j ∈ fl ++ i :: fr, ∃ d, Runtime.dist j.coords near = .ok d := by
    intro hn j hj
    have hold := nearestFirst_isOk.mp ⟨rs, h⟩ hn
    rcases List.mem_append.mp hj with hj | hj
    · exact hold j (List.mem_append_left _ hj)
    · rcases List.mem_cons.mp hj with rfl | hj
      · exact hd hn
      · exact hold j (List.mem_append_right _ hj)
  obtain ⟨rs', hrs'⟩ := nearestFirst_isOk.mpr hloc
  obtain ⟨a, b, rfl, hab⟩ := nearestFirst_append_cons hord hf hne hrs'
  exact ⟨a, b, Except.ok.inj (h.symm.trans hab), hrs'⟩

end Ordered

end IncidentStore

end HadrAgent
