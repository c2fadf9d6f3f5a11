import HadrAgent.Stores.StatusQueries

/-!
# The nearest-first query

What `find` returns, stated without its loop and its sort (`NearestFirst`): the incidents asked for, each once, in the
order of their opening, or by distance with ties in the order of their opening. Where the distances are totally ordered
that is one list, and it is what `find` returns (`find_nearest_first`).
-/

namespace HadrAgent

variable {F : Type} [Runtime F]

namespace IncidentStore

/-- The incident has the status and the type asked for. -/
def wanted (incidentType status : Val F) (i : Incident F) : Bool :=
  (status.isNone || i.status.eq status) && (incidentType.isNone || i.incidentType.eq incidentType)

/-- The incident lies in the window; without one of its halves there is no window. -/
def inWindow (near radius : Val F) (i : Incident F) : Bool :=
  near.isNone || radius.isNone || match Runtime.dist i.coords near with
    | .ok d => match withinRadius d radius with
      | .ok inside => inside
      | .error _ => false
    | .error _ => false

/-- The incident passes every filter that is given. -/
def asked (near radius incidentType status : Val F) (i : Incident F) : Bool :=
  wanted incidentType status i && inWindow near radius i

/-- The incident `i` is strictly nearer to `near` than `j`. -/
def nearerTo (near : Val F) (i j : Incident F) : Bool :=
  match Runtime.dist i.coords near, Runtime.dist j.coords near with
  | .ok d, .ok e => Runtime.lt d e
  | _, _ => false

/-- The distance of the incident, and whether it is within the radius, can be asked for. -/
def Located (near radius : Val F) (i : Incident F) : Prop :=
  near.isNone = false → ∃ d, Runtime.dist i.coords near = .ok d ∧
    (radius.isNone = false → ∃ inside, withinRadius d radius = .ok inside)

/-- What the query means on the incidents `l`, in the order of their opening. -/
structure NearestFirst (near radius incidentType status : Val F) (l rs : List (Incident F)) : Prop where
  /-- The incidents asked for, each once. -/
  matching : rs.Perm (l.filter (asked near radius incidentType status))
  opening : near.isNone = true → rs = l.filter (asked near radius incidentType status)
  nearest : near.isNone = false → rs.Pairwise fun i j => nearerTo near j i = false
  /-- Incidents that are equally far keep the order of their opening. -/
  ties : near.isNone = false → ∀ i ∈ rs, rs.filter (Listsort.tied (nearerTo near) i) =
    (l.filter (asked near radius incidentType status)).filter (Listsort.tied (nearerTo near) i)

variable {near radius incidentType status : Val F}

/-! ## The loop -/

theorem selects_of_wanted {i : Incident F} (h : wanted incidentType status i = true) :
    selects near radius incidentType status i =
      if !near.isNone && !radius.isNone then do withinRadius (← Runtime.dist i.coords near) radius else .ok true := by
  unfold wanted at h
  unfold selects
  cases hs : status.isNone <;> cases ht : incidentType.isNone <;> simp_all

theorem selects_of_unwanted {i : Incident F} (h : wanted incidentType status i = false) :
    selects near radius incidentType status i = .ok false := by
  unfold wanted at h
  unfold selects
  cases hs : status.isNone <;> cases ht : incidentType.isNone <;> simp_all

/-- The body of the loop decides whether the incident is asked for. -/
theorem selects_eq_ok {i : Incident F} {keep : Bool} (h : selects near radius incidentType status i = .ok keep) :
    keep = asked near radius incidentType status i := by
  cases hw : wanted incidentType status i with
  | false =>
    rw [selects_of_unwanted hw] at h
    rw [asked, hw, ← Except.ok.inj h]
    rfl
  | true =>
    rw [selects_of_wanted hw] at h
    rw [asked, hw, Bool.true_and, inWindow]
    cases hn : near.isNone with
    | true =>
      rw [hn] at h
      exact (Except.ok.inj h).symm
    | false =>
      cases hr : radius.isNone with
      | true =>
        rw [hn, hr] at h
        exact (Except.ok.inj h).symm
      | false =>
        rw [hn, hr] at h
        obtain ⟨d, hd, h⟩ := Except.bind_eq_ok.mp h
        simp [hd, h]

/-- It raises where a distance that it asks for does. -/
theorem selects_isOk {i : Incident F} : (∃ keep, selects near radius incidentType status i = .ok keep) ↔
    (wanted incidentType status i = true → radius.isNone = false → Located near radius i) := by
  cases hw : wanted incidentType status i with
  | false => exact ⟨fun _ => nofun, fun _ => ⟨false, selects_of_unwanted hw⟩⟩
  | true =>
    rw [selects_of_wanted hw]
    unfold Located
    cases hn : near.isNone with
    | true => exact ⟨fun _ _ _ => nofun, fun _ => ⟨true, rfl⟩⟩
    | false =>
      cases hr : radius.isNone with
      | true => exact ⟨fun _ _ => nofun, fun _ => ⟨true, rfl⟩⟩
      | false =>
        constructor
        · rintro ⟨keep, h⟩ _ _ _
          obtain ⟨d, hd, h⟩ := Except.bind_eq_ok.mp h
          exact ⟨d, hd, fun _ => ⟨keep, h⟩⟩
        · intro h
          obtain ⟨d, hd, h⟩ := h rfl rfl rfl
          obtain ⟨inside, hi⟩ := h rfl
          exact ⟨inside, Except.bind_eq_ok.mpr ⟨d, hd, hi⟩⟩

theorem collect_eq_ok : ∀ {l found : List (Incident F)}, collect near radius incidentType status l = .ok found →
    found = l.filter (asked near radius incidentType status)
  | [], _, h => (Except.ok.inj h).symm
  | i :: l, _, h => by
    obtain ⟨keep, rest, hk, hr, rfl⟩ := collect_cons_eq_ok h
    rw [List.filter_cons, ← selects_eq_ok hk, ← collect_eq_ok hr]

theorem collect_isOk : ∀ {l : List (Incident F)},
    (∃ found, collect near radius incidentType status l = .ok found) ↔
      ∀ i ∈ l, ∃ keep, selects near radius incidentType status i = .ok keep
  | [] => ⟨fun _ => nofun, fun _ => ⟨[], rfl⟩⟩
  | i :: l => by
    constructor
    · rintro ⟨found, h⟩ j hj
      obtain ⟨keep, rest, hk, hr, -⟩ := collect_cons_eq_ok h
      rcases List.mem_cons.mp hj with rfl | hj
      · exact ⟨keep, hk⟩
      · exact collect_isOk.mp ⟨rest, hr⟩ j hj
    · intro h
      obtain ⟨keep, hk⟩ := h i List.mem_cons_self
      obtain ⟨rest, hr⟩ := collect_isOk.mpr fun j hj => h j (List.mem_cons_of_mem _ hj)
      exact ⟨_, collect_cons hk hr⟩

/-- `find` is its loop and its sort. -/
theorem find_eq_nearestFirst {s : IncidentStore F} {rs : List (Incident F)}
    (h : s.find near radius incidentType status = .ok rs) :
    nearestFirst near (s.all.filter (asked near radius incidentType status)) = .ok rs := by
  rw [find_eq] at h
  obtain ⟨found, hf, hn⟩ := Except.bind_eq_ok.mp h
  rw [← collect_eq_ok hf]
  exact hn

/-- **`find` returns** when every incident of the status and the type can be located. -/
theorem find_isOk {s : IncidentStore F} : (∃ rs, s.find near radius incidentType status = .ok rs) ↔
    ∀ i ∈ s.all, wanted incidentType status i = true → Located near radius i := by
  constructor
  · rintro ⟨rs, h⟩ i hi hw
    have hsort := find_eq_nearestFirst h
    rw [find_eq] at h
    obtain ⟨found, hf, -⟩ := Except.bind_eq_ok.mp h
    cases hr : radius.isNone with
    | false => exact selects_isOk.mp (collect_isOk.mp ⟨found, hf⟩ i hi) hw hr
    | true =>
      -- without a radius the incident is sorted, so its distance is taken there
      intro hn
      obtain ⟨d, hd⟩ := nearestFirst_isOk.mp ⟨rs, hsort⟩ hn i
        (List.mem_filter.mpr ⟨hi, by simp [asked, hw, inWindow, hr]⟩)
      exact ⟨d, hd, fun e => absurd (hr.symm.trans e) (by decide)⟩
  · intro h
    obtain ⟨found, hf⟩ := collect_isOk.mpr fun i hi => selects_isOk.mpr fun hw _ => h i hi hw
    have hloc : near.isNone = false → ∀ i ∈ found, ∃ d, Runtime.dist i.coords near = .ok d := by
      intro hn i hi
      rw [collect_eq_ok hf] at hi
      obtain ⟨hi, ha⟩ := List.mem_filter.mp hi
      obtain ⟨d, hd, -⟩ := h i hi (Bool.and_eq_true_iff.mp ha).1 hn
      exact ⟨d, hd⟩
    obtain ⟨rs, hrs⟩ := nearestFirst_isOk.mpr hloc
    refine ⟨rs, ?_⟩
    rw [find_eq, hf]
    exact hrs

/-! ## The sort -/

theorem nearerTo_of_dist {i j : Incident F} {d e : F} (hi : Runtime.dist i.coords near = .ok d)
    (hj : Runtime.dist j.coords near = .ok e) : nearerTo near i j = Runtime.lt d e := by
  simp only [nearerTo, hi, hj]

/-- Sort keys compare as their incidents do. -/
theorem nearer_eq_nearerTo {l : List (Incident F)} {ds : List (F × Incident F)} (hd : distances near l = .ok ds)
    {p q : F × Incident F} (hp : p ∈ ds) (hq : q ∈ ds) : nearer p q = nearerTo near p.2 q.2 :=
  (nearerTo_of_dist ((distances_spec hd).2 p hp).2 ((distances_spec hd).2 q hq).2).symm

/-- What is sorted by distance, told by the incidents. -/
theorem map_snd_filter_tied {l : List (Incident F)} {ds : List (F × Incident F)} (hd : distances near l = .ok ds)
    {p : F × Incident F} (hp : p ∈ ds) {qs : List (F × Incident F)} (hq : ∀ q ∈ qs, q ∈ ds) :
    (qs.filter (Listsort.tied nearer p)).map Prod.snd =
      (qs.map Prod.snd).filter (Listsort.tied (nearerTo near) p.2) := by
  rw [List.filter_map]
  refine congrArg _ (List.filter_congr fun q h => ?_)
  simp only [Listsort.tied, Function.comp_apply, nearer_eq_nearerTo hd hp (hq q h),
    nearer_eq_nearerTo hd (hq q h) hp]

section Ordered

variable {l : List (Incident F)} (hord : DistancesOrdered near l)
include hord

/-- Incidents that can be located compare as their distances do. -/
theorem nearerTo_strictWeakOn (hn : near.isNone = false) : Listsort.StrictWeakOn (nearerTo near)
    fun i : Incident F => i ∈ l ∧ ∃ d, Runtime.dist i.coords near = .ok d where
  asymm := by
    rintro i j ⟨hi, d, hd⟩ ⟨hj, e, he⟩
    rw [nearerTo_of_dist hd he, nearerTo_of_dist he hd]
    exact (hord hn).asymm d e ⟨i, hi, hd⟩ ⟨j, hj, he⟩
  negTrans := by
    rintro i j k ⟨hi, d, hd⟩ ⟨hj, e, he⟩ ⟨hk, f, hf⟩
    rw [nearerTo_of_dist hd he, nearerTo_of_dist he hf, nearerTo_of_dist hd hf]
    exact (hord hn).negTrans d e f ⟨i, hi, hd⟩ ⟨j, hj, he⟩ ⟨k, hk, hf⟩

theorem nearestFirst_spec {rs : List (Incident F)}
    (h : nearestFirst near (l.filter (asked near radius incidentType status)) = .ok rs) :
    NearestFirst near radius incidentType status l rs := by
  refine ⟨nearestFirst_perm h, fun hn => ?_, fun hn => ?_, fun hn i hi => ?_⟩
  · rw [nearestFirst_of_isNone hn] at h
    exact (Except.ok.inj h).symm
  all_goals
    rcases nearestFirst_eq_ok h with ⟨hn', _⟩ | ⟨_, ds, hd, rfl⟩
    · rw [hn] at hn'
      cases hn'
    have hP : ∀ p ∈ ds, p.2 ∈ l ∧ Runtime.dist p.2.coords near = .ok p.1 := fun p hp =>
      ⟨(List.mem_filter.mp ((distances_spec hd).2 p hp).1).1, ((distances_spec hd).2 p hp).2⟩
    have hmem : ∀ p ∈ Listsort.sort nearer ds, p ∈ ds := fun p hp => Listsort.mem_sort.mp hp
  · rw [List.pairwise_map]
    refine (Listsort.sort_inOrder (nearer_strictWeakOn hord hn) hP).imp_of_mem fun {p q} hp hq hpq => ?_
    rw [← nearer_eq_nearerTo hd (hmem q hq) (hmem p hp)]
    exact hpq
  · obtain ⟨p, hp, rfl⟩ := List.mem_map.mp hi
    have hties := Listsort.filter_tied_sort (nearer_strictWeakOn hord hn) (hP p (hmem p hp)) hP
    rw [← map_snd_filter_tied hd (hmem p hp) hmem, hties, map_snd_filter_tied hd (hmem p hp) fun q hq => hq,
      (distances_spec hd).1]

/-- **The meaning determines the result.** -/
theorem NearestFirst.unique {rs rs' : List (Incident F)}
    (hloc : ∀ i ∈ l, wanted incidentType status i = true → Located near radius i)
    (h : NearestFirst near radius incidentType status l rs) (h' : NearestFirst near radius incidentType status l rs') :
    rs' = rs := by
  cases hn : near.isNone with
  | true => rw [h.opening hn, h'.opening hn]
  | false =>
    have hP : ∀ i ∈ rs', i ∈ l ∧ ∃ d, Runtime.dist i.coords near = .ok d := by
      intro i hi
      obtain ⟨hi, ha⟩ := List.mem_filter.mp (h'.matching.mem_iff.mp hi)
      obtain ⟨d, hd, -⟩ := hloc i hi (Bool.and_eq_true_iff.mp ha).1 hn
      exact ⟨hi, d, hd⟩
    have hperm : rs'.Perm rs := h'.matching.trans h.matching.symm
    refine Listsort.eq_of_inOrder (nearerTo_strictWeakOn hord hn) hP hperm (h'.nearest hn) (h.nearest hn) ?_
    intro i hi
    rw [h'.ties hn i hi, h.ties hn i (hperm.mem_iff.mp hi)]

end Ordered

/-- **`find` is the nearest-first query**, on every store and for every combination of filters, where the distances are
totally ordered: it returns when the incidents of the status and the type can be located, and what it returns is the one
list that the query means. -/
theorem find_nearest_first (s : IncidentStore F) (near radius incidentType status : Val F)
    (hord : DistancesOrdered near s.all) :
    ((∃ rs, s.find near radius incidentType status = .ok rs) ↔
      ∀ i ∈ s.all, wanted incidentType status i = true → Located near radius i) ∧
    ∀ rs, s.find near radius incidentType status = .ok rs →
      NearestFirst near radius incidentType status s.all rs ∧
      ∀ rs', NearestFirst near radius incidentType status s.all rs' → rs' = rs := by
  refine ⟨find_isOk, fun rs h => ?_⟩
  have hspec := nearestFirst_spec hord (find_eq_nearestFirst h)
  exact ⟨hspec, fun rs' h' => hspec.unique hord (find_isOk.mp ⟨rs, h⟩) h'⟩

/-- The nearer fire first, though it was opened second. -/
theorem find_nearest_first_twoFires :
    ∃ rs, (after twoFires).find (.tuple [.int 0, .int 0]) .none (.str "fire") .none = .ok rs ∧
      rs.map Incident.incidentId = [.str "inc-2", .str "inc-1"] ∧
      NearestFirst (.tuple [.int 0, .int 0]) .none (.str "fire") .none (after twoFires).all rs :=
  ⟨_, rfl, rfl, ((find_nearest_first (after twoFires) (.tuple [.int 0, .int 0]) .none (.str "fire") .none
    distancesOrdered_twoFires).2 _ rfl).1⟩

end IncidentStore

end HadrAgent
