import HadrAgent.Stores.NearestFirst

/-!
# Nearest first next to a NaN

A NaN coordinate makes a distance that compares with nothing. A window drops such incidents, but without one they are
sorted with the others, and `list.sort` then no longer puts the others in order. `nearest_first_iff`: of given
incidents, the located ones come nearest first in every order of their opening exactly when a window is given, or none
of the incidents asked for is at a NaN distance, or the located ones are all equally far.
-/

namespace HadrAgent

variable {F : Type} [Runtime F]

/-- Distances are numbers, on which `<` is a strict weak order, or NaN, of which every `<` and `<=` is false. -/
structure NanUnordered (F : Type) [Runtime F] : Prop where
  ordered : Listsort.StrictWeakOn (Runtime.lt : F → F → Bool) fun d => Runtime.isNan d = false
  lt_nan : ∀ d e : F, Runtime.isNan d = true ∨ Runtime.isNan e = true → Runtime.lt d e = false
  le_nan : ∀ d r : F, Runtime.isNan d = true → Runtime.le d r = false
  leInt_nan : ∀ (d : F) (n : Int), Runtime.isNan d = true → Runtime.leInt d n = false

namespace IncidentStore

/-- The distance of the incident is an ordinary number. -/
def ordinary (near : Val F) (i : Incident F) : Bool :=
  match Runtime.dist i.coords near with
  | .ok d => !Runtime.isNan d
  | .error _ => false

/-- The incidents at an ordinary distance stand nearest first. -/
def OrdinaryInOrder (near : Val F) (rs : List (Incident F)) : Prop :=
  (rs.filter (ordinary near)).Pairwise fun i j => nearerTo near j i = false

variable {near radius incidentType status : Val F}

theorem exists_dist_of_ordinary {i : Incident F} (h : ordinary near i = true) :
    ∃ d, Runtime.dist i.coords near = .ok d ∧ Runtime.isNan d = false := by
  unfold ordinary at h
  cases hd : Runtime.dist i.coords near with
  | error e => rw [hd] at h; cases h
  | ok d =>
    rw [hd] at h
    exact ⟨d, rfl, by simpa using h⟩

/-- An incident that is strictly nearer than another has a distance, and so has the other. -/
theorem exists_dist_of_nearerTo {i j : Incident F} (h : nearerTo near i j = true) :
    ∃ d e, Runtime.dist i.coords near = .ok d ∧ Runtime.dist j.coords near = .ok e ∧ Runtime.lt d e = true := by
  unfold nearerTo at h
  split at h
  · next d e hd he => exact ⟨d, e, hd, he, h⟩
  · cases h

section Unordered

variable (hF : NanUnordered F)
include hF

/-- Incidents at ordinary distances are ordered by them. -/
theorem ordinary_strictWeakOn (near : Val F) :
    Listsort.StrictWeakOn (nearerTo near) fun i : Incident F => ordinary near i = true where
  asymm := by
    intro i j hi hj
    obtain ⟨d, hd, nd⟩ := exists_dist_of_ordinary hi
    obtain ⟨e, he, ne⟩ := exists_dist_of_ordinary hj
    rw [nearerTo_of_dist hd he, nearerTo_of_dist he hd]
    exact hF.ordered.asymm d e nd ne
  negTrans := by
    intro i j k hi hj hk
    obtain ⟨d, hd, nd⟩ := exists_dist_of_ordinary hi
    obtain ⟨e, he, ne⟩ := exists_dist_of_ordinary hj
    obtain ⟨f, hf, nf⟩ := exists_dist_of_ordinary hk
    rw [nearerTo_of_dist hd he, nearerTo_of_dist he hf, nearerTo_of_dist hd hf]
    exact hF.ordered.negTrans d e f nd ne nf

/-- An incident at a NaN distance is neither nearer nor farther than any. -/
theorem nearerTo_of_not_ordinary {i j : Incident F} (h : ordinary near i = false ∨ ordinary near j = false) :
    nearerTo near i j = false := by
  cases hij : nearerTo near i j with
  | false => rfl
  | true =>
    obtain ⟨d, e, hd, he, hlt⟩ := exists_dist_of_nearerTo hij
    have hnan : Runtime.isNan d = true ∨ Runtime.isNan e = true := by
      unfold ordinary at h
      rw [hd, he] at h
      simpa using h
    rw [hF.lt_nan d e hnan] at hlt
    cases hlt

theorem ordinary_of_nearerTo {i j : Incident F} (h : nearerTo near i j = true) :
    ordinary near i = true ∧ ordinary near j = true := by
  constructor
  · cases hi : ordinary near i with
    | true => rfl
    | false => exact (nearerTo_of_not_ordinary hF (.inl hi)).symm.trans h
  · cases hj : ordinary near j with
    | true => rfl
    | false => exact (nearerTo_of_not_ordinary hF (.inr hj)).symm.trans h

/-- A NaN distance is within no radius. -/
theorem withinRadius_of_nan {d : F} (hd : Runtime.isNan d = true) {radius : Val F} {inside : Bool}
    (h : withinRadius d radius = .ok inside) : inside = false := by
  cases radius with
  | float r => exact (Except.ok.inj h).symm.trans (hF.le_nan d r hd)
  | int n => exact (Except.ok.inj h).symm.trans (hF.leInt_nan d n hd)
  | bool b => exact (Except.ok.inj h).symm.trans (hF.leInt_nan d _ hd)
  | _ => cases h

/-- A window drops what is at a NaN distance. -/
theorem ordinary_of_window (hn : near.isNone = false) (hr : radius.isNone = false) {i : Incident F}
    (h : asked near radius incidentType status i = true) : ordinary near i = true := by
  have hw : inWindow near radius i = true := (Bool.and_eq_true_iff.mp h).2
  unfold inWindow at hw
  unfold ordinary
  rw [hn, hr] at hw
  cases hd : Runtime.dist i.coords near with
  | error e => simp [hd] at hw
  | ok d =>
    simp only [hd, Bool.false_or] at hw ⊢
    cases hnan : Runtime.isNan d with
    | false => rfl
    | true =>
      cases hin : withinRadius d radius with
      | error e => simp [hin] at hw
      | ok inside => simp [hin, withinRadius_of_nan hF hnan hin] at hw

/-- Where everything asked for is at an ordinary distance, the result is nearest first. -/
theorem inOrder_of_all_ordinary (hn : near.isNone = false) {found rs : List (Incident F)}
    (hall : ∀ i ∈ found, ordinary near i = true ∧ asked near radius incidentType status i = true)
    (h : nearestFirst near found = .ok rs) : OrdinaryInOrder near rs := by
  have hord : DistancesOrdered near found := by
    intro _
    refine hF.ordered.mono ?_
    rintro d ⟨i, hi, hd⟩
    obtain ⟨e, he, ne⟩ := exists_dist_of_ordinary (hall i hi).1
    rw [hd] at he
    exact Except.ok.inj he ▸ ne
  have hfilter : found.filter (asked near radius incidentType status) = found :=
    List.filter_eq_self.mpr fun i hi => (hall i hi).2
  have hspec : NearestFirst near radius incidentType status found rs :=
    nearestFirst_spec hord (by rw [hfilter]; exact h)
  exact (hspec.nearest hn).sublist List.filter_sublist

end Unordered

/-- Incidents none of which is strictly nearer than its neighbour are left as they are. -/
theorem nearestFirst_of_chain (hn : near.isNone = false) {l : List (Incident F)}
    (hloc : ∀ i ∈ l, ∃ d, Runtime.dist i.coords near = .ok d) (h : l.IsChain fun i j => nearerTo near j i = false) :
    nearestFirst near l = .ok l := by
  obtain ⟨ds, hd⟩ := distances_isOk.mpr hloc
  have hmap := (distances_spec hd).1
  have hchain : ds.IsChain fun p q => nearer q p = false := by
    rw [← hmap, List.isChain_map] at h
    refine h.imp_of_mem_imp fun {p q} hp hq hpq => ?_
    rw [nearer_eq_nearerTo hd hq hp]
    exact hpq
  rw [nearestFirst_of_distances hn hd, Listsort.sort_of_chain hchain, hmap]

/-- The incidents asked for can have been opened in any order, after the others. -/
theorem exists_reordered (s : IncidentStore F) {m : List (String × Incident F)}
    (hm : m.Perm (s.byId.items.filter fun p => asked near radius incidentType status p.2)) :
    ∃ s' : IncidentStore F, s'.byId.items.Perm s.byId.items ∧
      s'.all.filter (asked near radius incidentType status) = m.map Prod.snd := by
  let wants : String × Incident F → Bool := fun p => asked near radius incidentType status p.2
  have hperm : ((s.byId.items.filter fun p => !wants p) ++ m).Perm s.byId.items :=
    (List.perm_append_comm.trans (hm.append_right _)).trans (List.filter_append_perm _ _)
  refine ⟨⟨⟨_, (hperm.map Prod.fst).nodup_iff.mpr s.byId.nodup⟩, s.seq⟩, hperm, ?_⟩
  have hwants : ∀ p ∈ m, wants p = true := fun p hp => (List.mem_filter.mp (hm.mem_iff.mp hp)).2
  have hnone : (s.byId.items.filter fun p => !wants p).filter wants = [] := by
    rw [List.filter_filter, List.filter_eq_nil_iff]
    intro p _
    cases wants p <;> simp
  show (((s.byId.items.filter fun p => !wants p) ++ m).map Prod.snd).filter _ = _
  rw [List.filter_map]
  show (List.filter wants _).map Prod.snd = _
  rw [List.filter_append, hnone, List.nil_append, List.filter_eq_self.mpr hwants]

/-- Without a window, incidents asked for that are one run are returned as they are. -/
theorem find_of_chain {s : IncidentStore F} (hn : near.isNone = false) (hr : radius.isNone = true)
    (hloc : ∀ i ∈ s.all, ∃ d, Runtime.dist i.coords near = .ok d)
    (h : (s.all.filter (asked near radius incidentType status)).IsChain fun i j => nearerTo near j i = false) :
    s.find near radius incidentType status = .ok (s.all.filter (asked near radius incidentType status)) := by
  have hlocated : ∀ i ∈ s.all, wanted incidentType status i = true → Located near radius i := by
    intro i hi _ _
    obtain ⟨d, hd⟩ := hloc i hi
    exact ⟨d, hd, fun e => absurd (hr.symm.trans e) (by decide)⟩
  obtain ⟨rs, hrs⟩ := find_isOk.mpr hlocated
  have hsort := nearestFirst_of_chain hn (fun i hi => hloc i (List.mem_filter.mp hi).1) h
  rw [hrs, ← find_eq_nearestFirst hrs, hsort]

/-- Incidents asked for, one of them at a NaN distance and two at different ones, can have been opened in an order in
which the query returns the farther of the two first. -/
theorem exists_order_not_inOrder (hF : NanUnordered F) {s : IncidentStore F} (hn : near.isNone = false)
    (hr : radius.isNone = true) (hloc : ∀ i ∈ s.all, ∃ d, Runtime.dist i.coords near = .ok d) {i j n : Incident F}
    (hi : i ∈ s.all) (hj : j ∈ s.all) (hns : n ∈ s.all) (ai : asked near radius incidentType status i = true)
    (aj : asked near radius incidentType status j = true) (an : asked near radius incidentType status n = true)
    (on : ordinary near n = false) (hij : nearerTo near i j = true) :
    ∃ s' : IncidentStore F, s'.byId.items.Perm s.byId.items ∧ ∃ rs,
      s'.find near radius incidentType status = .ok rs ∧ ¬ OrdinaryInOrder near rs := by
  obtain ⟨oi, oj⟩ := ordinary_of_nearerTo hF hij
  have hitem : ∀ {k : Incident F}, k ∈ s.all → asked near radius incidentType status k = true →
      ∃ p ∈ s.byId.items.filter (fun p => asked near radius incidentType status p.2), p.2 = k := by
    intro k hk ak
    obtain ⟨p, hp, rfl⟩ := List.mem_map.mp hk
    exact ⟨p, List.mem_filter.mpr ⟨hp, ak⟩, rfl⟩
  obtain ⟨pi, hpi, rfl⟩ := hitem hi ai
  obtain ⟨pj, hpj, rfl⟩ := hitem hj aj
  obtain ⟨pn, hpn, rfl⟩ := hitem hns an
  have hstrict := ordinary_strictWeakOn hF near
  have hordered : Listsort.StrictWeakOn (fun p q : String × Incident F => nearerTo near p.2 q.2)
      fun p => ordinary near p.2 = true :=
    ⟨fun p q => hstrict.asymm p.2 q.2, fun p q r => hstrict.negTrans p.2 q.2 r.2⟩
  obtain ⟨m, hm, hchain, a, b, rfl, hja⟩ := Listsort.exists_perm_chain hordered
    (fun p q => nearerTo_of_not_ordinary hF) hpi hpj hpn oi oj on hij
  obtain ⟨s', hperm, hfound⟩ := exists_reordered s hm
  have hall : ∀ k ∈ s'.all, k ∈ s.all := fun k hk => (hperm.map Prod.snd).mem_iff.mp hk
  have hfind := find_of_chain hn hr (fun k hk => hloc k (hall k hk)) (s := s')
    (by rw [hfound]; exact (List.isChain_map Prod.snd).mpr hchain)
  refine ⟨s', hperm, _, hfind, fun hord => ?_⟩
  -- the farther one stands before the nearer one
  unfold OrdinaryInOrder at hord
  rw [hfound, List.map_append, List.filter_append, List.pairwise_append] at hord
  have hmem : pj.2 ∈ (a ++ b).map Prod.snd := List.mem_map_of_mem (List.mem_append_left _ hja)
  have hbad := hord.2.2 pj.2 (List.mem_filter.mpr ⟨hmem, oj⟩) pi.2 (by simp [oi])
  rw [hij] at hbad
  cases hbad

/-- **Nearest first, in every order of opening**: exactly when a window is given, or nothing asked for is at a NaN
distance, or what is at ordinary distances is equally far. -/
theorem nearest_first_iff (hF : NanUnordered F) (s : IncidentStore F) {near : Val F} (hn : near.isNone = false)
    (hloc : ∀ i ∈ s.all, ∃ d, Runtime.dist i.coords near = .ok d) (radius incidentType status : Val F) :
    (∀ s' : IncidentStore F, s'.byId.items.Perm s.byId.items → ∀ rs,
      s'.find near radius incidentType status = .ok rs → OrdinaryInOrder near rs) ↔
    radius.isNone = false ∨
    (∀ i ∈ s.all, asked near radius incidentType status i = true → ordinary near i = true) ∨
    ∀ i ∈ s.all, ∀ j ∈ s.all, asked near radius incidentType status i = true →
      asked near radius incidentType status j = true → nearerTo near i j = false := by
  constructor
  · intro h
    by_contra hnot
    push Not at hnot
    obtain ⟨hr, ⟨n, hns, an, on⟩, i, hi, j, hj, ai, aj, hij⟩ := hnot
    obtain ⟨s', hperm, rs, hrs, hbad⟩ := exists_order_not_inOrder hF hn (by simpa using hr) hloc hi hj hns ai aj an
      (by simpa using on) (by simpa using hij)
    exact hbad (h s' hperm rs hrs)
  · intro h s' hs' rs hrs
    have hall : ∀ i ∈ s'.all, i ∈ s.all := fun i hi => (hs'.map Prod.snd).mem_iff.mp hi
    have hsort := find_eq_nearestFirst hrs
    have hmem : ∀ i ∈ s'.all.filter (asked near radius incidentType status), i ∈ s.all ∧
        asked near radius incidentType status i = true := fun i hi =>
      ⟨hall i (List.mem_filter.mp hi).1, (List.mem_filter.mp hi).2⟩
    rcases h with hr | ho | htied
    · exact inOrder_of_all_ordinary hF hn (fun i hi => ⟨ordinary_of_window hF hn hr (hmem i hi).2, (hmem i hi).2⟩) hsort
    · exact inOrder_of_all_ordinary hF hn (fun i hi => ⟨ho i (hmem i hi).1 (hmem i hi).2, (hmem i hi).2⟩) hsort
    · have hrs' : ∀ i ∈ rs, i ∈ s.all ∧ asked near radius incidentType status i = true := fun i hi =>
        hmem i ((nearestFirst_perm hsort).mem_iff.mp hi)
      refine List.pairwise_of_forall_mem_list fun i hi j hj => ?_
      have hi' := hrs' i (List.mem_filter.mp hi).1
      have hj' := hrs' j (List.mem_filter.mp hj).1
      exact htied j hj'.1 i hi'.1 hj'.2 hi'.2

end IncidentStore

/-! ## A smudged coordinate -/

theorem Whole.nanUnordered : NanUnordered Whole where
  ordered := by
    refine Whole.lt_strictWeakOn.mono ?_
    intro d hd
    cases d with
    | val n => exact ⟨n, rfl⟩
    | nan => cases hd
  lt_nan := by
    rintro (m | _) (n | _) h
    · rcases h with h | h <;> cases h
    all_goals rfl
  le_nan := by
    rintro (m | _) r h
    · cases h
    · rfl
  leInt_nan := by
    rintro (m | _) n h
    · cases h
    · rfl

namespace IncidentStore

/-- A far fire, one at a NaN coordinate, and a near one. -/
def smudged : List (IncidentCall Whole) :=
  [.openIncident (.str "fire") (.tuple [.int 3, .int 4]) (.int 1) .none .empty,
    .openIncident (.str "fire") (.tuple [.float .nan, .int 0]) (.int 1) .none .empty,
    .openIncident (.str "fire") (.tuple [.int 0, .int 1]) (.int 1) .none .empty]

/-- The far fire is returned before the near one. -/
theorem find_smudged : ∃ rs, (after smudged).find (.tuple [.int 0, .int 0]) .none .none (.str "open") = .ok rs ∧
    rs.map Incident.incidentId = [.str "inc-1", .str "inc-2", .str "inc-3"] ∧
    ¬ OrdinaryInOrder (.tuple [.int 0, .int 0]) rs :=
  ⟨_, rfl, rfl, by unfold OrdinaryInOrder; decide⟩

/-- In a window the near one comes first. -/
theorem nearest_first_iff_smudged :
    ∃ rs, (after smudged).find (.tuple [.int 0, .int 0]) (.int 10) .none (.str "open") = .ok rs ∧
      rs.map Incident.incidentId = [.str "inc-3", .str "inc-1"] ∧ OrdinaryInOrder (.tuple [.int 0, .int 0]) rs :=
  ⟨_, rfl, rfl, (nearest_first_iff Whole.nanUnordered (after smudged) rfl (distances_isOk.mp ⟨_, rfl⟩)
    (.int 10) .none (.str "open")).mpr (.inl rfl) (after smudged) (List.Perm.refl _) _ rfl⟩

end IncidentStore

end HadrAgent
