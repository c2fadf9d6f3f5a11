import HadrAgent.Python.Order
import HadrAgent.Stores.Incidents
import HadrAgent.Stores.Reports

/-!
# Queries over the evidence

`find_reports` of `stores/reports.py`. A report is skipped by the spatial filter or by the time filter; what each one
admits is said without the loop (`Report.InReach`, `Report.InWindow`), and a query returns the reports that both admit
(`findReports_eq_ok`). So it is the common part of the two queries (`findReports_inter`), windows that meet split it
(`findReports_split`), and a new report joins the queries that admit it (`findReports_add`).
-/

namespace HadrAgent

variable {F : Type} [Runtime F]

namespace ReportStore

/-! ## The loop -/

/-- The spatial filter: whether it skips the report. -/
def outOfReach (near radius : Val F) (r : Report F) : Except Exc Bool :=
  if !near.isNone && !radius.isNone then
    if r.coords.isNone then .ok true
    else do
      let d ← Runtime.dist r.coords near
      let inside ← IncidentStore.withinRadius d radius
      return !inside
  else .ok false

/-- A time bound: whether the report is past it. -/
def past (cmp : Val F → Val F → Except Exc Bool) (tick bound : Val F) : Except Exc Bool :=
  if !bound.isNone then cmp tick bound else .ok false

/-- The time filter: whether it skips the report. -/
def outOfWindow (start stop : Val F) (r : Report F) : Except Exc Bool :=
  if !start.isNone || !stop.isNone then
    if r.tick.isNone then .ok true
    else do
      let early ← past Val.less r.tick start
      if early then return true
      past Val.greater r.tick stop
  else .ok false

/-- The body of the loop of `find_reports`: whether the report is appended. -/
def selects (near radius start stop : Val F) (r : Report F) : Except Exc Bool := do
  let far ← outOfReach near radius r
  if far then return false
  let off ← outOfWindow start stop r
  return !off

/-- The loop of `find_reports`. -/
def collect (near radius start stop : Val F) : List (Report F) → Except Exc (List (Report F))
  | [] => .ok []
  | r :: l => do
    let keep ← selects near radius start stop r
    let found ← collect near radius start stop l
    return if keep then r :: found else found

/-- `find_reports`; `stop` is its parameter `end`. -/
def findReports (s : ReportStore F) (near radius start stop : Val F) : Except Exc (List (Report F)) :=
  collect near radius start stop s.all

end ReportStore

/-! ## What the filters admit -/

/-- The spatial filter admits a report: there is none, or the report has coordinates and their distance is within the
radius. -/
def Report.InReach (near radius : Val F) (r : Report F) : Prop :=
  near.isNone ∨ radius.isNone ∨
    r.coords.isNone = false ∧ ∃ d, Runtime.dist r.coords near = .ok d ∧ IncidentStore.withinRadius d radius = .ok true

/-- The time filter admits a report: there is none, or the report has a tick, that is not before `start` and not after
`stop`. -/
def Report.InWindow (start stop : Val F) (r : Report F) : Prop :=
  start.isNone ∧ stop.isNone ∨
    r.tick.isNone = false ∧ (start.isNone = false → r.tick.less start = .ok false) ∧
      (stop.isNone = false → r.tick.greater stop = .ok false)

/-- Both filters admit a report. -/
def Report.Admitted (near radius start stop : Val F) (r : Report F) : Prop :=
  r.InReach near radius ∧ r.InWindow start stop

/-- `None` or an integer. -/
def Val.IsTick (v : Val F) : Prop := v.isNone ∨ ∃ n, v.int? = some n

instance (v : Val F) : Decidable v.IsTick :=
  decidable_of_iff (v.isNone ∨ v.int?.isSome) (or_congr_right Option.isSome_iff_exists)

/-- The spatial filter can measure a report: it is not asked to, or the distance exists and the radius is a number. -/
def Report.Measurable (near radius : Val F) (r : Report F) : Prop :=
  near.isNone ∨ radius.isNone ∨ r.coords.isNone ∨
    radius.number?.isSome ∧ ∃ d, Runtime.dist r.coords near = .ok d

namespace Report

instance (near radius : Val F) (r : Report F) : Decidable (r.InReach near radius) :=
  have : Decidable (∃ d, Runtime.dist r.coords near = .ok d ∧ IncidentStore.withinRadius d radius = .ok true) :=
    decidable_of_iff (∃ d ∈ (Runtime.dist r.coords near).toOption, IncidentStore.withinRadius d radius = .ok true)
      Except.exists_mem_toOption
  inferInstanceAs (Decidable (_ ∨ _ ∨ _ ∧ _))

instance (start stop : Val F) (r : Report F) : Decidable (r.InWindow start stop) :=
  inferInstanceAs (Decidable (_ ∨ _ ∧ (_ → _) ∧ (_ → _)))

instance (near radius start stop : Val F) (r : Report F) : Decidable (r.Admitted near radius start stop) :=
  inferInstanceAs (Decidable (_ ∧ _))

variable {near radius start stop : Val F} {r : Report F}

/-- Where a spatial filter is given, a distance that is within no radius is not admitted. -/
theorem not_inReach_of_unordered (hn : near.isNone = false) (hr : radius.isNone = false) {d : F}
    (hd : Runtime.dist r.coords near = .ok d) (hle : ∀ x : F, Runtime.le d x = false)
    (hleInt : ∀ n, Runtime.leInt d n = false) : ¬ r.InReach near radius := by
  have hout : ∀ inside, IncidentStore.withinRadius d radius = .ok inside → inside = false := by
    intro inside h
    unfold IncidentStore.withinRadius at h
    split at h
    · exact (Except.ok.inj h).symm.trans (hle _)
    · exact (Except.ok.inj h).symm.trans (hleInt _)
    · exact (Except.ok.inj h).symm.trans (hleInt _)
    · cases h
  rintro (h | h | ⟨_, e, he, h⟩)
  · rw [hn] at h
    cases h
  · rw [hr] at h
    cases h
  · obtain rfl := Except.ok.inj (hd.symm.trans he)
    cases hout true h

/-- **Bounds are inclusive**: an integer tick is admitted when it lies between the bounds given. -/
theorem inWindow_of_int {t : Int} (ht : r.tick.int? = some t) (hstart : start.IsTick) (hstop : stop.IsTick) :
    r.InWindow start stop ↔ (∀ a, start.int? = some a → a ≤ t) ∧ ∀ b, stop.int? = some b → t ≤ b := by
  have hnone : ∀ {v : Val F}, v.isNone = true → v.int? = none := by
    intro v hv
    cases v with
    | none => rfl
    | _ => cases hv
  have hlow : start.isNone = true ∨ start.isNone = false ∧ ∃ a, start.int? = some a := by
    rcases hstart with h | ⟨a, h⟩
    · exact .inl h
    · exact .inr ⟨Val.isNone_of_int? h, a, h⟩
  have hhigh : stop.isNone = true ∨ stop.isNone = false ∧ ∃ b, stop.int? = some b := by
    rcases hstop with h | ⟨b, h⟩
    · exact .inl h
    · exact .inr ⟨Val.isNone_of_int? h, b, h⟩
  have htick := Val.isNone_of_int? ht
  unfold InWindow
  rcases hlow with h | ⟨h, a, ha⟩ <;> rcases hhigh with h' | ⟨h', b, hb⟩
  · simp [h, h', hnone h, hnone h']
  · simp [h, h', htick, hnone h, hb, Val.greater_of_int ht hb]
  · simp [h, h', htick, hnone h', ha, Val.less_of_int ht ha]
  · simp [h, h', htick, ha, hb, Val.less_of_int ht ha, Val.greater_of_int ht hb]

end Report

namespace ReportStore

variable {near radius start stop : Val F} {r : Report F}

theorem outOfReach_eq_ok {far : Bool} (h : outOfReach near radius r = .ok far) :
    far = false ↔ r.InReach near radius := by
  unfold outOfReach at h
  unfold Report.InReach
  cases hn : near.isNone with
  | true =>
    rw [hn] at h
    simp [← Except.ok.inj h]
  | false =>
    cases hr : radius.isNone with
    | true =>
      rw [hn, hr] at h
      simp [← Except.ok.inj h]
    | false =>
      rw [hn, hr] at h
      cases hc : r.coords.isNone with
      | true =>
        rw [hc] at h
        simp [← Except.ok.inj h]
      | false =>
        rw [hc] at h
        obtain ⟨d, hd, h⟩ := Except.bind_eq_ok.mp h
        obtain ⟨inside, hi, h⟩ := Except.bind_eq_ok.mp h
        rw [← Except.ok.inj h, hd]
        cases inside <;> simp [hi]

omit [Runtime F] in
theorem past_eq_ok {cmp : Val F → Val F → Except Exc Bool} {tick bound : Val F} {b : Bool}
    (h : past cmp tick bound = .ok b) : b = false ↔ (bound.isNone = false → cmp tick bound = .ok false) := by
  unfold past at h
  cases hb : bound.isNone with
  | true =>
    rw [hb] at h
    simp [← Except.ok.inj h]
  | false =>
    rw [hb] at h
    simp [show cmp tick bound = .ok b from h]

theorem outOfWindow_eq_ok {off : Bool} (h : outOfWindow start stop r = .ok off) :
    off = false ↔ r.InWindow start stop := by
  unfold outOfWindow at h
  unfold Report.InWindow
  by_cases hnone : start.isNone = true ∧ stop.isNone = true
  · rw [hnone.1, hnone.2] at h
    simp [← Except.ok.inj h, hnone]
  · have hact : (!start.isNone || !stop.isNone) = true := by
      cases hs : start.isNone <;> simp_all
    rw [hact, if_pos rfl] at h
    cases ht : r.tick.isNone with
    | true =>
      rw [ht] at h
      simp [← Except.ok.inj h, hnone]
    | false =>
      rw [ht] at h
      obtain ⟨early, he, h⟩ := Except.bind_eq_ok.mp h
      rw [or_iff_right hnone, ← past_eq_ok he]
      cases early with
      | true => simp [← Except.ok.inj h]
      | false => simp [past_eq_ok h]

theorem selects_eq_ok {keep : Bool} (h : selects near radius start stop r = .ok keep) :
    keep = true ↔ r.Admitted near radius start stop := by
  obtain ⟨far, hf, h⟩ := Except.bind_eq_ok.mp h
  unfold Report.Admitted
  rw [← outOfReach_eq_ok hf]
  cases far with
  | true => simp [← Except.ok.inj h]
  | false =>
    obtain ⟨off, ho, h⟩ := Except.bind_eq_ok.mp h
    rw [← outOfWindow_eq_ok ho, ← Except.ok.inj h]
    simp

/-- The loop ends when every report can be tested. -/
theorem collect_isOk : ∀ {l : List (Report F)}, (∃ rs, collect near radius start stop l = .ok rs) ↔
    ∀ r ∈ l, ∃ keep, selects near radius start stop r = .ok keep
  | [] => ⟨fun _ => nofun, fun _ => ⟨[], rfl⟩⟩
  | r :: l => by
    constructor
    · rintro ⟨rs, h⟩ x hx
      obtain ⟨keep, hk, h⟩ := Except.bind_eq_ok.mp h
      obtain ⟨found, hf, _⟩ := Except.bind_eq_ok.mp h
      rcases List.mem_cons.mp hx with rfl | hx
      · exact ⟨keep, hk⟩
      · exact collect_isOk.mp ⟨found, hf⟩ x hx
    · intro h
      obtain ⟨keep, hk⟩ := h r List.mem_cons_self
      obtain ⟨found, hf⟩ := collect_isOk.mpr fun x hx => h x (List.mem_cons_of_mem r hx)
      exact ⟨_, Except.bind_eq_ok.mpr ⟨keep, hk, Except.bind_eq_ok.mpr ⟨found, hf, rfl⟩⟩⟩

/-- **The loop filters.** -/
theorem collect_eq_ok : ∀ {l rs : List (Report F)}, collect near radius start stop l = .ok rs →
    rs = l.filter fun r => r.Admitted near radius start stop
  | [], rs, h => (Except.ok.inj h).symm
  | r :: l, rs, h => by
    obtain ⟨keep, hk, h⟩ := Except.bind_eq_ok.mp h
    obtain ⟨found, hf, h⟩ := Except.bind_eq_ok.mp h
    rw [← Except.ok.inj h, collect_eq_ok hf]
    have hsel := selects_eq_ok hk
    cases keep with
    | true => exact (List.filter_cons_of_pos (a := r) (decide_eq_true (hsel.mp rfl))).symm
    | false => exact (List.filter_cons_of_neg (a := r) fun hd => nomatch hsel.mpr (of_decide_eq_true hd)).symm

theorem findReports_eq_ok {s : ReportStore F} {rs : List (Report F)}
    (h : s.findReports near radius start stop = .ok rs) :
    rs = s.all.filter fun r => r.Admitted near radius start stop := collect_eq_ok h

/-! ## Where a query returns -/

theorem outOfReach_isOk (h : r.Measurable near radius) : ∃ far, outOfReach near radius r = .ok far := by
  unfold outOfReach
  rcases h with h | h | h | ⟨hr, d, hd⟩
  · rw [h]
    exact ⟨false, rfl⟩
  · rw [h, Bool.not_true, Bool.and_false]
    exact ⟨false, rfl⟩
  · rw [h]
    cases !near.isNone && !radius.isNone
    · exact ⟨false, rfl⟩
    · exact ⟨true, rfl⟩
  · rw [hd]
    cases radius with
    | bool _ | int _ | float _ => cases near.isNone <;> cases r.coords.isNone <;> exact ⟨_, rfl⟩
    | _ => cases hr

theorem outOfWindow_isOk (ht : r.tick.IsTick) (hstart : start.IsTick) (hstop : stop.IsTick) :
    ∃ off, outOfWindow start stop r = .ok off := by
  have hpast : ∀ {t : Int} (bound : Val F), r.tick.int? = some t → bound.IsTick →
      (∃ b, past Val.less r.tick bound = .ok b) ∧ ∃ b, past Val.greater r.tick bound = .ok b := by
    intro t bound hi hb
    unfold past
    cases hn : bound.isNone with
    | true => exact ⟨⟨false, rfl⟩, ⟨false, rfl⟩⟩
    | false =>
      rcases hb with hb | ⟨n, hb⟩
      · rw [hn] at hb
        cases hb
      · exact ⟨⟨_, Val.less_of_int hi hb⟩, ⟨_, Val.greater_of_int hi hb⟩⟩
  unfold outOfWindow
  cases !start.isNone || !stop.isNone with
  | false => exact ⟨false, rfl⟩
  | true =>
    rcases ht with ht | ⟨t, ht⟩
    · rw [ht]
      exact ⟨true, rfl⟩
    · obtain ⟨early, he⟩ := (hpast start ht hstart).1
      obtain ⟨late, hl⟩ := (hpast stop ht hstop).2
      rw [Val.isNone_of_int? ht, he]
      cases early with
      | true => exact ⟨true, rfl⟩
      | false => exact ⟨late, hl⟩

theorem selects_isOk {far off : Bool} (hf : outOfReach near radius r = .ok far)
    (ho : outOfWindow start stop r = .ok off) : ∃ keep, selects near radius start stop r = .ok keep := by
  unfold selects
  rw [hf, ho]
  cases far <;> exact ⟨_, rfl⟩

/-! ## Queries compared -/

/-- A window between integers. -/
theorem inWindow_ints (ht : r.tick.IsTick) {m n : Int} :
    r.InWindow (.int m) (.int n) ↔ ∃ t, r.tick.int? = some t ∧ m ≤ t ∧ t ≤ n := by
  rcases ht with ht | ⟨t, ht⟩
  · constructor
    · rintro (⟨h, _⟩ | ⟨h, _⟩)
      · cases h
      · rw [ht] at h
        cases h
    · rintro ⟨t, h, _⟩
      rw [Val.isNone_of_int? h] at ht
      cases ht
  · have hint : ∀ {k l : Int}, (Val.int l : Val F).int? = some k → l = k := fun h => Option.some.inj h
    rw [Report.inWindow_of_int ht (.inr ⟨m, rfl⟩) (.inr ⟨n, rfl⟩)]
    constructor
    · exact fun h => ⟨t, ht, h.1 m rfl, h.2 n rfl⟩
    · rintro ⟨t', ht', hm, hn⟩
      obtain rfl := Option.some.inj (ht.symm.trans ht')
      exact ⟨fun a ha => hint ha ▸ hm, fun b hb => hint hb ▸ hn⟩

/-- **The combined query** is the common part of the spatial and the temporal one. -/
theorem findReports_inter {s : ReportStore F} {sp te : List (Report F)}
    (hsp : s.findReports near radius .none .none = .ok sp) (hte : s.findReports .none .none start stop = .ok te) :
    ∃ rs, s.findReports near radius start stop = .ok rs ∧ rs.Sublist sp ∧ rs.Sublist te ∧
      ∀ r, r ∈ rs ↔ r ∈ sp ∧ r ∈ te := by
  have hreach : ∀ r ∈ s.all, ∃ far, outOfReach near radius r = .ok far := by
    intro r hr
    obtain ⟨keep, hk⟩ := collect_isOk.mp ⟨sp, hsp⟩ r hr
    obtain ⟨far, hf, _⟩ := Except.bind_eq_ok.mp hk
    exact ⟨far, hf⟩
  have hwindow : ∀ r ∈ s.all, ∃ off, outOfWindow start stop r = .ok off := by
    intro r hr
    obtain ⟨keep, hk⟩ := collect_isOk.mp ⟨te, hte⟩ r hr
    obtain ⟨off, ho, _⟩ := Except.bind_eq_ok.mp (show (outOfWindow start stop r >>= _) = .ok keep from hk)
    exact ⟨off, ho⟩
  obtain ⟨rs, hrs⟩ := collect_isOk.mpr fun r hr => by
    obtain ⟨far, hf⟩ := hreach r hr
    obtain ⟨off, ho⟩ := hwindow r hr
    exact selects_isOk hf ho
  refine ⟨rs, hrs, ?_⟩
  rw [findReports_eq_ok hrs, findReports_eq_ok hsp, findReports_eq_ok hte]
  have hspatial : ∀ r : Report F, r.Admitted near radius .none .none ↔ r.InReach near radius := fun r =>
    and_iff_left (.inl ⟨rfl, rfl⟩)
  have htemporal : ∀ r : Report F, r.Admitted .none .none start stop ↔ r.InWindow start stop := fun r =>
    and_iff_right (.inl rfl)
  refine ⟨?_, ?_, fun r => ?_⟩
  · exact List.monotone_filter_right _ fun r h => decide_eq_true ((hspatial r).mpr (of_decide_eq_true h).1)
  · exact List.monotone_filter_right _ fun r h => decide_eq_true ((htemporal r).mpr (of_decide_eq_true h).2)
  · simp only [List.mem_filter, decide_eq_true_eq, hspatial, htemporal]
    exact ⟨fun ⟨hm, h⟩ => ⟨⟨hm, h.1⟩, hm, h.2⟩, fun ⟨⟨hm, h⟩, _, h'⟩ => ⟨hm, h, h'⟩⟩

/-- A query that returns, returns for every other window too. -/
theorem findReports_of_window {s : ReportStore F} (ht : ∀ r ∈ s.all, r.tick.IsTick) {rs : List (Report F)}
    (h : s.findReports near radius start stop = .ok rs) (m n : Int) :
    ∃ l, s.findReports near radius (.int m) (.int n) = .ok l := by
  refine collect_isOk.mpr fun r hr => ?_
  obtain ⟨keep, hk⟩ := collect_isOk.mp ⟨rs, h⟩ r hr
  obtain ⟨far, hf, _⟩ := Except.bind_eq_ok.mp hk
  have hint : ∀ k : Int, (Val.int k : Val F).IsTick := fun k => .inr ⟨k, rfl⟩
  obtain ⟨off, ho⟩ := outOfWindow_isOk (ht r hr) (hint m) (hint n)
  exact selects_isOk hf ho

/-- The lower part of a window. -/
theorem admitted_low {r : Report F} (ht : r.tick.IsTick) {a b c : Int} (hbc : b < c) :
    r.Admitted near radius (.int a) (.int b) ↔
      r.InWindow (.int a) (.int b) ∧ r.Admitted near radius (.int a) (.int c) := by
  unfold Report.Admitted
  rw [inWindow_ints ht, inWindow_ints ht]
  constructor
  · rintro ⟨hreach, t, ht, ha, hb⟩
    exact ⟨⟨t, ht, ha, hb⟩, hreach, t, ht, ha, by omega⟩
  · rintro ⟨hw, hreach, _⟩
    exact ⟨hreach, hw⟩

/-- The upper part of a window. -/
theorem admitted_high {r : Report F} (ht : r.tick.IsTick) {a b c : Int} (hab : a ≤ b) :
    r.Admitted near radius (.int (b + 1)) (.int c) ↔
      ¬ r.InWindow (.int a) (.int b) ∧ r.Admitted near radius (.int a) (.int c) := by
  unfold Report.Admitted
  rw [inWindow_ints ht, inWindow_ints ht, inWindow_ints ht]
  constructor
  · rintro ⟨hreach, t, ht, ha, hb⟩
    refine ⟨?_, hreach, t, ht, by omega, hb⟩
    rintro ⟨t', ht', _, hle⟩
    obtain rfl := Option.some.inj (ht.symm.trans ht')
    omega
  · rintro ⟨hout, hreach, t, ht, ha, hc⟩
    refine ⟨hreach, t, ht, ?_, hc⟩
    by_contra hlt
    exact hout ⟨t, ht, ha, by omega⟩

/-- **Windows that meet** split the window they make up. -/
theorem findReports_split {s : ReportStore F} (ht : ∀ r ∈ s.all, r.tick.IsTick) {a b c : Int} (hab : a ≤ b)
    (hbc : b < c) {rs : List (Report F)} (h : s.findReports near radius (.int a) (.int c) = .ok rs) :
    ∃ xs ys, s.findReports near radius (.int a) (.int b) = .ok xs ∧
      s.findReports near radius (.int (b + 1)) (.int c) = .ok ys ∧
      xs.Sublist rs ∧ ys.Sublist rs ∧ (xs ++ ys).Perm rs := by
  obtain ⟨xs, hxs⟩ := findReports_of_window ht h a b
  obtain ⟨ys, hys⟩ := findReports_of_window ht h (b + 1) c
  refine ⟨xs, ys, hxs, hys, ?_⟩
  have hlow : xs = rs.filter fun r => r.InWindow (.int a) (.int b) := by
    rw [findReports_eq_ok hxs, findReports_eq_ok h, List.filter_filter]
    refine List.filter_congr fun r hr => ?_
    rw [← Bool.decide_and, decide_eq_decide]
    exact admitted_low (ht r hr) hbc
  have hhigh : ys = rs.filter fun r => !decide (r.InWindow (.int a) (.int b)) := by
    rw [findReports_eq_ok hys, findReports_eq_ok h, List.filter_filter]
    refine List.filter_congr fun r hr => ?_
    rw [← decide_not, ← Bool.decide_and, decide_eq_decide]
    exact admitted_high (ht r hr) hab
  refine ⟨hlow ▸ List.filter_sublist, hhigh ▸ List.filter_sublist, ?_⟩
  rw [hlow, hhigh]
  exact List.filter_append_perm _ rs

/-- **A report of a new contact** joins the queries that admit it. -/
theorem findReports_add {s : ReportStore F} {r : Report F} (hr : s.get r.contactId = none) {rs : List (Report F)}
    (h : s.findReports near radius start stop = .ok rs) {keep : Bool}
    (hk : selects near radius start stop r = .ok keep) :
    (s.add r).2.findReports near radius start stop = .ok (if keep then rs ++ [r] else rs) := by
  have hadd : (s.add r).2 = ⟨s.byId.insert r.contactId r⟩ := by
    unfold add
    rw [show s.byId.get? r.contactId = none from hr]
  have hall : (s.add r).2.all = s.all ++ [r] := by
    show (s.add r).2.byId.items.map Prod.snd = _
    rw [hadd, OrdDict.items_insert_of_notMem (OrdDict.get?_eq_none.mp hr), List.map_append]
    rfl
  have htest : ∀ x ∈ (s.add r).2.all, ∃ keep, selects near radius start stop x = .ok keep := by
    intro x hx
    rw [hall] at hx
    rcases List.mem_append.mp hx with hx | hx
    · exact collect_isOk.mp ⟨rs, h⟩ x hx
    · obtain rfl := List.mem_singleton.mp hx
      exact ⟨keep, hk⟩
  obtain ⟨rs', hfind⟩ : ∃ rs', (s.add r).2.findReports near radius start stop = .ok rs' := collect_isOk.mpr htest
  have hsel := selects_eq_ok hk
  rw [hfind, findReports_eq_ok hfind, findReports_eq_ok h, hall, List.filter_append]
  cases keep with
  | true => rw [List.filter_cons_of_pos (a := r) (decide_eq_true (hsel.mp rfl))]; rfl
  | false => rw [List.filter_cons_of_neg (a := r) fun hd => nomatch hsel.mpr (of_decide_eq_true hd)]; simp

/-! ## Over a history -/

/-- **Queries over the evidence**, after every run of `add`s on a new store. A query returns, in the order they were
added and each contact once, the reports that both filters admit: bounds are inclusive, and a distance that is within no
radius is not admitted. With ticks and bounds that are integers or `None` and distances that exist it returns. The
combined query is the common part of the two, windows that meet split the window they make up, and a report of a new
contact is appended to the queries that admit it. -/
theorem find_reports_conjunction (reports : List (Report F)) :
    (∀ near radius start stop rs, (after reports).findReports near radius start stop = .ok rs →
      rs = ((firstOcc Report.contactId reports).filter fun r => r.Admitted near radius start stop) ∧
        (rs.map Report.contactId).Nodup) ∧
    (∀ near radius start stop, start.IsTick → stop.IsTick →
      (∀ r ∈ (after reports).all, r.tick.IsTick ∧ r.Measurable near radius) →
        ∃ rs, (after reports).findReports near radius start stop = .ok rs) ∧
    (∀ (r : Report F) start stop t, r.tick.int? = some t → start.IsTick → stop.IsTick →
      (r.InWindow start stop ↔ (∀ a, start.int? = some a → a ≤ t) ∧ ∀ b, stop.int? = some b → t ≤ b)) ∧
    (∀ (r : Report F) near radius d, near.isNone = false → radius.isNone = false →
      Runtime.dist r.coords near = .ok d → (∀ x : F, Runtime.le d x = false) → (∀ n, Runtime.leInt d n = false) →
        ¬ r.InReach near radius) ∧
    (∀ near radius start stop sp te, (after reports).findReports near radius .none .none = .ok sp →
      (after reports).findReports .none .none start stop = .ok te →
        ∃ rs, (after reports).findReports near radius start stop = .ok rs ∧ rs.Sublist sp ∧ rs.Sublist te ∧
          ∀ r, r ∈ rs ↔ r ∈ sp ∧ r ∈ te) ∧
    (∀ near radius a b c rs, a ≤ b → b < c → (∀ r ∈ (after reports).all, r.tick.IsTick) →
      (after reports).findReports near radius (.int a) (.int c) = .ok rs →
        ∃ xs ys, (after reports).findReports near radius (.int a) (.int b) = .ok xs ∧
          (after reports).findReports near radius (.int (b + 1)) (.int c) = .ok ys ∧
          xs.Sublist rs ∧ ys.Sublist rs ∧ (xs ++ ys).Perm rs) ∧
    ∀ r near radius start stop rs, (after reports).get r.contactId = none → r.tick.IsTick → start.IsTick → stop.IsTick →
      r.Measurable near radius → (after reports).findReports near radius start stop = .ok rs →
        (after (reports ++ [r])).findReports near radius start stop =
          .ok (if r.Admitted near radius start stop then rs ++ [r] else rs) := by
  have hlogs : (after reports).Logs reports := (logs_run reports Logs.empty).1
  refine ⟨fun near radius start stop rs h => ?_, fun near radius start stop hstart hstop hr => ?_,
    fun r start stop t => Report.inWindow_of_int,
    fun r near radius d hn hr hd => Report.not_inReach_of_unordered hn hr hd,
    fun near radius start stop sp te => findReports_inter,
    fun near radius a b c rs hab hbc ht => findReports_split ht hab hbc, ?_⟩
  · have hrs := findReports_eq_ok h
    rw [hlogs.all_eq] at hrs
    refine ⟨hrs, ?_⟩
    rw [hrs]
    exact (nodup_map_firstOcc reports).sublist (List.filter_sublist.map _)
  · refine collect_isOk.mpr fun r hm => ?_
    obtain ⟨far, hf⟩ := outOfReach_isOk (hr r hm).2
    obtain ⟨off, ho⟩ := outOfWindow_isOk (hr r hm).1 hstart hstop
    exact selects_isOk hf ho
  · intro r near radius start stop rs hr ht hstart hstop hm h
    obtain ⟨far, hf⟩ := outOfReach_isOk hm
    obtain ⟨off, ho⟩ := outOfWindow_isOk ht hstart hstop
    obtain ⟨keep, hk⟩ := selects_isOk hf ho
    have hrun : after (reports ++ [r]) = ((after reports).add r).2 := Runs.final_append reports [r] empty
    rw [hrun, findReports_add hr h hk]
    simp only [selects_eq_ok hk]

/-- Three reports; the second gives no place, the third no time. -/
def threeReports : List (Report Whole) :=
  [⟨"c-1", .none, .str "fire", .tuple [.int 3, .int 4], .int 5, .str ""⟩,
    ⟨"c-2", .none, .str "fire", .none, .int 6, .str ""⟩,
    ⟨"c-3", .none, .str "fire", .tuple [.int 0, .int 1], .none, .str ""⟩]

theorem find_reports_conjunction_threeReports :
    (threeReports.filter fun r => r.Admitted (.tuple [.int 0, .int 0]) (.int 5) .none .none).map Report.contactId =
        ["c-1", "c-3"] ∧
      ∃ xs ys, (after threeReports).findReports .none .none (.int 5) (.int 5) = .ok xs ∧
        (after threeReports).findReports .none .none (.int 6) (.int 9) = .ok ys ∧
        xs.Sublist (threeReports.take 2) ∧ ys.Sublist (threeReports.take 2) ∧ (xs ++ ys).Perm (threeReports.take 2) :=
  ⟨by decide, (find_reports_conjunction threeReports).2.2.2.2.2.1 .none .none 5 5 9 _ (by decide) (by decide)
    (by decide) rfl⟩

end ReportStore

end HadrAgent
