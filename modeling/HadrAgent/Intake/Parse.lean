import HadrAgent.Python.Json
import HadrAgent.Python.Text

/-!
# Parsing what the model wrote

`_parse` of `intake.py`: the JSON of an answer, or of the object in it, or a default. What `json.loads` does is
arbitrary here.

- `salvage_eq_some_iff`: the salvaged slice is what stands between the first opening and the last closing brace;
- `parse_salvages`: an object is recovered from the prose around it, and nothing else is made up.
-/

namespace HadrAgent

variable {F : Type}

namespace Intake

/-- `{"incident_type": "unknown"}`. -/
def unknownReport : Val F := .dict [("incident_type", .str "unknown")]

/-- `try: return json.loads(s)`, with `except json.JSONDecodeError:` and what comes then. -/
def tryLoads (loads : String → Except Exc (Val F)) (s : String) (otherwise : Except Exc (Val F)) :
    Except Exc (Val F) :=
  match loads s with
  | .ok v => .ok v
  | .error e => if e.cls = jsonDecodeError then otherwise else .error e

/-- `_parse`. -/
def parse (loads : String → Except Exc (Val F)) (content : Option String) : Except Exc (Val F) :=
  match content with
  | none => .ok unknownReport
  | some content =>
    if content = "" then .ok unknownReport
    else
      tryLoads loads content <|
        let start := Str.find content '{'
        let stop := Str.rfind content '}'
        if 0 ≤ start ∧ start < stop then
          tryLoads loads (Str.slice content start (stop + 1)) (.ok unknownReport)
        else .ok unknownReport

/-! ## The salvaged slice -/

/-- A text from an opening to a closing brace. -/
def IsBraced (o : String) : Prop := o.toList.head? = some '{' ∧ o.toList.getLast? = some '}'

/-- `o` is what stands in a text between its first opening and its last closing brace. -/
def IsSlice (content o : String) : Prop :=
  ∃ p s : String, content = p ++ o ++ s ∧ '{' ∉ p.toList ∧ '}' ∉ s.toList ∧ IsBraced o

/-- The slice `_parse` tries, if its guard lets it. -/
def salvage (content : String) : Option String :=
  if 0 ≤ Str.find content '{' ∧ Str.find content '{' < Str.rfind content '}' then
    some (Str.slice content (Str.find content '{') (Str.rfind content '}' + 1))
  else none

/-- A text in braces is two braces and what is between them. -/
theorem isBraced_iff {o : String} : IsBraced o ↔ ∃ m, o.toList = '{' :: m ++ ['}'] := by
  constructor
  · rintro ⟨hhead, hlast⟩
    obtain ⟨t, ht⟩ := List.getLast?_eq_some_iff.mp hlast
    rw [ht] at hhead ⊢
    cases t with
    | nil => cases hhead
    | cons c m =>
      cases hhead
      exact ⟨m, rfl⟩
  · rintro ⟨m, hm⟩
    unfold IsBraced
    rw [hm]
    exact ⟨rfl, List.getLast?_concat⟩

theorem salvage_of_isSlice {content o : String} (h : IsSlice content o) : salvage content = some o := by
  obtain ⟨p, s, rfl, hp, hs, hbraced⟩ := h
  obtain ⟨m, hm⟩ := isBraced_iff.mp hbraced
  have hlist : (p ++ o ++ s).toList = p.toList ++ o.toList ++ s.toList := by
    rw [String.toList_append, String.toList_append]
  have hstart : Str.find (p ++ o ++ s) '{' = p.toList.length := by
    refine Str.find_eq (t := m ++ ['}'] ++ s.toList) ?_ hp
    rw [hlist, hm]
    simp
  have hstop : Str.rfind (p ++ o ++ s) '}' = (p.toList ++ '{' :: m).length := by
    refine Str.rfind_eq (q := s.toList) ?_ hs
    rw [hlist, hm]
    simp
  have hlen : ((p.toList ++ '{' :: m).length : Int) + 1 = p.toList.length + o.toList.length := by
    rw [hm]
    simp only [List.length_append, List.length_cons, List.length_nil]
    omega
  have hslice := Str.slice_eq hlist
  unfold salvage
  rw [hstart, hstop, hlen, hslice, String.ofList_toList, if_pos]
  rw [List.length_append, List.length_cons]
  omega

/-- A text with an opening brace before a closing one, first and last of their kind, has a slice. -/
theorem exists_isSlice {content : String} {p m q : List Char} (h : content.toList = p ++ '{' :: m ++ '}' :: q)
    (hp : '{' ∉ p) (hq : '}' ∉ q) : ∃ o, IsSlice content o := by
  refine ⟨String.ofList ('{' :: m ++ ['}']), String.ofList p, String.ofList q, ?_, ?_, ?_, ?_⟩
  · rw [← String.toList_inj, String.toList_append, String.toList_append, String.toList_ofList, String.toList_ofList,
      String.toList_ofList, h]
    simp
  · rw [String.toList_ofList]
    exact hp
  · rw [String.toList_ofList]
    exact hq
  · exact isBraced_iff.mpr ⟨m, String.toList_ofList⟩

/-- The guard lets through a slice only if there is one. -/
theorem isSlice_of_guard {content : String}
    (h : 0 ≤ Str.find content '{' ∧ Str.find content '{' < Str.rfind content '}') : ∃ o, IsSlice content o := by
  obtain ⟨hstart, hlt⟩ := h
  have hopen : '{' ∈ content.toList := by
    by_contra hno
    rw [Str.find_eq_neg_one hno] at hstart
    omega
  have hclose : '}' ∈ content.toList := by
    by_contra hno
    rw [Str.rfind_eq_neg_one hno] at hlt
    omega
  obtain ⟨p, r, hp, hnotp⟩ := List.eq_append_cons_of_mem hopen
  obtain ⟨t, q, ht, hnotq⟩ := Str.eq_append_cons_last hclose
  rw [Str.find_eq hp hnotp, Str.rfind_eq ht hnotq] at hlt
  -- the first brace lies in what is before the last one
  have hprefix : p ++ ['{'] <+: t := by
    refine List.prefix_of_prefix_length_le ⟨r, by rw [hp]; simp⟩ ⟨_, ht.symm⟩ ?_
    rw [List.length_append, List.length_singleton]
    omega
  obtain ⟨m, rfl⟩ := hprefix
  refine exists_isSlice (m := m) (q := q) ?_ hnotp hnotq
  rw [ht]
  simp

/-- **The salvaged slice** is the one from the first opening to the last closing brace. -/
theorem salvage_eq_some_iff {content o : String} : salvage content = some o ↔ IsSlice content o := by
  constructor
  · intro h
    unfold salvage at h
    split at h
    · next hguard =>
      obtain ⟨o', ho'⟩ := isSlice_of_guard hguard
      have hsalvage := salvage_of_isSlice ho'
      unfold salvage at hsalvage
      rw [if_pos hguard] at hsalvage
      rw [hsalvage] at h
      exact Option.some.inj h ▸ ho'
    · cases h
  · exact salvage_of_isSlice

/-- A text has no such slice when a cut leaves the opening braces behind it and the closing ones before it. -/
theorem no_slice_iff {content : String} :
    (¬ ∃ o, IsSlice content o) ↔ ∃ u v : String, content = u ++ v ∧ '{' ∉ u.toList ∧ '}' ∉ v.toList := by
  constructor
  · intro hno
    by_cases hclose : '}' ∈ content.toList
    · obtain ⟨t, q, ht, hnotq⟩ := Str.eq_append_cons_last hclose
      refine ⟨String.ofList (t ++ ['}']), String.ofList q, ?_, ?_, ?_⟩
      · rw [← String.toList_inj, String.toList_append, String.toList_ofList, String.toList_ofList, ht]
        simp
      · rw [String.toList_ofList]
        intro hmem
        rcases List.mem_append.mp hmem with hmem | hmem
        · obtain ⟨p, m, rfl, hnotp⟩ := List.eq_append_cons_of_mem hmem
          exact hno (exists_isSlice ht hnotp hnotq)
        · exact absurd (List.mem_singleton.mp hmem) (by decide)
      · rw [String.toList_ofList]
        exact hnotq
    · exact ⟨"", content, String.empty_append.symm, List.not_mem_nil, hclose⟩
  · rintro ⟨u, v, rfl, hu, hv⟩ ⟨o, p, s, h, -, -, hbraced⟩
    obtain ⟨m, hm⟩ := isBraced_iff.mp hbraced
    have hlist : u.toList ++ v.toList = p.toList ++ '{' :: (m ++ '}' :: s.toList) := by
      rw [← String.toList_append, h, String.toList_append, String.toList_append, hm]
      simp
    have hclose : '}' ∈ m ++ '}' :: s.toList := List.mem_append_right m List.mem_cons_self
    rcases List.append_eq_append_iff.mp hlist with ⟨a, -, hright⟩ | ⟨a, hleft, hright⟩
    · refine hv ?_
      rw [hright]
      exact List.mem_append_right a (List.mem_cons_of_mem _ hclose)
    · cases a with
      | nil =>
        refine hv ?_
        rw [List.nil_append] at hright
        rw [← hright]
        exact List.mem_cons_of_mem _ hclose
      | cons c a =>
        obtain ⟨rfl, -⟩ := List.cons.inj hright
        refine hu ?_
        rw [hleft]
        exact List.mem_append_right _ List.mem_cons_self

/-! ## What is parsed -/

/-- `json.loads` raises `JSONDecodeError` at a text. -/
def Rejects (loads : String → Except Exc (Val F)) (s : String) : Prop :=
  ∃ e, loads s = .error e ∧ e.cls = jsonDecodeError

section Parse

variable {loads : String → Except Exc (Val F)}

theorem tryLoads_of_ok {s : String} {v : Val F} (h : loads s = .ok v) (otherwise : Except Exc (Val F)) :
    tryLoads loads s otherwise = .ok v := by
  unfold tryLoads
  rw [h]

theorem tryLoads_of_rejects {s : String} (h : Rejects loads s) (otherwise : Except Exc (Val F)) :
    tryLoads loads s otherwise = otherwise := by
  obtain ⟨e, he, hcls⟩ := h
  unfold tryLoads
  rw [he]
  exact if_pos hcls

theorem parse_of_ok {content : String} {v : Val F} (hne : content ≠ "") (h : loads content = .ok v) :
    parse loads (some content) = .ok v := by
  unfold parse
  simp only [if_neg hne]
  exact tryLoads_of_ok h _

/-- A text that is rejected is parsed by its slice. -/
theorem parse_of_rejects {content : String} (hne : content ≠ "") (h : Rejects loads content) :
    parse loads (some content) = match salvage content with
      | some o => tryLoads loads o (.ok unknownReport)
      | none => .ok unknownReport := by
  unfold parse salvage
  simp only [if_neg hne]
  rw [tryLoads_of_rejects h]
  split <;> rfl

end Parse

theorem ne_empty_of_isSlice {content o : String} (h : IsSlice content o) : content ≠ "" := by
  rintro rfl
  obtain ⟨p, s, h, -, -, hbraced⟩ := h
  obtain ⟨m, hm⟩ := isBraced_iff.mp hbraced
  have hlist := congrArg String.toList h
  rw [String.toList_append, String.toList_append, hm] at hlist
  simp at hlist

/-- **Salvage** recovers the object that prose is wrapped around; a text that has no slice from an opening to a closing
brace, or one that is rejected, gives the default. -/
theorem parse_salvages (loads : String → Except Exc (Val F)) :
    (∀ (p o s : String) (v : Val F), '{' ∉ p.toList → '}' ∉ s.toList → o.toList.head? = some '{' →
      o.toList.getLast? = some '}' → loads o = .ok v → Rejects loads (p ++ o ++ s) →
        parse loads (some (p ++ o ++ s)) = .ok v) ∧
    (∀ content : String, content ≠ "" → Rejects loads content →
      (∃ u v : String, content = u ++ v ∧ '{' ∉ u.toList ∧ '}' ∉ v.toList) ∨
        (∃ p o s : String, content = p ++ o ++ s ∧ '{' ∉ p.toList ∧ '}' ∉ s.toList ∧ o.toList.head? = some '{' ∧
          o.toList.getLast? = some '}' ∧ Rejects loads o) →
        parse loads (some content) = .ok unknownReport) ∧
    ∀ content : String, (∃ u v : String, content = u ++ v ∧ '{' ∉ u.toList ∧ '}' ∉ v.toList) ↔
      ¬ ∃ p o s : String, content = p ++ o ++ s ∧ '{' ∉ p.toList ∧ '}' ∉ s.toList ∧ o.toList.head? = some '{' ∧
        o.toList.getLast? = some '}' := by
  refine ⟨?_, ?_, ?_⟩
  · intro p o s v hp hs hhead hlast hv hrejects
    have hslice : IsSlice (p ++ o ++ s) o := ⟨p, s, rfl, hp, hs, hhead, hlast⟩
    rw [parse_of_rejects (ne_empty_of_isSlice hslice) hrejects, salvage_of_isSlice hslice]
    exact tryLoads_of_ok hv _
  · intro content hne hrejects h
    rw [parse_of_rejects hne hrejects]
    rcases h with hcut | ⟨p, o, s, hcontent, hp, hs, hhead, hlast, ho⟩
    · have hnone : salvage content = none := by
        rw [Option.eq_none_iff_forall_ne_some]
        intro o ho
        exact no_slice_iff.mpr hcut ⟨o, salvage_eq_some_iff.mp ho⟩
      rw [hnone]
    · rw [salvage_of_isSlice ⟨p, s, hcontent, hp, hs, hhead, hlast⟩]
      exact tryLoads_of_rejects ho _
  · intro content
    rw [← no_slice_iff]
    refine not_congr ?_
    constructor
    · rintro ⟨o, p, s, h⟩
      exact ⟨p, o, s, h⟩
    · rintro ⟨p, o, s, h⟩
      exact ⟨o, p, s, h⟩

end Intake

end HadrAgent
