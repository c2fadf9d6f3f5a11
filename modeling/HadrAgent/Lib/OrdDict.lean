import Mathlib.Data.List.Nodup
import Mathlib.Data.List.Basic
import Mathlib.Data.Option.Basic

/-!
# Insertion-ordered dictionaries

A dictionary as scripting languages have it: a finite map whose keys keep the order in which they were first stored.

- `insert` rewrites a present key in place and appends a new one (`keys_insert_of_mem`, `items_insert_of_notMem`);
- two dictionaries with the same key order and the same lookups are equal (`ext_get?`);
- `act` runs an operation on the cell of one key and leaves every other cell alone. Operations on different keys
  commute, answers included (`act_comm`).
-/

/-- A finite map with its keys in the order of first insertion. -/
structure OrdDict (κ α : Type*) where
  items : List (κ × α)
  nodup : (items.map Prod.fst).Nodup

namespace OrdDict

variable {κ α β : Type*}

theorem ext_items {d d' : OrdDict κ α} (h : d.items = d'.items) : d = d' := by
  cases d; cases d'; cases h; rfl

/-- The dictionary without keys. -/
def empty : OrdDict κ α := ⟨[], List.nodup_nil⟩

/-- The keys, in insertion order. -/
def keys (d : OrdDict κ α) : List κ := d.items.map Prod.fst

/-- The values, in insertion order of their keys. -/
def values (d : OrdDict κ α) : List α := d.items.map Prod.snd

@[simp] theorem items_empty : (empty : OrdDict κ α).items = [] := rfl

@[simp] theorem keys_empty : (empty : OrdDict κ α).keys = [] := rfl

@[simp] theorem values_empty : (empty : OrdDict κ α).values = [] := rfl

theorem keys_nodup (d : OrdDict κ α) : d.keys.Nodup := d.nodup

/-- The items whose key and value satisfy `p`. -/
def filter (p : κ × α → Bool) (d : OrdDict κ α) : OrdDict κ α :=
  ⟨d.items.filter p, d.nodup.sublist (List.filter_sublist.map _)⟩

@[simp] theorem items_filter (p : κ × α → Bool) (d : OrdDict κ α) : (d.filter p).items = d.items.filter p := rfl

/-- The dictionary with `f` applied to its values. -/
def map (f : α → β) (d : OrdDict κ α) : OrdDict κ β where
  items := d.items.map fun p => (p.1, f p.2)
  nodup := by
    rw [List.map_map]
    exact d.nodup

@[simp] theorem items_map (f : α → β) (d : OrdDict κ α) : (d.map f).items = d.items.map fun p => (p.1, f p.2) := rfl

@[simp] theorem keys_map (f : α → β) (d : OrdDict κ α) : (d.map f).keys = d.keys := List.map_map

variable [DecidableEq κ]

/-- The value stored under `k`. -/
def get? (d : OrdDict κ α) (k : κ) : Option α := d.items.lookup k

@[simp] theorem get?_empty (k : κ) : (empty : OrdDict κ α).get? k = none := rfl

theorem lookup_cons_ite (k k' : κ) (v : α) (l : List (κ × α)) :
    ((k', v) :: l).lookup k = if k = k' then some v else l.lookup k := by
  rw [List.lookup_cons]
  by_cases e : k = k'
  · simp [e]
  · simp [e, beq_false_of_ne e]

theorem lookup_eq_none_iff_notMem {l : List (κ × α)} {k : κ} : l.lookup k = none ↔ k ∉ l.map Prod.fst := by
  induction l with
  | nil => simp
  | cons p l ih =>
    obtain ⟨k', v⟩ := p
    rw [lookup_cons_ite]
    by_cases e : k = k' <;> simp [e, ih]

theorem get?_eq_none {d : OrdDict κ α} {k : κ} : d.get? k = none ↔ k ∉ d.keys := lookup_eq_none_iff_notMem

theorem get?_isSome {d : OrdDict κ α} {k : κ} : (d.get? k).isSome ↔ k ∈ d.keys := by
  rw [Option.isSome_iff_ne_none, ne_eq, get?_eq_none, not_not]

theorem mem_keys_of_get? {d : OrdDict κ α} {k : κ} {v : α} (h : d.get? k = some v) : k ∈ d.keys :=
  get?_isSome.mp (by rw [h]; rfl)

theorem exists_get?_of_mem {d : OrdDict κ α} {k : κ} (h : k ∈ d.keys) : ∃ v, d.get? k = some v :=
  Option.isSome_iff_exists.mp (get?_isSome.mpr h)

/-- Lookup in a list of pairs with distinct keys finds every pair. -/
theorem lookup_eq_some_iff_mem : ∀ {l : List (κ × α)}, (l.map Prod.fst).Nodup → ∀ {k : κ} {v : α},
    l.lookup k = some v ↔ (k, v) ∈ l
  | [], _, _, _ => by simp
  | (k', v') :: l, h, k, v => by
    simp only [List.map_cons, List.nodup_cons] at h
    rw [lookup_cons_ite, List.mem_cons, Prod.mk.injEq]
    by_cases e : k = k'
    · subst e
      have hk : (k, v) ∉ l := fun hm => h.1 (List.mem_map.mpr ⟨_, hm, rfl⟩)
      simp [hk, eq_comm]
    · simp [e, lookup_eq_some_iff_mem h.2]

theorem get?_eq_some {d : OrdDict κ α} {k : κ} {v : α} : d.get? k = some v ↔ (k, v) ∈ d.items :=
  lookup_eq_some_iff_mem d.nodup

theorem mem_values_of_get? {d : OrdDict κ α} {k : κ} {v : α} (h : d.get? k = some v) : v ∈ d.values :=
  List.mem_map.mpr ⟨_, get?_eq_some.mp h, rfl⟩

theorem exists_get?_of_mem_values {d : OrdDict κ α} {v : α} (h : v ∈ d.values) : ∃ k, d.get? k = some v := by
  obtain ⟨⟨k, v'⟩, hm, rfl⟩ := List.mem_map.mp h
  exact ⟨k, get?_eq_some.mpr hm⟩

theorem get?_filter (p : κ × α → Bool) (d : OrdDict κ α) (k : κ) :
    (d.filter p).get? k = (d.get? k).filter fun v => p (k, v) := by
  cases hg : d.get? k with
  | none =>
    rw [get?_eq_none] at hg
    exact get?_eq_none.mpr fun hm => hg ((List.filter_sublist.map Prod.fst).subset hm)
  | some v =>
    have hv := get?_eq_some.mp hg
    cases hp : p (k, v) with
    | true =>
      rw [Option.filter_some, if_pos hp]
      exact get?_eq_some.mpr (List.mem_filter.mpr ⟨hv, hp⟩)
    | false =>
      rw [Option.filter_some, if_neg (by simp [hp]), get?_eq_none]
      intro hm
      obtain ⟨⟨k', v'⟩, hm', rfl⟩ := List.mem_map.mp hm
      obtain ⟨hm', hp'⟩ := List.mem_filter.mp hm'
      obtain rfl := Option.some.inj (hg.symm.trans (get?_eq_some.mpr hm'))
      rw [hp] at hp'
      cases hp'

/-- The values are the lookups of the keys, in order. -/
theorem map_get?_keys (d : OrdDict κ α) : d.keys.map d.get? = d.values.map some := by
  simp only [keys, values, List.map_map]
  refine List.map_congr_left fun p hp => ?_
  simpa using get?_eq_some.mpr hp

/-- Key order and lookups determine a dictionary. -/
theorem ext_get? {d d' : OrdDict κ α} (hk : d.keys = d'.keys) (hg : ∀ k, d.get? k = d'.get? k) : d = d' := by
  apply ext_items
  have hv : d.values = d'.values := by
    have h := map_get?_keys d
    rw [hk, funext hg, map_get?_keys d'] at h
    exact (List.map_injective_iff.mpr (fun _ _ => Option.some.inj) h).symm
  have hz : ∀ e : OrdDict κ α, e.items = e.keys.zip e.values := fun e => by
    rw [keys, values, ← List.unzip_fst, ← List.unzip_snd, List.zip_unzip]
  rw [hz d, hz d', hk, hv]

/-! ## Writing -/

/-- `l[k] = v` on a list of pairs. -/
def setItem (k : κ) (v : α) : List (κ × α) → List (κ × α)
  | [] => [(k, v)]
  | p :: l => if p.1 = k then (k, v) :: l else p :: setItem k v l

theorem map_fst_setItem (k : κ) (v : α) : ∀ l : List (κ × α),
    (setItem k v l).map Prod.fst = if k ∈ l.map Prod.fst then l.map Prod.fst else l.map Prod.fst ++ [k]
  | [] => rfl
  | p :: l => by
    by_cases e : p.1 = k
    · simp [setItem, e]
    · have := map_fst_setItem k v l
      simp only [setItem, e, ↓reduceIte, List.map_cons, this, List.mem_cons, Ne.symm e, false_or]
      split <;> rfl

theorem lookup_setItem (k : κ) (v : α) (k' : κ) : ∀ l : List (κ × α),
    (setItem k v l).lookup k' = if k' = k then some v else l.lookup k'
  | [] => lookup_cons_ite k' k v []
  | (k₀, v₀) :: l => by
    by_cases e : k₀ = k
    · subst e
      by_cases e' : k' = k₀ <;> simp [setItem, lookup_cons_ite, e']
    · by_cases e' : k' = k₀
      · simp [setItem, e, e']
      · simp [setItem, lookup_cons_ite, e, e', lookup_setItem k v k' l]

/-- `d[k] = v`: a present key keeps its place, a new key goes last. -/
def insert (d : OrdDict κ α) (k : κ) (v : α) : OrdDict κ α where
  items := setItem k v d.items
  nodup := by
    rw [map_fst_setItem]
    split
    · exact d.nodup
    · next h => exact List.nodup_append.mpr ⟨d.nodup, List.nodup_singleton _, fun a ha b hb => by
        rw [List.mem_singleton] at hb; subst hb; exact fun e => h (e ▸ ha)⟩

theorem keys_insert (d : OrdDict κ α) (k : κ) (v : α) :
    (d.insert k v).keys = if k ∈ d.keys then d.keys else d.keys ++ [k] := map_fst_setItem k v d.items

theorem keys_insert_of_mem {d : OrdDict κ α} {k : κ} (h : k ∈ d.keys) (v : α) : (d.insert k v).keys = d.keys := by
  rw [keys_insert, if_pos h]

theorem keys_insert_of_notMem {d : OrdDict κ α} {k : κ} (h : k ∉ d.keys) (v : α) :
    (d.insert k v).keys = d.keys ++ [k] := by
  rw [keys_insert, if_neg h]

theorem get?_insert (d : OrdDict κ α) (k : κ) (v : α) (k' : κ) :
    (d.insert k v).get? k' = if k' = k then some v else d.get? k' := lookup_setItem k v k' d.items

@[simp] theorem get?_insert_self (d : OrdDict κ α) (k : κ) (v : α) : (d.insert k v).get? k = some v := by
  simp [get?_insert]

theorem get?_insert_of_ne (d : OrdDict κ α) {k k' : κ} (v : α) (h : k' ≠ k) : (d.insert k v).get? k' = d.get? k' := by
  simp [get?_insert, h]

theorem items_insert_of_notMem {d : OrdDict κ α} {k : κ} (h : k ∉ d.keys) (v : α) :
    (d.insert k v).items = d.items ++ [(k, v)] := by
  have key : ∀ l : List (κ × α), k ∉ l.map Prod.fst → setItem k v l = l ++ [(k, v)] := by
    intro l
    induction l with
    | nil => intro _; rfl
    | cons p l ih =>
      intro hk
      simp only [List.map_cons, List.mem_cons, not_or] at hk
      simp [setItem, Ne.symm hk.1, ih hk.2]
  exact key _ h

theorem values_insert_of_notMem {d : OrdDict κ α} {k : κ} (h : k ∉ d.keys) (v : α) :
    (d.insert k v).values = d.values ++ [v] := by
  simp [values, items_insert_of_notMem h]

/-- Writing back the stored value changes nothing. -/
theorem insert_eq_self {d : OrdDict κ α} {k : κ} {v : α} (h : d.get? k = some v) : d.insert k v = d := by
  refine ext_get? (keys_insert_of_mem (mem_keys_of_get? h) v) fun k' => ?_
  rw [get?_insert]
  split
  · next e => rw [e, h]
  · rfl

/-- The values of a dictionary after a rewrite in place: the cell of `k` is replaced where it stands. -/
theorem values_insert_of_get? {d : OrdDict κ α} {k : κ} {v : α} (h : d.get? k = some v) (v' : α) :
    ∃ l r, d.items = l ++ (k, v) :: r ∧ (d.insert k v').items = l ++ (k, v') :: r := by
  obtain ⟨l, r, hlr⟩ := List.append_of_mem (get?_eq_some.mp h)
  have hk : k ∉ l.map Prod.fst := by
    have hn := d.nodup
    rw [hlr, List.map_append, List.map_cons, List.nodup_append] at hn
    exact fun hm => hn.2.2 k hm k List.mem_cons_self rfl
  have key : ∀ l : List (κ × α), k ∉ l.map Prod.fst → setItem k v' (l ++ (k, v) :: r) = l ++ (k, v') :: r := by
    intro l
    induction l with
    | nil => intro _; simp [setItem]
    | cons p l ih =>
      intro hk
      simp only [List.map_cons, List.mem_cons, not_or] at hk
      simp [setItem, Ne.symm hk.1, ih hk.2]
  refine ⟨l, r, hlr, ?_⟩
  show setItem k v' d.items = _
  rw [hlr, key l hk]

/-! ## Mapping the values -/

@[simp] theorem get?_map (f : α → β) (d : OrdDict κ α) (k : κ) : (d.map f).get? k = (d.get? k).map f := by
  show (d.items.map _).lookup k = (d.items.lookup k).map f
  induction d.items with
  | nil => rfl
  | cons p l ih =>
    rw [List.map_cons, lookup_cons_ite, lookup_cons_ite, ih]
    split <;> rfl

/-- **A write under a mapping**: where `g` maps every other value as `f` does. -/
theorem map_insert {f g : α → β} {d : OrdDict κ α} {k : κ} (v : α)
    (h : ∀ k' v', k' ≠ k → d.get? k' = some v' → g v' = f v') : (d.insert k v).map g = (d.map f).insert k (g v) := by
  refine ext_get? (by simp only [keys_map, keys_insert]) fun k' => ?_
  rw [get?_map, get?_insert, get?_insert, get?_map]
  split
  · rfl
  · next hne =>
    cases hv : d.get? k' with
    | none => rfl
    | some v' => exact congrArg some (h k' v' hne hv)

/-- A dictionary display: the pairs are stored one after the other. -/
def ofList (l : List (κ × α)) : OrdDict κ α := l.foldl (fun d p => d.insert p.1 p.2) empty

/-- Pairs with different keys are stored as they come. -/
theorem items_ofList {l : List (κ × α)} (h : (l.map Prod.fst).Nodup) : (ofList l).items = l := by
  have key : ∀ (l : List (κ × α)) (d : OrdDict κ α), (d.keys ++ l.map Prod.fst).Nodup →
      (l.foldl (fun d p => d.insert p.1 p.2) d).items = d.items ++ l := by
    intro l
    induction l with
    | nil => exact fun d _ => (List.append_nil d.items).symm
    | cons p l ih =>
      intro d hd
      have hnew : p.1 ∉ d.keys := by
        intro hmem
        exact (List.nodup_append.mp hd).2.2 _ hmem _ List.mem_cons_self rfl
      have hkeys : (d.insert p.1 p.2).keys = d.keys ++ [p.1] := keys_insert_of_notMem hnew p.2
      rw [List.foldl_cons, ih, items_insert_of_notMem hnew, List.append_assoc, List.singleton_append]
      rw [hkeys, List.append_assoc]
      exact hd
  exact key l empty h

/-! ## Operations on one cell -/

/-- Run `f` on the cell of `k`; without such a cell answer `absent` and change nothing. -/
def act (d : OrdDict κ α) (k : κ) (absent : β) (f : α → β × α) : β × OrdDict κ α :=
  match d.get? k with
  | none => (absent, d)
  | some v => ((f v).1, d.insert k (f v).2)

theorem keys_act (d : OrdDict κ α) (k : κ) (absent : β) (f : α → β × α) : (d.act k absent f).2.keys = d.keys := by
  unfold act
  cases h : d.get? k with
  | none => rfl
  | some v => exact keys_insert_of_mem (mem_keys_of_get? h) _

/-- The cell of `k` after an operation on `k`. -/
theorem get?_act_self (d : OrdDict κ α) (k : κ) (absent : β) (f : α → β × α) :
    (d.act k absent f).2.get? k = (d.get? k).map fun v => (f v).2 := by
  unfold act
  cases h : d.get? k with
  | none => exact h
  | some v => simp

/-- The frame of an operation on `k`: every other cell. -/
theorem get?_act_of_ne (d : OrdDict κ α) {k k' : κ} (absent : β) (f : α → β × α) (hne : k' ≠ k) :
    (d.act k absent f).2.get? k' = d.get? k' := by
  unfold act
  cases h : d.get? k with
  | none => rfl
  | some v => exact get?_insert_of_ne d _ hne

/-- The answer of an operation depends on its own cell only. -/
theorem fst_act_congr {d d' : OrdDict κ α} {k : κ} (h : d.get? k = d'.get? k) (absent : β) (f : α → β × α) :
    (d.act k absent f).1 = (d'.act k absent f).1 := by
  unfold act
  rw [h]
  cases d'.get? k <;> rfl

/-- **Operations on different cells commute**: the same dictionary, the same answers. -/
theorem act_comm (d : OrdDict κ α) {k₁ k₂ : κ} (hne : k₁ ≠ k₂) (a₁ a₂ : β) (f₁ f₂ : α → β × α) :
    ((d.act k₁ a₁ f₁).2.act k₂ a₂ f₂).2 = ((d.act k₂ a₂ f₂).2.act k₁ a₁ f₁).2 ∧
      ((d.act k₁ a₁ f₁).2.act k₂ a₂ f₂).1 = (d.act k₂ a₂ f₂).1 ∧
      ((d.act k₂ a₂ f₂).2.act k₁ a₁ f₁).1 = (d.act k₁ a₁ f₁).1 := by
  have h₁ := get?_act_of_ne d a₁ f₁ hne.symm
  have h₂ := get?_act_of_ne d a₂ f₂ hne
  refine ⟨ext_get? (by simp only [keys_act]) fun k => ?_, fst_act_congr h₁ a₂ f₂, fst_act_congr h₂ a₁ f₁⟩
  by_cases e₁ : k = k₁
  · subst e₁
    rw [get?_act_of_ne _ a₂ f₂ hne, get?_act_self, get?_act_self, h₂]
  · by_cases e₂ : k = k₂
    · subst e₂
      rw [get?_act_of_ne _ a₁ f₁ e₁, get?_act_self, get?_act_self, h₁]
    · rw [get?_act_of_ne _ a₂ f₂ e₂, get?_act_of_ne _ a₁ f₁ e₁, get?_act_of_ne _ a₁ f₁ e₁,
        get?_act_of_ne _ a₂ f₂ e₂]

end OrdDict
