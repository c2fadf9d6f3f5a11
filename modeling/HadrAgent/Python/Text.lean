import Mathlib.Data.List.DropRight

/-!
# Python strings

`str.find` and `str.rfind` of one character, slices, `str.strip`. What `str.isalpha` and `str.islower` look up is a
parameter (`CharTable`) of which only the ASCII part is fixed.
-/

namespace HadrAgent

namespace Str

/-- `s.find(c)`. -/
def find (s : String) (c : Char) : Int :=
  match s.toList.idxOf? c with
  | some i => i
  | none => -1

/-- `s.rfind(c)`. -/
def rfind (s : String) (c : Char) : Int :=
  match s.toList.reverse.idxOf? c with
  | some i => s.toList.length - 1 - i
  | none => -1

/-- An index of a slice, for a text of `n` characters. -/
def sliceIndex (n : Nat) (i : Int) : Nat := (min (if i < 0 then max (i + n) 0 else i) n).toNat

/-- `s[i:j]`. -/
def slice (s : String) (i j : Int) : String :=
  String.ofList ((s.toList.take (sliceIndex s.toList.length j)).drop (sliceIndex s.toList.length i))

/-- The code points that `str.strip` takes for whitespace. -/
def isspace (c : Char) : Bool :=
  let n := c.toNat
  (9 ≤ n && n ≤ 13) || (28 ≤ n && n ≤ 32) || n = 0x85 || n = 0xA0 || n = 0x1680 || (0x2000 ≤ n && n ≤ 0x200A) ||
    n = 0x2028 || n = 0x2029 || n = 0x202F || n = 0x205F || n = 0x3000

/-- `s.strip()`. -/
def strip (s : String) : String := String.ofList ((s.toList.dropWhile isspace).rdropWhile isspace)

/-! ## First and last occurrences -/

theorem idxOf?_append_cons {c : Char} {p : List Char} (hc : c ∉ p) (t : List Char) :
    (p ++ c :: t).idxOf? c = some p.length := by
  induction p with
  | nil => simp [List.idxOf?_cons]
  | cons d p ih =>
    obtain ⟨hne, hp⟩ := not_or.mp (mt List.mem_cons.mpr hc)
    rw [List.cons_append, List.idxOf?_cons, ih hp]
    simp [Ne.symm hne]

theorem eq_append_cons_last {c : Char} {l : List Char} (h : c ∈ l) : ∃ t q, l = t ++ c :: q ∧ c ∉ q := by
  obtain ⟨q, t, hq, hnotq⟩ := List.eq_append_cons_of_mem (List.mem_reverse.mpr h)
  refine ⟨t.reverse, q.reverse, ?_, mt List.mem_reverse.mp hnotq⟩
  rw [← List.reverse_reverse l, hq, List.reverse_append, List.reverse_cons, List.append_assoc, List.singleton_append]

theorem find_eq {s : String} {c : Char} {p t : List Char} (h : s.toList = p ++ c :: t) (hc : c ∉ p) :
    find s c = p.length := by
  unfold find
  rw [h, idxOf?_append_cons hc]

theorem find_eq_neg_one {s : String} {c : Char} (h : c ∉ s.toList) : find s c = -1 := by
  unfold find
  rw [List.idxOf?_eq_none_iff.mpr h]

theorem rfind_eq {s : String} {c : Char} {t q : List Char} (h : s.toList = t ++ c :: q) (hc : c ∉ q) :
    rfind s c = t.length := by
  have hrev : s.toList.reverse = q.reverse ++ c :: t.reverse := by
    rw [h, List.reverse_append, List.reverse_cons, List.append_assoc, List.singleton_append]
  unfold rfind
  rw [hrev, idxOf?_append_cons (mt List.mem_reverse.mp hc), h]
  simp only [List.length_append, List.length_cons, List.length_reverse]
  omega

theorem rfind_eq_neg_one {s : String} {c : Char} (h : c ∉ s.toList) : rfind s c = -1 := by
  unfold rfind
  rw [List.idxOf?_eq_none_iff.mpr (mt List.mem_reverse.mp h)]

theorem sliceIndex_of_le {n i : Nat} (h : i ≤ n) : sliceIndex n i = i := by
  unfold sliceIndex
  rw [if_neg (by omega)]
  omega

/-- The slice of a middle part. -/
theorem slice_eq {s : String} {p o q : List Char} (h : s.toList = p ++ o ++ q) :
    slice s p.length (p.length + o.length) = String.ofList o := by
  have hlen : s.toList.length = p.length + o.length + q.length := by
    rw [h, List.length_append, List.length_append]
  have hstart : sliceIndex s.toList.length (p.length : Int) = p.length := sliceIndex_of_le (by omega)
  have hstop : sliceIndex s.toList.length ((p.length : Int) + o.length) = p.length + o.length :=
    sliceIndex_of_le (i := p.length + o.length) (by omega)
  unfold slice
  rw [hstart, hstop, h, List.take_left' (List.length_append ..), List.drop_left]

end Str

/-- What `str.isalpha` and `str.islower` say of a character. -/
structure CharTable where
  isalpha : Char → Bool
  islower : Char → Bool
  isalpha_ascii : ∀ c : Char, c.toNat < 128 →
    (isalpha c = true ↔ 65 ≤ c.toNat ∧ c.toNat ≤ 90 ∨ 97 ≤ c.toNat ∧ c.toNat ≤ 122)
  islower_ascii : ∀ c : Char, c.toNat < 128 → (islower c = true ↔ 97 ≤ c.toNat ∧ c.toNat ≤ 122)

end HadrAgent
