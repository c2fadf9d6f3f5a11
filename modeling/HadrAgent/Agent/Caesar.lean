import HadrAgent.Python.Text

/-!
# The Caesar shift

`_caesar` of `agent.py`, behind the tools `secret_message` and `decode`. It shifts what `isalpha` accepts, but in an
alphabet of 26 letters.

- `caesarChar_ascii`: an ASCII letter becomes one of its case, and comes back;
- `toNat_caesarChar_lt`: every letter becomes an ASCII letter, so a letter outside of ASCII does not come back;
- `caesar_caesar_iff`: the texts that come back.
-/

namespace HadrAgent

section Model

variable (table : CharTable)

/-- `ord` of the first letter of the alphabet that `_caesar` takes for a letter. -/
def caesarBase (c : Char) : Int := if table.islower c then 97 else 65

/-- What `_caesar` appends for one character. -/
def caesarChar (shift : Int) (c : Char) : Char :=
  if table.isalpha c then
    Char.ofNat ((((c.toNat : Int) - caesarBase table c + shift) % 26 + caesarBase table c).toNat)
  else c

/-- `_caesar`. -/
def caesar (text : String) (shift : Int) : String := String.ofList (text.toList.map (caesarChar table shift))

end Model

variable {table : CharTable}

theorem toNat_ofNat_of_lt {n : Nat} (h : n < 128) : (Char.ofNat n).toNat = n := by
  have hv : n.isValidChar := .inl (by omega)
  unfold Char.ofNat
  rw [dif_pos hv]
  rfl

theorem caesarBase_cases (table : CharTable) (c : Char) : caesarBase table c = 97 ∨ caesarBase table c = 65 := by
  unfold caesarBase
  split
  · exact .inl rfl
  · exact .inr rfl

theorem caesarChar_of_not_alpha {c : Char} (h : table.isalpha c = false) (shift : Int) :
    caesarChar table shift c = c := by
  unfold caesarChar
  rw [h, if_neg Bool.false_ne_true]

/-- The code point of a shifted letter. -/
theorem toNat_caesarChar {c : Char} (h : table.isalpha c = true) (shift : Int) :
    ((caesarChar table shift c).toNat : Int) =
      ((c.toNat : Int) - caesarBase table c + shift) % 26 + caesarBase table c := by
  have hbase := caesarBase_cases table c
  unfold caesarChar
  rw [if_pos h, toNat_ofNat_of_lt (by omega)]
  omega

/-- **A shifted letter is an ASCII letter.** -/
theorem toNat_caesarChar_lt {c : Char} (h : table.isalpha c = true) (shift : Int) :
    (caesarChar table shift c).toNat < 128 := by
  have hbase := caesarBase_cases table c
  have hn := toNat_caesarChar h shift
  omega

/-- An ASCII letter is in the alphabet of its base. -/
theorem alphabet_of_ascii {c : Char} (h : table.isalpha c = true) (hc : c.toNat < 128) :
    caesarBase table c ≤ c.toNat ∧ (c.toNat : Int) < caesarBase table c + 26 := by
  have halpha := (table.isalpha_ascii c hc).mp h
  unfold caesarBase
  split
  · next hl =>
    have hlower := (table.islower_ascii c hc).mp hl
    omega
  · next hl =>
    have hupper := mt (table.islower_ascii c hc).mpr hl
    omega

/-- A shifted letter is a letter, of the same alphabet. -/
theorem letter_caesarChar {c : Char} (h : table.isalpha c = true) (shift : Int) :
    table.isalpha (caesarChar table shift c) = true ∧
      caesarBase table (caesarChar table shift c) = caesarBase table c := by
  have hlt := toNat_caesarChar_lt h shift
  have hn := toNat_caesarChar h shift
  have halpha := table.isalpha_ascii _ hlt
  have hlower := table.islower_ascii _ hlt
  rcases caesarBase_cases table c with hb | hb
  · rw [hb] at hn ⊢
    refine ⟨halpha.mpr (by omega), ?_⟩
    unfold caesarBase
    rw [if_pos (hlower.mpr (by omega))]
  · rw [hb] at hn ⊢
    refine ⟨halpha.mpr (by omega), ?_⟩
    unfold caesarBase
    rw [if_neg (mt hlower.mp (by omega))]

/-- **An ASCII letter comes back.** -/
theorem caesarChar_ascii {c : Char} (h : table.isalpha c = true) (hc : c.toNat < 128) (shift : Int) :
    caesarChar table (-shift) (caesarChar table shift c) = c := by
  obtain ⟨halpha, hbase⟩ := letter_caesarChar h shift
  obtain ⟨hlow, hhigh⟩ := alphabet_of_ascii h hc
  have hthere := toNat_caesarChar h shift
  have hback := toNat_caesarChar halpha (-shift)
  rw [hbase, hthere] at hback
  have hsame : (caesarChar table (-shift) (caesarChar table shift c)).toNat = c.toNat := by omega
  rw [← Char.ofNat_toNat (caesarChar table (-shift) (caesarChar table shift c)), hsame, Char.ofNat_toNat]

/-- One character comes back unless it is a letter outside of ASCII. -/
theorem caesarChar_caesarChar_iff (c : Char) (shift : Int) :
    caesarChar table (-shift) (caesarChar table shift c) = c ↔ (table.isalpha c = true → c.toNat < 128) := by
  cases h : table.isalpha c with
  | false =>
    rw [caesarChar_of_not_alpha h, caesarChar_of_not_alpha h]
    exact iff_of_true rfl fun e => absurd e Bool.false_ne_true
  | true =>
    constructor
    · intro e _
      rw [← e]
      exact toNat_caesarChar_lt (letter_caesarChar h shift).1 (-shift)
    · intro hc
      exact caesarChar_ascii h (hc rfl) shift

/-- There and back, one character after the other. -/
theorem toList_caesar_caesar (text : String) (shift : Int) :
    (caesar table (caesar table text shift) (-shift)).toList =
      text.toList.map (caesarChar table (-shift) ∘ caesarChar table shift) := by
  unfold caesar
  rw [String.toList_ofList, String.toList_ofList, List.map_map]

theorem map_caesarChar_eq_self_iff (l : List Char) (shift : Int) :
    l.map (caesarChar table (-shift) ∘ caesarChar table shift) = l ↔
      ∀ c ∈ l, table.isalpha c = true → c.toNat < 128 := by
  have hchars := List.map_eq_map_iff (l := l) (f := caesarChar table (-shift) ∘ caesarChar table shift) (g := id)
  rw [List.map_id] at hchars
  rw [hchars]
  exact forall₂_congr fun c _ => caesarChar_caesarChar_iff c shift

/-- **`decode` undoes a shift** of exactly the texts of which every letter is an ASCII letter. -/
theorem caesar_caesar_iff (table : CharTable) (text : String) (shift : Int) :
    caesar table (caesar table text shift) (-shift) = text ↔
      ∀ c ∈ text.toList, table.isalpha c = true → c.toNat < 128 := by
  rw [← String.toList_inj, toList_caesar_caesar]
  exact map_caesarChar_eq_self_iff text.toList shift

/-- What the tool `decode` answers for a text and a shift. -/
def decode (table : CharTable) (text : String) (shift : Int) : String := caesar table text (-shift)

/-- What the tool `secret_message` answers: a message, and its shift. -/
def secretMessage (table : CharTable) : String × Int := (caesar table "the fire is out at the school" 7, 7)

/-- The message the kit ships can be read, whatever the interpreter's tables say outside of ASCII. -/
theorem decode_secretMessage (table : CharTable) :
    decode table (secretMessage table).1 (secretMessage table).2 = "the fire is out at the school" := by
  have hascii : "the fire is out at the school".toList.all (fun c => decide (c.toNat < 128)) = true := by decide
  show caesar table (caesar table "the fire is out at the school" 7) (-7) = _
  rw [← String.toList_inj, toList_caesar_caesar, map_caesarChar_eq_self_iff]
  intro c hc _
  exact of_decide_eq_true (List.all_eq_true.mp hascii c hc)

/-- The letters of ASCII and of Latin-1. -/
def latin1 : CharTable where
  isalpha c :=
    let n := c.toNat
    (65 ≤ n && n ≤ 90) || (97 ≤ n && n ≤ 122) || n = 0xAA || n = 0xB5 || n = 0xBA ||
      (0xC0 ≤ n && n ≤ 0xFF && n ≠ 0xD7 && n ≠ 0xF7)
  islower c :=
    let n := c.toNat
    (97 ≤ n && n ≤ 122) || n = 0xAA || n = 0xB5 || n = 0xBA || (0xDF ≤ n && n ≤ 0xFF && n ≠ 0xF7)
  isalpha_ascii c h := by
    simp
    omega
  islower_ascii c h := by
    simp
    omega

/-- An accented letter comes back as another one, even without a shift: `"cafg"`. -/
theorem caesar_accent : caesar latin1 (caesar latin1 "café" 0) (-0) ≠ "café" := by decide

end HadrAgent
