import HadrAgent.Python.JsonUnique

/-!
# Writing JSON

`json.dumps(v, indent=2, default=str)`: strings are written in ASCII, a tuple as a list, and an object that is no JSON
as the text `str` gives (`plain`). How a float is written is a parameter that reads back what it wrote (`FloatTexts`);
the encoder takes `float.__repr__`, with names of its own for the floats that are no numbers (`floatText`).

- `denotes_encode`: what is written for a value is read as the value, made plain;
- `text_dumps_iff`: it is read as nothing else.
-/

namespace HadrAgent

namespace Json

variable {F : Type}

/-! ## Strings -/

/-- `'\\u{0:04x}'.format(n)`. -/
def unicodeEscape (n : Nat) : List Char :=
  [backslash, 'u', (n / 4096).digitChar, (n / 256 % 16).digitChar, (n / 16 % 16).digitChar, (n % 16).digitChar]

/-- `ESCAPE_DCT`. -/
def escapeDct : List (Char × Char) :=
  [(backslash, backslash), (quote, quote), (Char.ofNat 8, 'b'), (Char.ofNat 12, 'f'), ('\n', 'n'), ('\r', 'r'),
    ('\t', 't')]

/-- `replace` of `encode_basestring_ascii`: a character beyond 16 bits is written as a pair of surrogates. -/
def escapeAscii (c : Char) : List Char :=
  match escapeDct.lookup c with
  | some d => [backslash, d]
  | none =>
    if 32 ≤ c.toNat ∧ c.toNat ≤ 126 then [c]
    else if c.toNat < 0x10000 then unicodeEscape c.toNat
    else
      let n := c.toNat - 0x10000
      unicodeEscape (0xD800 + n / 1024) ++ unicodeEscape (0xDC00 + n % 1024)

/-- `encode_basestring_ascii`. -/
def dumpString (s : String) : List Char := quote :: s.toList.flatMap escapeAscii ++ [quote]

theorem hexDigit?_digitChar {n : Nat} (h : n < 16) : hexDigit? n.digitChar = some n := by
  have hall : ∀ m : Fin 16, hexDigit? m.val.digitChar = some m.val := by decide
  exact hall ⟨n, h⟩

/-- Four digits are read as the number they were written for. -/
theorem hex4?_digitChars {n : Nat} (h : n < 0x10000) :
    hex4? (n / 4096).digitChar (n / 256 % 16).digitChar (n / 16 % 16).digitChar (n % 16).digitChar = some n := by
  unfold hex4?
  rw [hexDigit?_digitChar (by omega), hexDigit?_digitChar (Nat.mod_lt _ (by omega)),
    hexDigit?_digitChar (Nat.mod_lt _ (by omega)), hexDigit?_digitChar (Nat.mod_lt _ (by omega))]
  show some _ = some n
  congr 1
  omega

theorem mem_escapes_of_lookup {c d : Char} (h : escapeDct.lookup c = some d) : (d, c) ∈ escapes := by
  have hall : ∀ p ∈ escapeDct, (p.2, p.1) ∈ escapes := by decide
  obtain ⟨before, after, hdct, -⟩ := List.lookup_eq_some_iff.mp h
  exact hall (c, d) (hdct ▸ List.mem_append_right before List.mem_cons_self)

theorem ne_of_lookup_eq_none {c : Char} (h : escapeDct.lookup c = none) : c ≠ quote ∧ c ≠ backslash := by
  constructor
  · rintro rfl
    exact absurd h (by decide)
  · rintro rfl
    exact absurd h (by decide)

theorem toNat_lt (c : Char) : c.toNat < 0x110000 := by
  have hc := c.valid
  simp only [UInt32.isValidChar, Nat.isValidChar] at hc
  unfold Char.toNat
  omega

/-- A pair of surrogates is read as the character it was made of. -/
theorem surrogates?_pair {n : Nat} (hlarge : ¬ n < 0x10000) (h : n < 0x110000) :
    surrogates? (0xD800 + (n - 0x10000) / 1024) (0xDC00 + (n - 0x10000) % 1024) = some n := by
  unfold surrogates?
  rw [if_pos (by omega)]
  simp only [Option.some.injEq]
  omega

/-- **A character** is read as it was written. -/
theorem chars_escapeAscii (c : Char) {l s : List Char} (h : Chars l s) : Chars (escapeAscii c ++ l) (c :: s) := by
  unfold escapeAscii
  split
  · next d hd => exact .escape (mem_escapes_of_lookup hd) h
  · next hnone =>
    split
    · next hprint =>
      obtain ⟨hquote, hslash⟩ := ne_of_lookup_eq_none hnone
      exact .plain ⟨hquote, hslash, hprint.1⟩ h
    · split
      · next hsmall => exact .unicode (hex4?_digitChars hsmall) h
      · next hlarge =>
        have hvalid := toNat_lt c
        exact .pair (hex4?_digitChars (by omega)) (hex4?_digitChars (by omega)) (surrogates?_pair hlarge hvalid) h

theorem chars_flatMap : ∀ s : List Char, Chars (s.flatMap escapeAscii) s
  | [] => .nil
  | c :: s => by
    rw [List.flatMap_cons]
    exact chars_escapeAscii c (chars_flatMap s)

/-! ## Integers -/

/-- Only zero begins with a zero. -/
theorem eq_zero_of_head? (n : Nat) (h : (Nat.toDigits 10 n).head? = some '0') : n = 0 := by
  induction n using Nat.strongRecOn with
  | ind n ih =>
    rw [Nat.toDigits_eq_if (by decide)] at h
    split at h
    · next hsmall =>
      have hall : ∀ m : Fin 10, m.val.digitChar = '0' → m.val = 0 := by decide
      exact hall ⟨n, hsmall⟩ (Option.some.inj h)
    · next hlarge =>
      rw [List.head?_append_of_ne_nil _ Nat.toDigits_ne_nil] at h
      have hzero := ih (n / 10) (by omega) h
      omega

theorem isNatural_repr (n : Nat) : IsNatural n.repr.toList := by
  rw [Nat.toList_repr]
  refine ⟨Nat.toDigits_ne_nil, fun c hc => Nat.isDigit_of_mem_toDigits (by decide) (by decide) hc, fun h => ?_⟩
  rw [eq_zero_of_head? n h]
  rfl

theorem natural_repr (n : Nat) : natural n.repr.toList = n := by
  rw [Nat.toList_repr]
  exact Nat.ofDigitChars_ten_toDigits

/-- An integer is read as it was written. -/
theorem denotes_int [Runtime F] (n : Int) : Denotes (toString n).toList (.int n : Val F) := by
  cases n with
  | ofNat n =>
    have h := Denotes.int (F := F) (isNatural_repr n)
    rwa [natural_repr] at h
  | negSucc n =>
    have h := Denotes.negInt (F := F) (isNatural_repr (n + 1))
    rw [natural_repr] at h
    have htext : (toString (Int.negSucc n)).toList = '-' :: (n + 1).repr.toList := String.toList_append
    rw [htext]
    exact h

/-! ## Values -/

/-- `'\n' + indent * level`. -/
def newline (level : Nat) : List Char := '\n' :: List.replicate (2 * level) ' '

/-- Texts with a separator between them. -/
def separated (separator : List Char) : List (List Char) → List Char
  | [] => []
  | [l] => l
  | l :: ls => l ++ separator ++ separated separator ls

/-- A container at a level: brackets alone if it is empty, and otherwise a line for each entry. -/
def block (level : Nat) (opening closing : Char) (entries : List (List Char)) : List Char :=
  if entries.isEmpty then [opening, closing]
  else
    opening :: newline (level + 1) ++ separated (',' :: newline (level + 1)) entries ++ newline level ++ [closing]

mutual

/-- `_iterencode`. -/
def encode (floatRepr : F → String) (level : Nat) : Val F → List Char
  | .none => "null".toList
  | .bool b => if b then "true".toList else "false".toList
  | .int n => (toString n).toList
  | .float x => (floatRepr x).toList
  | .str s => dumpString s
  | .list xs => block level '[' ']' (encodeList floatRepr (level + 1) xs)
  | .tuple xs => block level '[' ']' (encodeList floatRepr (level + 1) xs)
  | .dict items => block level '{' '}' (encodeDict floatRepr (level + 1) items)
  | .obj o => dumpString o.text

def encodeList (floatRepr : F → String) (level : Nat) : List (Val F) → List (List Char)
  | [] => []
  | x :: xs => encode floatRepr level x :: encodeList floatRepr level xs

def encodeDict (floatRepr : F → String) (level : Nat) : List (String × Val F) → List (List Char)
  | [] => []
  | (k, v) :: items => (dumpString k ++ ':' :: ' ' :: encode floatRepr level v) :: encodeDict floatRepr level items

end

/-- `json.dumps(v, indent=2, default=str)`. -/
def dumps (floatRepr : F → String) (v : Val F) : String := String.ofList (encode floatRepr 0 v)

/-- `floatstr` of the encoder. -/
def floatText [Runtime F] (x : F) : String :=
  let text := Runtime.reprFloat x
  if text = "nan" then "NaN" else if text = "inf" then "Infinity" else if text = "-inf" then "-Infinity" else text

mutual

/-- What JSON keeps of a value: a tuple is a list, an object its text. -/
def plain : Val F → Val F
  | .none => .none
  | .bool b => .bool b
  | .int n => .int n
  | .float x => .float x
  | .str s => .str s
  | .list xs => .list (plainList xs)
  | .tuple xs => .list (plainList xs)
  | .dict items => .dict (OrdDict.ofList (plainDict items)).items
  | .obj o => .str o.text

def plainList : List (Val F) → List (Val F)
  | [] => []
  | x :: xs => plain x :: plainList xs

def plainDict : List (String × Val F) → List (String × Val F)
  | [] => []
  | (k, v) :: items => (k, plain v) :: plainDict items

end

theorem isWs_nil : IsWs [] := by
  intro c hc
  cases hc

theorem isWs_newline (level : Nat) : IsWs (newline level) := by
  intro c hc
  rcases List.mem_cons.mp hc with rfl | hc
  · rfl
  · rw [List.eq_of_mem_replicate hc]
    rfl

variable [Runtime F]

/-- `float.__repr__` writes JSON that is read as the float. -/
def FloatTexts (floatRepr : F → String) : Prop := ∀ x, Denotes (floatRepr x).toList (.float x : Val F)

/-- The entries of a list, with whitespace around them. -/
theorem elements_separated {w : List Char} (hw : IsWs w) {ls : List (List Char)} {vs : List (Val F)}
    (h : List.Forall₂ Denotes ls vs) : ls ≠ [] → ∀ w₁ w₂, IsWs w₁ → IsWs w₂ →
      Elements (w₁ ++ separated (',' :: w) ls ++ w₂) vs := by
  induction h with
  | nil => exact fun hne => absurd rfl hne
  | cons h hrest ih =>
    intro _ w₁ w₂ h₁ h₂
    cases hrest with
    | nil => exact .one (.mk h₁ h h₂)
    | cons h' hrest =>
      have htail := ih (List.cons_ne_nil _ _) w w₂ hw h₂
      have hall := Elements.cons (.mk h₁ h isWs_nil) htail
      simpa [separated] using hall

/-- The text of an entry of an object. -/
inductive EntryText : List Char → String × Val F → Prop
  | mk {l : List Char} {v : Val F} (k : String) (h : Denotes l v) : EntryText (dumpString k ++ ':' :: ' ' :: l) (k, v)

omit [Runtime F] in
theorem name_dumpString {w : List Char} (hw : IsWs w) (k : String) : Name (w ++ dumpString k) k := by
  have h := Name.mk hw (chars_flatMap k.toList) isWs_nil
  rw [String.ofList_toList, List.append_nil] at h
  exact h

theorem isWs_blank : IsWs [' '] := by
  intro c hc
  rw [List.mem_singleton.mp hc]
  rfl

/-- The entries of an object, with whitespace around them. -/
theorem members_separated {w : List Char} (hw : IsWs w) {ls : List (List Char)} {items : List (String × Val F)}
    (h : List.Forall₂ EntryText ls items) : ls ≠ [] → ∀ w₁ w₂, IsWs w₁ → IsWs w₂ →
      Members (w₁ ++ separated (',' :: w) ls ++ w₂) items := by
  induction h with
  | nil => exact fun hne => absurd rfl hne
  | cons h hrest ih =>
    intro _ w₁ w₂ h₁ h₂
    cases h with
    | mk k h =>
      cases hrest with
      | nil =>
        have hall := Members.one (name_dumpString h₁ k) (.mk isWs_blank h h₂)
        simpa [separated] using hall
      | cons h' hrest =>
        have htail := ih (List.cons_ne_nil _ _) w w₂ hw h₂
        have hall := Members.cons (name_dumpString h₁ k) (.mk isWs_blank h isWs_nil) htail
        simpa [separated] using hall

theorem denotes_list {level : Nat} {ls : List (List Char)} {vs : List (Val F)} (h : List.Forall₂ Denotes ls vs) :
    Denotes (block level '[' ']' ls) (.list vs) := by
  unfold block
  cases h with
  | nil => exact .emptyList isWs_nil
  | cons h hrest =>
    have hall := elements_separated (isWs_newline (level + 1)) (.cons h hrest) (List.cons_ne_nil _ _) _ _
      (isWs_newline (level + 1)) (isWs_newline level)
    exact .list hall

theorem denotes_dict {level : Nat} {ls : List (List Char)} {items : List (String × Val F)}
    (h : List.Forall₂ EntryText ls items) :
    Denotes (block level '{' '}' ls) (.dict (OrdDict.ofList items).items) := by
  unfold block
  cases h with
  | nil => exact .emptyDict isWs_nil
  | cons h hrest =>
    have hall := members_separated (isWs_newline (level + 1)) (.cons h hrest) (List.cons_ne_nil _ _) _ _
      (isWs_newline (level + 1)) (isWs_newline level)
    exact .dict hall

theorem denotes_str (s : String) : Denotes (dumpString s) (.str s : Val F) := by
  have h := Denotes.str (F := F) (chars_flatMap s.toList)
  rwa [String.ofList_toList] at h

mutual

/-- **What is written** is read as the value, made plain. -/
theorem denotes_encode {floatRepr : F → String} (h : FloatTexts floatRepr) (level : Nat) :
    ∀ v : Val F, Denotes (encode floatRepr level v) (plain v)
  | .none => .none
  | .bool true => .true
  | .bool false => .false
  | .int n => denotes_int n
  | .float x => h x
  | .str s => denotes_str s
  | .list xs => denotes_list (denotes_encodeList h (level + 1) xs)
  | .tuple xs => denotes_list (denotes_encodeList h (level + 1) xs)
  | .dict items => denotes_dict (denotes_encodeDict h (level + 1) items)
  | .obj o => denotes_str o.text

theorem denotes_encodeList {floatRepr : F → String} (h : FloatTexts floatRepr) (level : Nat) :
    ∀ xs : List (Val F), List.Forall₂ Denotes (encodeList floatRepr level xs) (plainList xs)
  | [] => .nil
  | x :: xs => .cons (denotes_encode h level x) (denotes_encodeList h level xs)

theorem denotes_encodeDict {floatRepr : F → String} (h : FloatTexts floatRepr) (level : Nat) :
    ∀ items : List (String × Val F), List.Forall₂ EntryText (encodeDict floatRepr level items) (plainDict items)
  | [] => .nil
  | (_, v) :: items => .cons (.mk _ (denotes_encode h level v)) (denotes_encodeDict h level items)

end

/-- **What `json.dumps` writes** has one value: what JSON keeps of the value it was written for. -/
theorem text_dumps_iff {floatRepr : F → String} (h : FloatTexts floatRepr) (v w : Val F) :
    Text (dumps floatRepr v) w ↔ w = plain v := by
  have hv : Text (dumps floatRepr v) (plain v) := by
    unfold Text dumps
    rw [String.toList_ofList]
    have hpadded := Padded.mk isWs_nil (denotes_encode h 0 v) isWs_nil
    rwa [List.append_nil] at hpadded
  exact ⟨fun hw => hw.unique hv, fun hw => hw ▸ hv⟩

end Json

end HadrAgent
