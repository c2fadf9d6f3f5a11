import Mathlib.Data.List.TakeDrop
import HadrAgent.Python.Value

/-!
# JSON texts

What `json.loads` makes of a text: a grammar (`Json.Denotes`), and any function that keeps to it (`JsonLoads`). `NaN`
and the infinities are part of it; of equal names in an object the last one counts; lone surrogates, which no `Char`
is, are left out.

- `Json.Text.isDict_iff`: the first character that is not whitespace tells whether the value is an object.
-/

namespace HadrAgent

variable {F : Type}

namespace Json

/-- `WHITESPACE` of the scanner. -/
def isWs (c : Char) : Bool := c = ' ' || c = '\t' || c = '\n' || c = '\r'

def IsWs (l : List Char) : Prop := ∀ c ∈ l, isWs c = true

/-! ## Strings and numbers -/

def backslash : Char := Char.ofNat 92

def quote : Char := Char.ofNat 34

/-- What follows a backslash, and what it stands for. -/
def escapes : List (Char × Char) :=
  [(quote, quote), (backslash, backslash), ('/', '/'), ('b', Char.ofNat 8), ('f', Char.ofNat 12), ('n', '\n'),
    ('r', '\r'), ('t', '\t')]

/-- The value of a hexadecimal digit. -/
def hexDigit? (c : Char) : Option Nat := "0123456789abcdef".toList.idxOf? c.toLower

/-- The value of four of them. -/
def hex4? (a b c d : Char) : Option Nat := do
  return 4096 * (← hexDigit? a) + 256 * (← hexDigit? b) + 16 * (← hexDigit? c) + (← hexDigit? d)

/-- The code point of a pair of surrogates. -/
def surrogates? (high low : Nat) : Option Nat :=
  if 0xD800 ≤ high ∧ high ≤ 0xDBFF ∧ 0xDC00 ≤ low ∧ low ≤ 0xDFFF then
    some (0x10000 + (high - 0xD800) * 1024 + (low - 0xDC00))
  else none

/-- The characters between two quotes, and the string they stand for. -/
inductive Chars : List Char → List Char → Prop
  | nil : Chars [] []
  | plain {c : Char} {l s : List Char} (hc : c ≠ quote ∧ c ≠ backslash ∧ 32 ≤ c.toNat) (h : Chars l s) :
      Chars (c :: l) (c :: s)
  | escape {c d : Char} {l s : List Char} (hc : (c, d) ∈ escapes) (h : Chars l s) :
      Chars (backslash :: c :: l) (d :: s)
  | unicode {a b c d e : Char} {l s : List Char} (he : hex4? a b c d = some e.toNat) (h : Chars l s) :
      Chars (backslash :: 'u' :: a :: b :: c :: d :: l) (e :: s)
  | pair {a b c d a' b' c' d' e : Char} {high low : Nat} {l s : List Char} (hhigh : hex4? a b c d = some high)
      (hlow : hex4? a' b' c' d' = some low) (he : surrogates? high low = some e.toNat) (h : Chars l s) :
      Chars (backslash :: 'u' :: a :: b :: c :: d :: backslash :: 'u' :: a' :: b' :: c' :: d' :: l) (e :: s)

/-- `0`, or digits of which the first is not `0`. -/
def IsNatural (l : List Char) : Prop := l ≠ [] ∧ (∀ c ∈ l, c.isDigit = true) ∧ (l.head? = some '0' → l = ['0'])

/-- The number some digits stand for. -/
def natural (l : List Char) : Nat := l.foldl (fun n c => 10 * n + (c.toNat - 48)) 0

/-- The part of a number after its digits: it makes the number a float. -/
inductive IsFraction : List Char → Prop
  | point {l : List Char} (hl : l ≠ [] ∧ ∀ c ∈ l, c.isDigit = true) : IsFraction ('.' :: l)
  | exponent {e : Char} {sign l : List Char} (he : e = 'e' ∨ e = 'E') (hs : sign = [] ∨ sign = ['+'] ∨ sign = ['-'])
      (hl : l ≠ [] ∧ ∀ c ∈ l, c.isDigit = true) : IsFraction (e :: sign ++ l)
  | both {l e : List Char} (hl : l ≠ [] ∧ ∀ c ∈ l, c.isDigit = true) (he : IsFraction e) (hh : e.head? ≠ some '.') :
      IsFraction ('.' :: l ++ e)

/-- The texts of the floats that are no numbers of JSON. -/
def constants : List (List Char) := ["NaN".toList, "Infinity".toList, "-Infinity".toList]

/-- A name of an object, with whitespace around it. -/
inductive Name : List Char → String → Prop
  | mk {w₁ l s w₂ : List Char} (h₁ : IsWs w₁) (h : Chars l s) (h₂ : IsWs w₂) :
      Name (w₁ ++ (quote :: l ++ [quote]) ++ w₂) (String.ofList s)

/-! ## Values -/

variable [Runtime F]

mutual

/-- The text of a value without whitespace around it, and the value. -/
inductive Denotes : List Char → Val F → Prop
  | none : Denotes "null".toList .none
  | true : Denotes "true".toList (.bool Bool.true)
  | false : Denotes "false".toList (.bool Bool.false)
  | int {l : List Char} (hl : IsNatural l) : Denotes l (.int (natural l))
  | negInt {l : List Char} (hl : IsNatural l) : Denotes ('-' :: l) (.int (-natural l))
  | float {sign l e : List Char} {x : F} (hs : sign = [] ∨ sign = ['-']) (hl : IsNatural l) (he : IsFraction e)
      (hx : Runtime.ofStr (String.ofList (sign ++ l ++ e)) = some x) : Denotes (sign ++ l ++ e) (.float x)
  | constant {l : List Char} {x : F} (hl : l ∈ constants) (hx : Runtime.ofStr (String.ofList l) = some x) :
      Denotes l (.float x)
  | str {l s : List Char} (h : Chars l s) : Denotes (quote :: l ++ [quote]) (.str (String.ofList s))
  | emptyList {w : List Char} (hw : IsWs w) : Denotes ('[' :: w ++ [']']) (.list [])
  | list {l : List Char} {vs : List (Val F)} (h : Elements l vs) : Denotes ('[' :: l ++ [']']) (.list vs)
  | emptyDict {w : List Char} (hw : IsWs w) : Denotes ('{' :: w ++ ['}']) (.dict [])
  | dict {l : List Char} {items : List (String × Val F)} (h : Members l items) :
      Denotes ('{' :: l ++ ['}']) (.dict (OrdDict.ofList items).items)

/-- A value with whitespace around it. -/
inductive Padded : List Char → Val F → Prop
  | mk {w₁ l w₂ : List Char} {v : Val F} (h₁ : IsWs w₁) (h : Denotes l v) (h₂ : IsWs w₂) : Padded (w₁ ++ l ++ w₂) v

/-- Values with commas between them. -/
inductive Elements : List Char → List (Val F) → Prop
  | one {l : List Char} {v : Val F} (h : Padded l v) : Elements l [v]
  | cons {l l' : List Char} {v : Val F} {vs : List (Val F)} (h : Padded l v) (h' : Elements l' vs) :
      Elements (l ++ ',' :: l') (v :: vs)

/-- Names with their values, with commas between them. -/
inductive Members : List Char → List (String × Val F) → Prop
  | one {l l' : List Char} {k : String} {v : Val F} (hk : Name l k) (h : Padded l' v) :
      Members (l ++ ':' :: l') [(k, v)]
  | cons {l l' l'' : List Char} {k : String} {v : Val F} {items : List (String × Val F)} (hk : Name l k)
      (h : Padded l' v) (h' : Members l'' items) : Members (l ++ ':' :: l' ++ ',' :: l'') ((k, v) :: items)

end

/-- A text and its value. -/
def Text (s : String) (v : Val F) : Prop := Padded s.toList v

/-! ## The first character -/

/-- The first character of a text that is not whitespace. -/
def firstChar (s : String) : Option Char := (s.toList.dropWhile isWs).head?

/-- A list begins with a character that is not whitespace, and is a brace or not. -/
def Begins (l : List Char) (isBrace : Bool) : Prop :=
  ∃ c cs, l = c :: cs ∧ isWs c = false ∧ decide (c = '{') = isBrace

theorem begins_of_isNatural {l : List Char} (h : IsNatural l) (e : List Char) : Begins (l ++ e) false := by
  obtain ⟨hne, hdigits, -⟩ := h
  cases l with
  | nil => exact absurd rfl hne
  | cons c cs =>
    have hdigit := hdigits c List.mem_cons_self
    refine ⟨c, cs ++ e, rfl, ?_, ?_⟩
    · rw [Bool.eq_false_iff]
      intro hws
      simp only [isWs, Bool.or_eq_true, decide_eq_true_eq] at hws
      rcases hws with ((rfl | rfl) | rfl) | rfl <;> exact absurd hdigit (by decide)
    · rw [decide_eq_false_iff_not]
      rintro rfl
      exact absurd hdigit (by decide)

/-- **The first character of a value** is a brace exactly if the value is an object. -/
theorem Denotes.begins {l : List Char} {v : Val F} (h : Denotes l v) : Begins l v.isDict := by
  cases h with
  | none => exact ⟨'n', _, rfl, rfl, rfl⟩
  | true => exact ⟨'t', _, rfl, rfl, rfl⟩
  | false => exact ⟨'f', _, rfl, rfl, rfl⟩
  | int hl =>
    rw [← List.append_nil l]
    exact begins_of_isNatural hl []
  | negInt hl => exact ⟨'-', _, rfl, rfl, rfl⟩
  | float hs hl he hx =>
    rcases hs with rfl | rfl
    · exact begins_of_isNatural hl _
    · exact ⟨'-', _, rfl, rfl, rfl⟩
  | constant hl hx =>
    simp only [constants, List.mem_cons, List.not_mem_nil, or_false] at hl
    rcases hl with rfl | rfl | rfl
    · exact ⟨'N', _, rfl, rfl, rfl⟩
    · exact ⟨'I', _, rfl, rfl, rfl⟩
    · exact ⟨'-', _, rfl, rfl, rfl⟩
  | str h => exact ⟨quote, _, rfl, rfl, rfl⟩
  | emptyList hw => exact ⟨'[', _, rfl, rfl, rfl⟩
  | list h => exact ⟨'[', _, rfl, rfl, rfl⟩
  | emptyDict hw => exact ⟨'{', _, rfl, rfl, rfl⟩
  | dict h => exact ⟨'{', _, rfl, rfl, rfl⟩

theorem Padded.begins {l : List Char} {v : Val F} (h : Padded l v) :
    ∃ c, (l.dropWhile isWs).head? = some c ∧ decide (c = '{') = v.isDict := by
  cases h with
  | mk h₁ h h₂ =>
    obtain ⟨c, cs, rfl, hc, hbrace⟩ := h.begins
    refine ⟨c, ?_, hbrace⟩
    rw [List.append_assoc, List.dropWhile_append_of_pos h₁, List.cons_append, List.dropWhile_cons_of_neg]
    · rfl
    · rw [hc]
      exact Bool.false_ne_true

theorem Text.isDict_iff {s : String} {v : Val F} (h : Text s v) : v.isDict = true ↔ firstChar s = some '{' := by
  obtain ⟨c, hc, hbrace⟩ := Padded.begins h
  unfold firstChar
  rw [hc, ← hbrace, decide_eq_true_iff, Option.some.injEq]

end Json

/-- `json.JSONDecodeError`. -/
def jsonDecodeError : ExcClass := .other "JSONDecodeError"

/-- A function that reads JSON: it returns the value of its text, or raises `JSONDecodeError`. -/
structure JsonLoads [Runtime F] (loads : String → Except Exc (Val F)) : Prop where
  denotes : ∀ {s v}, loads s = .ok v → Json.Text s v
  raises : ∀ {s e}, loads s = .error e → e.cls = jsonDecodeError

end HadrAgent
