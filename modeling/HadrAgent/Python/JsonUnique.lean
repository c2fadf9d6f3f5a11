import HadrAgent.Python.Json

/-!
# One value to a text

The grammar of JSON is unambiguous: a text has one value (`Json.Text.unique`).

A value is told by its first character: a string, a list and an object by their bracket, all others are words, whose
end is the first character that may follow a value (`Denotes.form`, `isStop`). What follows a value is carried along as
a suffix `r`.
-/

namespace HadrAgent

variable {F : Type}

/-- Two ways to cut a list where a property ends are one. -/
theorem append_inj_of_all {α : Type} {p : α → Bool} : ∀ {l l' r r' : List α}, (∀ a ∈ l, p a = true) →
    (∀ a ∈ l', p a = true) → (∀ a ∈ r.head?, p a = false) → (∀ a ∈ r'.head?, p a = false) → l ++ r = l' ++ r' →
      l = l' ∧ r = r'
  | [], [], _, _, _, _, _, _, h => ⟨rfl, h⟩
  | [], a :: l', r, r', _, hl', hr, _, h => by
    obtain rfl : r = a :: l' ++ r' := h
    have hfalse := hr a rfl
    rw [hl' a List.mem_cons_self] at hfalse
    cases hfalse
  | a :: l, [], r, r', hl, _, _, hr', h => by
    obtain rfl : a :: l ++ r = r' := h
    have hfalse := hr' a rfl
    rw [hl a List.mem_cons_self] at hfalse
    cases hfalse
  | a :: l, b :: l', r, r', hl, hl', hr, hr', h => by
    obtain ⟨rfl, htail⟩ := List.cons.inj h
    obtain ⟨rfl, rfl⟩ := append_inj_of_all (fun c hc => hl c (List.mem_cons_of_mem a hc))
      (fun c hc => hl' c (List.mem_cons_of_mem a hc)) hr hr' htail
    exact ⟨rfl, rfl⟩

namespace Json

/-! ## Strings -/

theorem isChar_of_hex {a b c d e : Char} {n : Nat} (he : hex4? a b c d = some e.toNat) (hn : hex4? a b c d = some n) :
    n.isValidChar := by
  obtain rfl := Option.some.inj (he.symm.trans hn)
  exact e.valid

/-- Half a pair of surrogates is no character. -/
theorem not_isChar_of_surrogates {high low n : Nat} (h : surrogates? high low = some n) : ¬ high.isValidChar := by
  unfold surrogates? at h
  split at h
  · next hrange =>
    unfold Nat.isValidChar
    omega
  · cases h

theorem escapes_unique {c d d' : Char} (h : (c, d) ∈ escapes) (h' : (c, d') ∈ escapes) : d = d' := by
  have hall : ∀ p ∈ escapes, ∀ q ∈ escapes, p.1 = q.1 → p.2 = q.2 := by decide
  exact hall _ h _ h' rfl

theorem u_notMem_escapes (d : Char) : ('u', d) ∉ escapes := by
  have hall : ∀ p ∈ escapes, p.1 ≠ 'u' := by decide
  exact fun h => hall _ h rfl

/-- **The end of a string** is its first quote that is not escaped. -/
theorem Chars.unique {l s : List Char} (h : Chars l s) : ∀ {l' s' r r' : List Char}, Chars l' s' →
    l ++ quote :: r = l' ++ quote :: r' → l = l' ∧ s = s' := by
  have hslash : quote ≠ backslash := by decide
  induction h with
  | nil =>
    intro l' s' r r' h' heq
    cases h' with
    | nil => exact ⟨rfl, rfl⟩
    | plain hc => exact absurd (List.cons.inj heq).1.symm hc.1
    | escape | unicode | pair => exact absurd (List.cons.inj heq).1 hslash
  | plain hc _ ih =>
    intro l' s' r r' h' heq
    cases h' with
    | nil => exact absurd (List.cons.inj heq).1 hc.1
    | plain hc' h' =>
      obtain ⟨rfl, htail⟩ := List.cons.inj heq
      obtain ⟨rfl, rfl⟩ := ih h' htail
      exact ⟨rfl, rfl⟩
    | escape | unicode | pair => exact absurd (List.cons.inj heq).1 hc.2.1
  | escape hc _ ih =>
    intro l' s' r r' h' heq
    cases h' with
    | nil => exact absurd (List.cons.inj heq).1.symm hslash
    | plain hc' => exact absurd (List.cons.inj heq).1.symm hc'.2.1
    | escape hc' h' =>
      obtain ⟨rfl, htail⟩ := List.cons.inj (List.cons.inj heq).2
      obtain ⟨rfl, rfl⟩ := ih h' htail
      exact ⟨rfl, congrArg (· :: _) (escapes_unique hc hc')⟩
    | unicode | pair =>
      obtain ⟨rfl, -⟩ := List.cons.inj (List.cons.inj heq).2
      exact absurd hc (u_notMem_escapes _)
  | unicode he _ ih =>
    intro l' s' r r' h' heq
    cases h' with
    | nil => exact absurd (List.cons.inj heq).1.symm hslash
    | plain hc' => exact absurd (List.cons.inj heq).1.symm hc'.2.1
    | escape hc' =>
      obtain ⟨rfl, -⟩ := List.cons.inj (List.cons.inj heq).2
      exact absurd hc' (u_notMem_escapes _)
    | unicode he' h' =>
      simp only [List.cons_append, List.cons.injEq, true_and] at heq
      obtain ⟨rfl, rfl, rfl, rfl, heq⟩ := heq
      obtain ⟨rfl, rfl⟩ := ih h' heq
      exact ⟨rfl, congrArg (· :: _) (Char.toNat_inj.mp (Option.some.inj (he.symm.trans he')))⟩
    | pair hhigh hlow hpair =>
      simp only [List.cons_append, List.cons.injEq, true_and] at heq
      obtain ⟨rfl, rfl, rfl, rfl, -⟩ := heq
      exact absurd (isChar_of_hex he hhigh) (not_isChar_of_surrogates hpair)
  | pair hhigh hlow hpair _ ih =>
    intro l' s' r r' h' heq
    cases h' with
    | nil => exact absurd (List.cons.inj heq).1.symm hslash
    | plain hc' => exact absurd (List.cons.inj heq).1.symm hc'.2.1
    | escape hc' =>
      obtain ⟨rfl, -⟩ := List.cons.inj (List.cons.inj heq).2
      exact absurd hc' (u_notMem_escapes _)
    | unicode he' =>
      simp only [List.cons_append, List.cons.injEq, true_and] at heq
      obtain ⟨rfl, rfl, rfl, rfl, -⟩ := heq
      exact absurd (isChar_of_hex he' hhigh) (not_isChar_of_surrogates hpair)
    | pair hhigh' hlow' hpair' h' =>
      simp only [List.cons_append, List.cons.injEq, true_and] at heq
      obtain ⟨rfl, rfl, rfl, rfl, rfl, rfl, rfl, rfl, heq⟩ := heq
      obtain ⟨rfl, rfl⟩ := ih h' heq
      obtain rfl := Option.some.inj (hhigh.symm.trans hhigh')
      obtain rfl := Option.some.inj (hlow.symm.trans hlow')
      exact ⟨rfl, congrArg (· :: _) (Char.toNat_inj.mp (Option.some.inj (hpair.symm.trans hpair')))⟩

/-! ## Words -/

/-- The characters of numbers and of `null`, `true`, `false`, `NaN` and `Infinity`. -/
def isPlain (c : Char) : Bool := c.isAlphanum || c = '-' || c = '+' || c = '.'

theorem isPlain_of_isDigit {c : Char} (h : c.isDigit = true) : isPlain c = true := by
  simp [isPlain, Char.isAlphanum, h]

/-- A fraction begins with no digit, and is plain. -/
theorem IsFraction.plain {e : List Char} (h : IsFraction e) :
    (∃ c ∈ e, c.isDigit = false) ∧ ∀ c ∈ e, isPlain c = true := by
  have hpoint : isPlain '.' = true := by decide
  induction h with
  | point hl => exact ⟨⟨'.', List.mem_cons_self, by decide⟩, List.forall_mem_cons.mpr
      ⟨hpoint, fun c hc => isPlain_of_isDigit (hl.2 c hc)⟩⟩
  | exponent he hs hl =>
    refine ⟨⟨_, List.mem_cons_self, by rcases he with rfl | rfl <;> decide⟩, ?_⟩
    intro c hc
    rcases List.mem_cons.mp hc with rfl | hc
    · rcases he with rfl | rfl <;> decide
    rcases List.mem_append.mp hc with hc | hc
    · rcases hs with rfl | rfl | rfl
      · cases hc
      · obtain rfl := List.mem_singleton.mp hc
        decide
      · obtain rfl := List.mem_singleton.mp hc
        decide
    · exact isPlain_of_isDigit (hl.2 c hc)
  | both hl _ _ ih =>
    refine ⟨⟨'.', List.mem_cons_self, by decide⟩, ?_⟩
    intro c hc
    rcases List.mem_cons.mp hc with rfl | hc
    · exact hpoint
    rcases List.mem_append.mp hc with hc | hc
    · exact isPlain_of_isDigit (hl.2 c hc)
    · exact ih.2 c hc

variable [Runtime F]

/-- What a word stands for. -/
def wordValue (l : List Char) : Option (Val F) :=
  if l.all Char.isDigit then some (.int (natural l))
  else if l.head? = some '-' ∧ l.tail.all Char.isDigit then some (.int (-natural l.tail))
  else if l = "null".toList then some .none
  else if l = "true".toList then some (.bool true)
  else if l = "false".toList then some (.bool false)
  else (Runtime.ofStr (String.ofList l)).map .float

theorem wordValue_cons {a : Char} {l : List Char} (ha : a = '-' ∨ a.isDigit = true)
    (hl : ∃ c ∈ l, c.isDigit = false) :
    (wordValue (a :: l) : Option (Val F)) = (Runtime.ofStr (String.ofList (a :: l))).map .float := by
  obtain ⟨c, hc, hdigit⟩ := hl
  have hall : ∀ m : List Char, c ∈ m → ¬ m.all Char.isDigit = true := by
    intro m hm hdigits
    rw [List.all_eq_true.mp hdigits c hm] at hdigit
    cases hdigit
  have hne : ∀ (b : Char) (m : List Char), b ≠ '-' ∧ b.isDigit = false → a :: l ≠ b :: m := by
    rintro b m ⟨hb, hb'⟩ heq
    obtain rfl := (List.cons.inj heq).1
    rcases ha with rfl | ha
    · exact hb rfl
    · rw [ha] at hb'
      cases hb'
  have hnull : a :: l ≠ "null".toList := hne 'n' _ (by decide)
  have htrue : a :: l ≠ "true".toList := hne 't' _ (by decide)
  have hfalse : a :: l ≠ "false".toList := hne 'f' _ (by decide)
  unfold wordValue
  rw [if_neg (hall _ (List.mem_cons_of_mem a hc)), if_neg fun h => hall l hc h.2, if_neg hnull, if_neg htrue,
    if_neg hfalse]

/-- **A word** has the value it stands for. -/
inductive Word : List Char → Val F → Prop
  | mk {c : Char} {l : List Char} {v : Val F} (hplain : ∀ d ∈ c :: l, isPlain d = true)
      (hv : wordValue (c :: l) = some v) : Word (c :: l) v

theorem word_int {l : List Char} (hl : IsNatural l) : Word l (.int (natural l) : Val F) := by
  obtain ⟨hne, hdigits, -⟩ := hl
  obtain ⟨c, l, rfl⟩ := List.exists_cons_of_ne_nil hne
  refine ⟨fun d hd => isPlain_of_isDigit (hdigits d hd), ?_⟩
  unfold wordValue
  rw [if_pos (List.all_eq_true.mpr hdigits)]

theorem word_negInt {l : List Char} (hl : IsNatural l) : Word ('-' :: l) (.int (-natural l) : Val F) := by
  refine ⟨List.forall_mem_cons.mpr ⟨by decide, fun d hd => isPlain_of_isDigit (hl.2.1 d hd)⟩, ?_⟩
  unfold wordValue
  rw [if_neg, if_pos ⟨rfl, List.all_eq_true.mpr hl.2.1⟩]
  · rfl
  · intro h
    cases List.all_eq_true.mp h '-' List.mem_cons_self

theorem word_float {sign l e : List Char} {x : F} (hs : sign = [] ∨ sign = ['-']) (hl : IsNatural l)
    (he : IsFraction e) (hx : Runtime.ofStr (String.ofList (sign ++ l ++ e)) = some x) :
    Word (sign ++ l ++ e) (.float x : Val F) := by
  obtain ⟨⟨c, hc, hdigit⟩, hplain⟩ := he.plain
  obtain ⟨d, l, rfl⟩ := List.exists_cons_of_ne_nil hl.1
  have hplains : ∀ c ∈ d :: l ++ e, isPlain c = true := by
    intro c hc
    rcases List.mem_append.mp hc with hc | hc
    · exact isPlain_of_isDigit (hl.2.1 c hc)
    · exact hplain c hc
  rcases hs with rfl | rfl
  · refine ⟨hplains, ?_⟩
    have hv := wordValue_cons (F := F) (.inr (hl.2.1 d List.mem_cons_self)) ⟨c, List.mem_append_right l hc, hdigit⟩
    exact hv.trans (congrArg (Option.map Val.float) hx)
  · refine ⟨List.forall_mem_cons.mpr ⟨by decide, hplains⟩, ?_⟩
    have hv := wordValue_cons (F := F) (.inl rfl) ⟨c, List.mem_append_right (d :: l) hc, hdigit⟩
    exact hv.trans (congrArg (Option.map Val.float) hx)

theorem word_constant {l : List Char} {x : F} (hl : l ∈ constants)
    (hx : Runtime.ofStr (String.ofList l) = some x) : Word l (.float x : Val F) := by
  simp only [constants, List.mem_cons, List.not_mem_nil, or_false] at hl
  rcases hl with rfl | rfl | rfl
  all_goals exact ⟨List.all_eq_true.mp rfl, congrArg (Option.map Val.float) hx⟩

theorem Word.unique {l : List Char} {v v' : Val F} (h : Word l v) (h' : Word l v') : v = v' := by
  cases h with
  | mk _ hv =>
    cases h' with
    | mk _ hv' => exact Option.some.inj (hv.symm.trans hv')

/-! ## Values -/

/-- What may follow a value. -/
def isStop (c : Char) : Bool := isWs c || c = ',' || c = ']' || c = '}'

/-- What is left begins with what may follow a value. -/
def Stops (r : List Char) : Prop := ∀ c ∈ r.head?, isStop c = true

/-- What is left begins with no whitespace. -/
def NoWs (r : List Char) : Prop := ∀ c ∈ r.head?, isWs c = false

theorem isStop_of_isPlain {c : Char} (h : isPlain c = true) : isStop c = false := by
  rw [Bool.eq_false_iff]
  intro hstop
  simp only [isStop, isWs, Bool.or_eq_true, decide_eq_true_eq] at hstop
  rcases hstop with (((((rfl | rfl) | rfl) | rfl) | rfl) | rfl) | rfl
  all_goals exact absurd h (by decide)

/-- What is between the brackets of a list. -/
def ListBody (l : List Char) (vs : List (Val F)) : Prop := IsWs l ∧ vs = [] ∨ Elements l vs

/-- What is between the braces of an object. -/
def DictBody (l : List Char) (items : List (String × Val F)) : Prop :=
  IsWs l ∧ items = [] ∨ ∃ members, Members l members ∧ items = (OrdDict.ofList members).items

/-- A value, as its first character tells it. -/
inductive Form : List Char → Val F → Prop
  | word {l : List Char} {v : Val F} (h : Word l v) : Form l v
  | str {l s : List Char} (h : Chars l s) : Form (quote :: l ++ [quote]) (.str (String.ofList s))
  | list {l : List Char} {vs : List (Val F)} (h : ListBody l vs) : Form ('[' :: l ++ [']']) (.list vs)
  | dict {l : List Char} {items : List (String × Val F)} (h : DictBody l items) :
      Form ('{' :: l ++ ['}']) (.dict items)

theorem Denotes.form {l : List Char} {v : Val F} (h : Denotes l v) : Form l v := by
  cases h with
  | none => exact .word ⟨List.all_eq_true.mp rfl, rfl⟩
  | true => exact .word ⟨List.all_eq_true.mp rfl, rfl⟩
  | false => exact .word ⟨List.all_eq_true.mp rfl, rfl⟩
  | int hl => exact .word (word_int hl)
  | negInt hl => exact .word (word_negInt hl)
  | float hs hl he hx => exact .word (word_float hs hl he hx)
  | constant hl hx => exact .word (word_constant hl hx)
  | str h => exact .str h
  | emptyList hw => exact .list (.inl ⟨hw, rfl⟩)
  | list h => exact .list (.inr h)
  | emptyDict hw => exact .dict (.inl ⟨hw, rfl⟩)
  | dict h => exact .dict (.inr ⟨_, h, rfl⟩)

/-- A value begins with what may not follow one. -/
theorem head_of_denotes {l : List Char} {v : Val F} (h : Denotes l v) : ∃ c m, l = c :: m ∧ isStop c = false := by
  cases h.form with
  | word hw =>
    cases hw with
    | mk hplain _ => exact ⟨_, _, rfl, isStop_of_isPlain (hplain _ List.mem_cons_self)⟩
  | str _ | list _ | dict _ => exact ⟨_, _, rfl, by decide⟩

theorem isWs_of_isStop {c : Char} (h : isStop c = false) : isWs c = false := by
  unfold isStop at h
  simp only [Bool.or_eq_false_iff] at h
  exact h.1.1.1

theorem Word.ne {l m r : List Char} {v : Val F} {b : Char} (h : Word l v) (hb : isPlain b = false) :
    l ++ r ≠ b :: m := by
  cases h with
  | mk hplain _ =>
    intro heq
    rw [(List.cons.inj heq).1.symm, hplain _ List.mem_cons_self] at hb
    cases hb

/-- Whitespace ends where something else begins. -/
theorem ws_unique {w w' r r' : List Char} (hw : IsWs w) (hw' : IsWs w') (hr : NoWs r) (hr' : NoWs r')
    (heq : w ++ r = w' ++ r') : w = w' ∧ r = r' := append_inj_of_all hw hw' hr hr' heq

theorem noWs_cons {c : Char} {l : List Char} (hc : isWs c = false) : NoWs (c :: l) := by
  rintro d hd
  obtain rfl := Option.some.inj hd
  exact hc

/-- Whitespace before what may follow a value may follow it, too. -/
theorem stops_append {w r : List Char} (hw : IsWs w) (hr : Stops r) : Stops (w ++ r) := by
  cases w with
  | nil => exact hr
  | cons c w =>
    intro d hd
    obtain rfl := Option.some.inj hd
    simp [isStop, hw c List.mem_cons_self]

/-- The texts of fewer than `n` characters have one end and one value. -/
def UniqueBelow (F : Type) [Runtime F] (n : Nat) : Prop :=
  ∀ {l l' r r' : List Char} {v v' : Val F}, l.length < n → Denotes l v → Denotes l' v' → Stops r → Stops r' →
    l ++ r = l' ++ r' → l = l' ∧ v = v'

variable {n : Nat}

theorem Padded.unique (hn : UniqueBelow F n) {l l' r r' : List Char} {v v' : Val F} (hl : l.length < n)
    (h : Padded l v) (h' : Padded l' v') (hr : Stops r ∧ NoWs r) (hr' : Stops r' ∧ NoWs r') (heq : l ++ r = l' ++ r') :
    l = l' ∧ v = v' ∧ r = r' := by
  cases h with
  | mk h₁ h h₂ =>
    cases h' with
    | mk h₁' h' h₂' =>
      rename_i w₁ m w₂ w₁' m' w₂'
      have hno : ∀ {m : List Char} {v : Val F} (t : List Char), Denotes m v → NoWs (m ++ t) := by
        intro m v t hm
        obtain ⟨c, m, rfl, hc⟩ := head_of_denotes hm
        exact noWs_cons (isWs_of_isStop hc)
      simp only [List.append_assoc] at heq
      -- whitespace, the value, whitespace: each ends where the next part begins
      obtain ⟨rfl, hrest⟩ := ws_unique h₁ h₁' (hno _ h) (hno _ h') heq
      have hm : m.length < n := by
        simp only [List.length_append] at hl
        omega
      obtain ⟨rfl, rfl⟩ := hn hm h h' (stops_append h₂ hr.1) (stops_append h₂' hr'.1) hrest
      obtain ⟨rfl, rfl⟩ := ws_unique h₂ h₂' hr.2 hr'.2 (List.append_cancel_left hrest)
      exact ⟨rfl, rfl, rfl⟩

/-- Commas and brackets may follow a value, and are no whitespace. -/
theorem stops_cons {c : Char} (l : List Char) (hc : isStop c = true ∧ isWs c = false) :
    Stops (c :: l) ∧ NoWs (c :: l) := by
  refine ⟨?_, noWs_cons hc.2⟩
  intro d hd
  obtain rfl := Option.some.inj hd
  exact hc.1

theorem Elements.unique (hn : UniqueBelow F n) : ∀ {vs vs' : List (Val F)} {l l' r r' : List Char}, l.length < n →
    Elements l vs → Elements l' vs' → l ++ ']' :: r = l' ++ ']' :: r' → l = l' ∧ vs = vs' := by
  intro vs
  have hcomma : ∀ t, Stops (',' :: t) ∧ NoWs (',' :: t) := fun t => stops_cons t (by decide)
  have hclose : ∀ t, Stops (']' :: t) ∧ NoWs (']' :: t) := fun t => stops_cons t (by decide)
  induction vs with
  | nil =>
    intro vs' l l' r r' _ h
    cases h
  | cons v vs ih =>
    intro vs' l l' r r' hl h h' heq
    cases h with
    | one h =>
      cases h' with
      | one h' =>
        obtain ⟨rfl, rfl, -⟩ := h.unique hn hl h' (hclose r) (hclose r') heq
        exact ⟨rfl, rfl⟩
      | cons h' _ =>
        rw [List.append_assoc] at heq
        obtain ⟨-, -, hend⟩ := h.unique hn hl h' (hclose r) (hcomma _) heq
        exact absurd (List.cons.inj hend).1 (by decide)
    | cons h hrest =>
      simp only [List.length_append, List.length_cons] at hl
      rw [List.append_assoc] at heq
      cases h' with
      | one h' =>
        obtain ⟨-, -, hend⟩ := h.unique hn (by omega) h' (hcomma _) (hclose r') heq
        exact absurd (List.cons.inj hend).1 (by decide)
      | cons h' hrest' =>
        rw [List.append_assoc] at heq
        obtain ⟨rfl, rfl, hend⟩ := h.unique hn (by omega) h' (hcomma _) (hcomma _) heq
        obtain ⟨rfl, rfl⟩ := ih (by omega) hrest hrest' (List.cons.inj hend).2
        exact ⟨rfl, rfl⟩

omit [Runtime F] in
theorem Name.unique {l l' r r' : List Char} {k k' : String} (h : Name l k) (h' : Name l' k')
    (heq : l ++ ':' :: r = l' ++ ':' :: r') : l = l' ∧ k = k' ∧ r = r' := by
  cases h with
  | mk h₁ h h₂ =>
    cases h' with
    | mk h₁' h' h₂' =>
      have hno : ∀ t, NoWs (quote :: t) := fun t => noWs_cons (by decide)
      have hcolon : ∀ t, NoWs (':' :: t) := fun t => noWs_cons (by decide)
      simp only [List.append_assoc, List.cons_append, List.nil_append] at heq
      obtain ⟨rfl, hchars⟩ := ws_unique h₁ h₁' (hno _) (hno _) heq
      obtain ⟨rfl, rfl⟩ := h.unique h' (List.cons.inj hchars).2
      have hws := (List.cons.inj (List.append_cancel_left (List.cons.inj hchars).2)).2
      obtain ⟨rfl, hend⟩ := ws_unique h₂ h₂' (hcolon _) (hcolon _) hws
      exact ⟨rfl, rfl, (List.cons.inj hend).2⟩

theorem Members.unique (hn : UniqueBelow F n) : ∀ {items items' : List (String × Val F)} {l l' r r' : List Char},
    l.length < n → Members l items → Members l' items' → l ++ '}' :: r = l' ++ '}' :: r' →
      l = l' ∧ items = items' := by
  intro items
  have hcomma : ∀ t, Stops (',' :: t) ∧ NoWs (',' :: t) := fun t => stops_cons t (by decide)
  have hclose : ∀ t, Stops ('}' :: t) ∧ NoWs ('}' :: t) := fun t => stops_cons t (by decide)
  induction items with
  | nil =>
    intro items' l l' r r' _ h
    cases h
  | cons item items ih =>
    intro items' l l' r r' hl h h' heq
    cases h with
    | one hk h =>
      simp only [List.length_append, List.length_cons] at hl
      rw [List.append_assoc] at heq
      cases h' with
      | one hk' h' =>
        rw [List.append_assoc] at heq
        obtain ⟨rfl, rfl, hvalue⟩ := hk.unique hk' heq
        obtain ⟨rfl, rfl, -⟩ := h.unique hn (by omega) h' (hclose r) (hclose r') hvalue
        exact ⟨rfl, rfl⟩
      | cons hk' h' _ =>
        simp only [List.append_assoc, List.cons_append] at heq
        obtain ⟨-, -, hvalue⟩ := hk.unique hk' heq
        obtain ⟨-, -, hend⟩ := h.unique hn (by omega) h' (hclose r) (hcomma _) hvalue
        exact absurd (List.cons.inj hend).1 (by decide)
    | cons hk h hrest =>
      simp only [List.length_append, List.length_cons] at hl
      simp only [List.append_assoc, List.cons_append] at heq
      cases h' with
      | one hk' h' =>
        rw [List.append_assoc] at heq
        obtain ⟨-, -, hvalue⟩ := hk.unique hk' heq
        obtain ⟨-, -, hend⟩ := h.unique hn (by omega) h' (hcomma _) (hclose r') hvalue
        exact absurd (List.cons.inj hend).1 (by decide)
      | cons hk' h' hrest' =>
        simp only [List.append_assoc, List.cons_append] at heq
        obtain ⟨rfl, rfl, hvalue⟩ := hk.unique hk' heq
        obtain ⟨rfl, rfl, hend⟩ := h.unique hn (by omega) h' (hcomma _) (hcomma _) hvalue
        obtain ⟨rfl, rfl⟩ := ih (by omega) hrest hrest' (List.cons.inj hend).2
        exact ⟨rfl, rfl⟩

/-- After whitespace comes what may not follow a value. -/
def Opens (l : List Char) : Prop := ∃ w c m, l = w ++ c :: m ∧ IsWs w ∧ isStop c = false

theorem Opens.append {l : List Char} (h : Opens l) (t : List Char) : Opens (l ++ t) := by
  obtain ⟨w, c, m, rfl, hw, hc⟩ := h
  exact ⟨w, c, m ++ t, List.append_assoc _ _ _, hw, hc⟩

theorem opens_of_padded {l : List Char} {v : Val F} (h : Padded l v) : Opens l := by
  cases h with
  | mk h₁ h h₂ =>
    obtain ⟨c, m, rfl, hc⟩ := head_of_denotes h
    exact ⟨_, c, m ++ _, List.append_assoc _ _ _, h₁, hc⟩

theorem opens_of_elements {l : List Char} {vs : List (Val F)} (h : Elements l vs) : Opens l := by
  cases h with
  | one h => exact opens_of_padded h
  | cons h _ => exact (opens_of_padded h).append _

omit [Runtime F] in
theorem opens_of_name {l : List Char} {k : String} (h : Name l k) : Opens l := by
  cases h with
  | mk h₁ h h₂ =>
    rename_i w₁ l s w₂
    exact ⟨w₁, quote, l ++ [quote] ++ w₂, by simp, h₁, by decide⟩

theorem opens_of_members {l : List Char} {items : List (String × Val F)} (h : Members l items) : Opens l := by
  cases h with
  | one hk _ => exact (opens_of_name hk).append _
  | cons hk _ _ =>
    rw [List.append_assoc]
    exact (opens_of_name hk).append _

/-- Whitespace alone is not what begins with something else. -/
theorem Opens.ne_ws {l w r r' : List Char} {b : Char} (h : Opens l) (hw : IsWs w)
    (hb : isStop b = true ∧ isWs b = false) : w ++ b :: r ≠ l ++ b :: r' := by
  obtain ⟨w', c, m, rfl, hw', hc⟩ := h
  intro heq
  rw [List.append_assoc] at heq
  obtain ⟨-, hend⟩ := ws_unique hw hw' (noWs_cons hb.2) (noWs_cons (isWs_of_isStop hc)) heq
  rw [← (List.cons.inj hend).1, hb.1] at hc
  cases hc

theorem ListBody.unique (hn : UniqueBelow F n) {l l' r r' : List Char} {vs vs' : List (Val F)} (hl : l.length < n)
    (h : ListBody l vs) (h' : ListBody l' vs') (heq : l ++ ']' :: r = l' ++ ']' :: r') : l = l' ∧ vs = vs' := by
  have hclose : isStop ']' = true ∧ isWs ']' = false := by decide
  rcases h with ⟨hw, rfl⟩ | h
  · rcases h' with ⟨hw', rfl⟩ | h'
    · exact ⟨(ws_unique hw hw' (noWs_cons hclose.2) (noWs_cons hclose.2) heq).1, rfl⟩
    · exact absurd heq ((opens_of_elements h').ne_ws hw hclose)
  · rcases h' with ⟨hw', rfl⟩ | h'
    · exact absurd heq.symm ((opens_of_elements h).ne_ws hw' hclose)
    · exact h.unique hn hl h' heq

theorem DictBody.unique (hn : UniqueBelow F n) {l l' r r' : List Char} {items items' : List (String × Val F)}
    (hl : l.length < n) (h : DictBody l items) (h' : DictBody l' items') (heq : l ++ '}' :: r = l' ++ '}' :: r') :
    l = l' ∧ items = items' := by
  have hclose : isStop '}' = true ∧ isWs '}' = false := by decide
  rcases h with ⟨hw, rfl⟩ | ⟨members, h, rfl⟩
  · rcases h' with ⟨hw', rfl⟩ | ⟨members', h', rfl⟩
    · exact ⟨(ws_unique hw hw' (noWs_cons hclose.2) (noWs_cons hclose.2) heq).1, rfl⟩
    · exact absurd heq ((opens_of_members h').ne_ws hw hclose)
  · rcases h' with ⟨hw', rfl⟩ | ⟨members', h', rfl⟩
    · exact absurd heq.symm ((opens_of_members h).ne_ws hw' hclose)
    · obtain ⟨rfl, rfl⟩ := h.unique hn hl h' heq
      exact ⟨rfl, rfl⟩

omit [Runtime F] in
/-- A bracketed text, with what follows it. -/
theorem bracket_append (b d : Char) (l r : List Char) : b :: l ++ [d] ++ r = b :: (l ++ d :: r) := by
  simp

/-- **A value** ends where it ends, by induction on the length of its text. -/
theorem uniqueBelow : ∀ n, UniqueBelow F n
  | 0 => fun hl => absurd hl (Nat.not_lt_zero _)
  | n + 1 => by
    intro hl h h' hr hr' heq
    have hn : UniqueBelow F n := uniqueBelow n
    -- values of two forms differ in their first character
    cases h.form with
    | word hw =>
      cases h'.form with
      | word hw' =>
        have hplain : ∀ {m : List Char} {w : Val F}, Word m w → ∀ c ∈ m, (!isStop c) = true := by
          rintro _ _ ⟨hplain, -⟩ c hc
          rw [isStop_of_isPlain (hplain c hc)]
          rfl
        obtain ⟨rfl, -⟩ := append_inj_of_all (p := fun c => !isStop c) (hplain hw) (hplain hw')
          (fun c hc => by rw [hr c hc]; rfl) (fun c hc => by rw [hr' c hc]; rfl) heq
        exact ⟨rfl, hw.unique hw'⟩
      | str _ | list _ | dict _ => exact absurd heq (hw.ne (by decide))
    | str hs =>
      cases h'.form with
      | word hw' => exact absurd heq.symm (hw'.ne (by decide))
      | str hs' =>
        rw [bracket_append, bracket_append] at heq
        obtain ⟨rfl, rfl⟩ := hs.unique hs' (List.cons.inj heq).2
        exact ⟨rfl, rfl⟩
      | list _ | dict _ => exact absurd (List.cons.inj heq).1 (by decide)
    | list hvs =>
      simp only [List.length_append, List.length_cons, List.length_nil] at hl
      cases h'.form with
      | word hw' => exact absurd heq.symm (hw'.ne (by decide))
      | list hvs' =>
        rw [bracket_append, bracket_append] at heq
        obtain ⟨rfl, rfl⟩ := hvs.unique hn (by omega) hvs' (List.cons.inj heq).2
        exact ⟨rfl, rfl⟩
      | str _ | dict _ => exact absurd (List.cons.inj heq).1 (by decide)
    | dict hitems =>
      simp only [List.length_append, List.length_cons, List.length_nil] at hl
      cases h'.form with
      | word hw' => exact absurd heq.symm (hw'.ne (by decide))
      | dict hitems' =>
        rw [bracket_append, bracket_append] at heq
        obtain ⟨rfl, rfl⟩ := hitems.unique hn (by omega) hitems' (List.cons.inj heq).2
        exact ⟨rfl, rfl⟩
      | str _ | list _ => exact absurd (List.cons.inj heq).1 (by decide)

/-- **A text has one value.** -/
theorem Text.unique {s : String} {v v' : Val F} (h : Text s v) (h' : Text s v') : v = v' := by
  have hend : Stops [] ∧ NoWs [] := ⟨nofun, nofun⟩
  exact (Padded.unique (uniqueBelow _) (Nat.lt_succ_self _) h h' hend hend rfl).2.1

end Json

end HadrAgent
