import HadrAgent.Python.Value

/-!
# Python's order

`<` and `>` between values. Numbers compare across their types, strings by code points, lists and tuples at the first
place where they differ, and everything else raises. Between integers the two are the order of the integers
(`less_of_int`, `greater_of_int`).
-/

namespace HadrAgent

variable {F : Type}

/-- An order operator: its name, and what it says of the types it is defined for. -/
structure OrderOp (F : Type) where
  name : String
  ints : Int → Int → Bool
  floats : F → F → Bool
  intFloat : Int → F → Bool
  floatInt : F → Int → Bool
  strs : String → String → Bool

namespace OrderOp

variable [Runtime F]

/-- `n < x`. -/
def intLess (n : Int) (x : F) : Bool := !Runtime.isNan x && !Runtime.leInt x n

/-- `x < n`. -/
def lessInt (x : F) (n : Int) : Bool := Runtime.leInt x n && decide (Runtime.toInt? x ≠ some n)

/-- `<`. -/
def lt : OrderOp F where
  name := "<"
  ints m n := decide (m < n)
  floats := Runtime.lt
  intFloat := intLess
  floatInt := lessInt
  strs a b := decide (a < b)

/-- `>`. -/
def gt : OrderOp F where
  name := ">"
  ints m n := decide (n < m)
  floats x y := Runtime.lt y x
  intFloat n x := lessInt x n
  floatInt x n := intLess n x
  strs a b := decide (b < a)

/-- The operator between two numbers. -/
def numbers (op : OrderOp F) : Int ⊕ F → Int ⊕ F → Bool
  | .inl m, .inl n => op.ints m n
  | .inl m, .inr y => op.intFloat m y
  | .inr x, .inl n => op.floatInt x n
  | .inr x, .inr y => op.floats x y

end OrderOp

namespace Val

/-- The number a value is. -/
def number? : Val F → Option (Int ⊕ F)
  | .bool b => some (.inl (if b then 1 else 0))
  | .int n => some (.inl n)
  | .float x => some (.inr x)
  | _ => Option.none

/-- The integer a value is; `True` and `False` are integers. -/
def int? (v : Val F) : Option Int := v.number?.bind Sum.getLeft?

variable [Runtime F]

mutual

/-- `a op b`. -/
def compare (op : OrderOp F) (a b : Val F) : Except Exc Bool :=
  match a, b with
  | .str s, .str t => .ok (op.strs s t)
  | .list xs, .list ys => compareItems op xs ys
  | .tuple xs, .tuple ys => compareItems op xs ys
  | a, b => match a.number?, b.number? with
    | some x, some y => .ok (op.numbers x y)
    | _, _ => .error ⟨.typeError, "'" ++ op.name ++ "' not supported between instances of '" ++ a.typeName ++
        "' and '" ++ b.typeName ++ "'"⟩

/-- The first items that differ decide, and where there are none, the lengths. -/
def compareItems (op : OrderOp F) : List (Val F) → List (Val F) → Except Exc Bool
  | x :: xs, y :: ys => if same x y then compareItems op xs ys else compare op x y
  | xs, ys => .ok (op.ints xs.length ys.length)

end

/-- `a < b`. -/
def less (a b : Val F) : Except Exc Bool := compare .lt a b

/-- `a > b`. -/
def greater (a b : Val F) : Except Exc Bool := compare .gt a b

omit [Runtime F] in
theorem int?_eq_some {v : Val F} {n : Int} (h : v.int? = some n) : v.number? = some (.inl n) := by
  unfold int? at h
  cases hv : v.number? with
  | none =>
    rw [hv] at h
    cases h
  | some x =>
    rw [hv] at h
    cases x with
    | inl m => rw [show m = n from Option.some.inj h]
    | inr x => cases h

omit [Runtime F] in
theorem isNone_of_int? {v : Val F} {n : Int} (h : v.int? = some n) : v.isNone = false := by
  cases v with
  | none => cases h
  | _ => rfl

theorem compare_of_int {op : OrderOp F} {a b : Val F} {m n : Int} (ha : a.int? = some m) (hb : b.int? = some n) :
    compare op a b = .ok (op.ints m n) := by
  have ha' := int?_eq_some ha
  have hb' := int?_eq_some hb
  cases a with
  | bool _ | int _ =>
    unfold compare
    simp only [ha', hb', OrderOp.numbers]
  | _ => cases ha'

theorem less_of_int {a b : Val F} {m n : Int} (ha : a.int? = some m) (hb : b.int? = some n) :
    a.less b = .ok (decide (m < n)) := compare_of_int ha hb

theorem greater_of_int {a b : Val F} {m n : Int} (ha : a.int? = some m) (hb : b.int? = some n) :
    a.greater b = .ok (decide (n < m)) := compare_of_int ha hb

/-- Tuples compare where they first differ. -/
example : less (.tuple [.int 1, .int 5] : Val Whole) (.tuple [.int 1, .int 7, .str "x"]) = .ok true := by decide

end Val

end HadrAgent
