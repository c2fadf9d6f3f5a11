import Mathlib.Data.List.Infix
import Mathlib.Data.List.Sort
import HadrAgent.Lib.OrdDict
import HadrAgent.Python.Raise

/-!
# Python values

The values the agent passes around: what `json.loads` makes of a JSON text, tuples, and opaque objects. Floats are a
parameter `F`: what the program uses of them, and of the interpreter's tables, is the class `Runtime`.

- truth (`Val.truthy`), hashability (`Val.unhashable?`) and equality (`Val.same`, `Val.eq`);
- `repr` and `str`, of which error texts are made;
- subscripts, `dict.get`, membership, iteration, `float()`.
-/

namespace HadrAgent

/-- An object of a type the model does not look into; it is equal to itself only. -/
structure PyObject where
  id : Nat
  typeName : String
  text : String
  hashable : Bool
  truthy : Bool
deriving DecidableEq

/-- A Python value. The keys of a `dict` are strings, as in JSON. -/
inductive Val (F : Type) where
  | none
  | bool (b : Bool)
  | int (n : Int)
  | float (x : F)
  | str (s : String)
  | list (xs : List (Val F))
  | tuple (xs : List (Val F))
  | dict (items : List (String × Val F))
  | obj (o : PyObject)

/-- What is used of the interpreter without being defined here: binary64 floats, `math.dist` and a Unicode table. -/
class Runtime (F : Type) where
  decEq : DecidableEq F
  /-- The integer a float is equal to, as in `2.0 == 2`. -/
  toInt? : F → Option Int
  isNan : F → Bool
  /-- `<` and `<=` on floats, and `<=` between a float and an integer. -/
  lt : F → F → Bool
  le : F → F → Bool
  leInt : F → Int → Bool
  /-- `float(n)`; `none` when the integer is too large. -/
  ofInt : Int → Option F
  /-- `float(s)`; `none` when the text is not a number. -/
  ofStr : String → Option F
  reprFloat : F → String
  isprintable : Char → Bool
  /-- `math.dist`. -/
  dist : Val F → Val F → Except Exc F

/-- A JSON object or a set of keyword arguments. -/
abbrev Dict (F : Type) := OrdDict String (Val F)

variable {F : Type}

namespace Val

def isNone : Val F → Bool
  | .none => true
  | _ => false

/-- `isinstance(v, dict)`. -/
def isDict : Val F → Bool
  | .dict _ => true
  | _ => false

theorem isDict_iff (v : Val F) : v.isDict = true ↔ ∃ items, v = .dict items := by
  cases v <;> simp [isDict]

/-- `type(v).__name__`. -/
def typeName : Val F → String
  | .none => "NoneType"
  | .bool _ => "bool"
  | .int _ => "int"
  | .float _ => "float"
  | .str _ => "str"
  | .list _ => "list"
  | .tuple _ => "tuple"
  | .dict _ => "dict"
  | .obj o => o.typeName

mutual

/-- The name of the type that makes a value unhashable. -/
def unhashable? : Val F → Option String
  | .list _ => some "list"
  | .dict _ => some "dict"
  | .tuple xs => unhashableIn? xs
  | .obj o => if o.hashable then Option.none else some o.typeName
  | _ => Option.none

def unhashableIn? : List (Val F) → Option String
  | [] => Option.none
  | x :: xs => match x.unhashable? with
    | some t => some t
    | Option.none => unhashableIn? xs

end

/-- `hash(v)`, as far as it can raise. -/
def requireHash (v : Val F) : Except Exc Unit :=
  match v.unhashable? with
  | some t => .error ⟨.typeError, "unhashable type: '" ++ t ++ "'"⟩
  | Option.none => .ok ()

/-! ## Text -/

section Text

variable [Runtime F]

/-- The digits of `n` in base 16, padded to `width`. -/
def hexDigits (width n : Nat) : List Char :=
  let ds := Nat.toDigits 16 n
  List.replicate (width - ds.length) '0' ++ ds

/-- One character inside a `repr` between quotes `q`. -/
def escapeChar (F : Type) [Runtime F] (q c : Char) : List Char :=
  let backslash := Char.ofNat 92
  if c = q ∨ c = backslash then [backslash, c]
  else if c = '\n' then [backslash, 'n']
  else if c = '\r' then [backslash, 'r']
  else if c = '\t' then [backslash, 't']
  else if c.toNat < 32 ∨ c.toNat = 127 then backslash :: 'x' :: hexDigits 2 c.toNat
  else if c.toNat < 127 ∨ Runtime.isprintable F c then [c]
  else if c.toNat ≤ 255 then backslash :: 'x' :: hexDigits 2 c.toNat
  else if c.toNat ≤ 65535 then backslash :: 'u' :: hexDigits 4 c.toNat
  else backslash :: 'U' :: hexDigits 8 c.toNat

/-- `repr` of a string: single quotes, unless it holds a single quote and no double quote. -/
def reprStr (F : Type) [Runtime F] (s : String) : String :=
  let single := Char.ofNat 39
  let double := Char.ofNat 34
  let q := if single ∈ s.toList ∧ double ∉ s.toList then double else single
  String.ofList (q :: s.toList.flatMap (escapeChar F q) ++ [q])

mutual

/-- `repr(v)`. -/
def repr : Val F → String
  | .none => "None"
  | .bool b => if b then "True" else "False"
  | .int n => toString n
  | .float x => Runtime.reprFloat x
  | .str s => reprStr F s
  | .list xs => "[" ++ ", ".intercalate (reprs xs) ++ "]"
  | .tuple [x] => "(" ++ x.repr ++ ",)"
  | .tuple xs => "(" ++ ", ".intercalate (reprs xs) ++ ")"
  | .dict items => "\x7b" ++ ", ".intercalate (reprItems items) ++ "\x7d"
  | .obj o => o.text

def reprs : List (Val F) → List String
  | [] => []
  | x :: xs => x.repr :: reprs xs

def reprItems : List (String × Val F) → List String
  | [] => []
  | (k, v) :: items => (reprStr F k ++ ": " ++ v.repr) :: reprItems items

end

/-- `str(v)`. -/
def toStr : Val F → String
  | .str s => s
  | v => v.repr

end Text

/-! ## Truth, equality, membership -/

section Equality

variable [Runtime F]

local instance : DecidableEq F := Runtime.decEq

/-- `bool(v)`. -/
def truthy : Val F → Bool
  | .none => false
  | .bool b => b
  | .int n => n != 0
  | .float x => decide (Runtime.toInt? x ≠ some 0)
  | .str s => s != ""
  | .list xs => !xs.isEmpty
  | .tuple xs => !xs.isEmpty
  | .dict items => !items.isEmpty
  | .obj o => o.truthy

/-- The pieces of a value, up to equality: numbers that are equal across types are one piece. -/
inductive Token (F : Type) where
  | none
  | int (n : Int)
  | float (x : F)
  | str (s : String)
  | obj (o : PyObject)
  | list | tuple | dict | close
deriving DecidableEq

mutual

/-- A value written out as a sequence of pieces. Entries of a dictionary are listed by key. -/
def tokens : Val F → List (Token F)
  | .none => [.none]
  | .bool b => [.int (if b then 1 else 0)]
  | .int n => [.int n]
  | .float x => match Runtime.toInt? x with
    | some n => [.int n]
    | Option.none => [.float x]
  | .str s => [.str s]
  | .list xs => .list :: tokensList xs ++ [.close]
  | .tuple xs => .tuple :: tokensList xs ++ [.close]
  | .dict items =>
    .dict :: ((tokensItems items).insertionSort fun p q => p.1 ≤ q.1).flatMap (fun p => .str p.1 :: p.2) ++ [.close]
  | .obj o => [.obj o]

def tokensList : List (Val F) → List (Token F)
  | [] => []
  | x :: xs => x.tokens ++ tokensList xs

def tokensItems : List (String × Val F) → List (String × List (Token F))
  | [] => []
  | (k, v) :: items => (k, v.tokens) :: tokensItems items

end

/-- `a is b or a == b`: how containers, sets and dictionary keys compare. -/
def same (a b : Val F) : Bool := decide (a.tokens = b.tokens)

theorem same_iff {a b : Val F} : same a b = true ↔ a.tokens = b.tokens := decide_eq_true_iff

/-- `a == b`. -/
def eq (a b : Val F) : Bool :=
  match a with
  | .float x => !Runtime.isNan x && same a b
  | _ => same a b

/-- Only a string equals a string. -/
theorem same_str_iff {v : Val F} {s : String} : same v (.str s) = true ↔ v = .str s := by
  rw [same_iff]
  cases v with
  | float x =>
    simp only [tokens]
    split <;> simp
  | _ => simp [tokens]

theorem eq_str_iff {v : Val F} {s : String} : v.eq (.str s) = true ↔ v = .str s := by
  cases v with
  | float x =>
    have hs : same (.float x) (.str s) = false := Bool.eq_false_iff.mpr fun h => nomatch same_str_iff.mp h
    simp [eq, hs]
  | _ => exact same_str_iff

/-- `v in container`. -/
def isIn (v container : Val F) : Except Exc Bool :=
  match container with
  | .list xs => .ok (xs.any (same v))
  | .tuple xs => .ok (xs.any (same v))
  | .dict items => match v.requireHash with
    | .error e => .error e
    | .ok () => .ok (items.any fun p => same v (.str p.1))
  | .str t => match v with
    | .str s => .ok (decide (s.toList <:+: t.toList))
    | _ => .error ⟨.typeError, "'in <string>' requires string as left operand, not " ++ v.typeName⟩
  | _ => .error ⟨.typeError, "argument of type '" ++ container.typeName ++ "' is not iterable"⟩

/-- Keys of sets and dictionaries are values up to equality. -/
instance : DecidableEq (Token F) := inferInstance

end Equality

/-! ## Subscripts and conversions -/

section Access

variable [Runtime F]

/-- `float(v)`. -/
def toFloat : Val F → Except Exc F
  | .float x => .ok x
  | .bool b =>
    (Runtime.ofInt (if b then 1 else 0)).elim (.error ⟨.overflowError, "int too large to convert to float"⟩) .ok
  | .int n => (Runtime.ofInt n).elim (.error ⟨.overflowError, "int too large to convert to float"⟩) .ok
  | .str s => (Runtime.ofStr s).elim (.error ⟨.valueError, "could not convert string to float: " ++ reprStr F s⟩) .ok
  | v => .error ⟨.typeError, "float() argument must be a string or a real number, not '" ++ v.typeName ++ "'"⟩

/-- `KeyError(k)`. -/
def keyError (F : Type) [Runtime F] (k : String) : Exc := ⟨.keyError, reprStr F k⟩

/-- `v[k]` for a string `k`. -/
def getItem (v : Val F) (k : String) : Except Exc (Val F) :=
  match v with
  | .dict items => (items.lookup k).elim (.error (keyError F k)) .ok
  | .str _ => .error ⟨.typeError, "string indices must be integers, not 'str'"⟩
  | .list _ => .error ⟨.typeError, "list indices must be integers or slices, not str"⟩
  | .tuple _ => .error ⟨.typeError, "tuple indices must be integers or slices, not str"⟩
  | _ => .error ⟨.typeError, "'" ++ v.typeName ++ "' object is not subscriptable"⟩

/-- `v.get(k, default)`. -/
def getD (v : Val F) (k : String) (default : Val F) : Except Exc (Val F) :=
  match v with
  | .dict items => .ok ((items.lookup k).getD default)
  | _ => .error ⟨.attributeError, "'" ++ v.typeName ++ "' object has no attribute 'get'"⟩

/-- `iter(v)`, read to its end. -/
def iter : Val F → Except Exc (List (Val F))
  | .list xs => .ok xs
  | .tuple xs => .ok xs
  | .str s => .ok (s.toList.map fun c => .str (String.singleton c))
  | .dict items => .ok (items.map fun p => .str p.1)
  | v => .error ⟨.typeError, "'" ++ v.typeName ++ "' object is not iterable"⟩

end Access

end Val

namespace Dict

variable [Runtime F]

/-- `d[k]`. -/
def getItem (d : Dict F) (k : String) : Except Exc (Val F) := (d.get? k).elim (.error (Val.keyError F k)) .ok

/-- `d.get(k, default)`. -/
def getD (d : Dict F) (k : String) (default : Val F) : Val F := (d.get? k).getD default

/-- The dictionary as a value. -/
def toVal (d : Dict F) : Val F := .dict d.items

end Dict

/-! ## Whole floats -/

/-- Floats that are whole numbers, and NaN: a runtime in which the definitions evaluate. -/
inductive Whole where
  | val (n : Int)
  | nan
deriving DecidableEq

namespace Whole

/-- The coordinate a number denotes. -/
def ofVal? : Val Whole → Option Int
  | .int n => some n
  | .float (.val n) => some n
  | _ => none

/-- The root of `n`, searched below `bound`; exact on squares. -/
def root (n bound : Nat) : Nat := ((List.range (bound + 1)).find? fun r => n ≤ r * r).getD bound

/-- `math.dist` of two points of the plane. -/
def dist : Val Whole → Val Whole → Except Exc Whole
  | .tuple [a, b], .tuple [c, d] =>
    match ofVal? a, ofVal? b, ofVal? c, ofVal? d with
    | some a, some b, some c, some d =>
      let dx := (a - c).natAbs
      let dy := (b - d).natAbs
      .ok (.val (root (dx * dx + dy * dy) (dx + dy)))
    | _, _, _, _ => .ok .nan
  | _, _ => .error ⟨.typeError, "must be real number, not str"⟩

instance : Runtime Whole where
  decEq := inferInstance
  toInt? x := match x with
    | .val n => some n
    | .nan => none
  isNan x := decide (x = .nan)
  lt x y := match x, y with
    | .val m, .val n => decide (m < n)
    | _, _ => false
  le x y := match x, y with
    | .val m, .val n => decide (m ≤ n)
    | _, _ => false
  leInt x n := match x with
    | .val m => decide (m ≤ n)
    | .nan => false
  ofInt n := some (.val n)
  ofStr s := if s = "nan" then some .nan else s.toInt?.map .val
  reprFloat x := match x with
    | .val n => toString n ++ ".0"
    | .nan => "nan"
  isprintable c := c.isAlphanum
  dist := dist

end Whole

end HadrAgent
