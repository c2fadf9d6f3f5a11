import Mathlib.Data.Rat.Floor
import HadrAgent.Python.Order

/-!
# The calculator

`_calc` of `agent.py` with the operators `main` installs: a walk over a syntax tree that computes what it allows and
raises at the rest. Integers are exact; what floats do is a parameter (`FloatArith`). The interpreter's limits of
recursion and memory are left out.

- `calc_allowed`: a tree that has a value holds nothing but numbers, the seven operators and the minus sign;
- `calc_meaning`: a tree of integers has the value that arithmetic gives it (`Node.meaning`);
- `calc_fails_iff`: it has none exactly if it divides by zero.
-/

namespace HadrAgent

variable {F : Type}

/-! ## Syntax trees -/

/-- `ast.operator`. -/
inductive BinaryOp where
  | add | sub | mult | matMult | div | mod | pow | lShift | rShift | bitOr | bitXor | bitAnd | floorDiv
deriving DecidableEq

/-- `ast.unaryop`. -/
inductive UnaryOp where
  | invert | not | uAdd | uSub
deriving DecidableEq

/-- An expression of Python, as `ast.parse` gives it. What is neither a constant nor an operation has a kind and
children. -/
inductive Node (F : Type) where
  | constant (value : Val F)
  | binOp (left : Node F) (op : BinaryOp) (right : Node F)
  | unaryOp (op : UnaryOp) (operand : Node F)
  | other (kind : String) (children : List (Node F))

mutual

/-- The nodes of a tree, its root among them. -/
def Node.nodes : Node F → List (Node F)
  | .constant value => [.constant value]
  | .binOp left op right => .binOp left op right :: (left.nodes ++ right.nodes)
  | .unaryOp op operand => .unaryOp op operand :: operand.nodes
  | .other kind children => .other kind children :: nodesOf children

def nodesOf : List (Node F) → List (Node F)
  | [] => []
  | n :: ns => n.nodes ++ nodesOf ns

end

namespace Node

@[simp] theorem nodes_constant (value : Val F) : (constant value).nodes = [constant value] := rfl

@[simp] theorem nodes_binOp (left : Node F) (op : BinaryOp) (right : Node F) :
    (binOp left op right).nodes = binOp left op right :: (left.nodes ++ right.nodes) := rfl

@[simp] theorem nodes_unaryOp (op : UnaryOp) (operand : Node F) :
    (unaryOp op operand).nodes = unaryOp op operand :: operand.nodes := rfl

/-- A property of all nodes is one of the root and of the nodes of its parts. -/
theorem forall_binOp {P : Node F → Prop} {left right : Node F} {op : BinaryOp} :
    (∀ m ∈ (binOp left op right).nodes, P m) ↔
      P (binOp left op right) ∧ (∀ m ∈ left.nodes, P m) ∧ ∀ m ∈ right.nodes, P m := by
  rw [nodes_binOp, List.forall_mem_cons, List.forall_mem_append]

theorem forall_unaryOp {P : Node F → Prop} {op : UnaryOp} {operand : Node F} :
    (∀ m ∈ (unaryOp op operand).nodes, P m) ↔ P (unaryOp op operand) ∧ ∀ m ∈ operand.nodes, P m := by
  rw [nodes_unaryOp, List.forall_mem_cons]

end Node

/-! ## Evaluation -/

/-- `isinstance(v, (int, float))`. -/
def Val.isNumber (v : Val F) : Bool := v.number?.isSome

/-- What the operators do where they leave the integers: on floats, in `/`, and in powers with a negative exponent. -/
structure FloatArith (F : Type) where
  binary : BinaryOp → Val F → Val F → Except Exc (Val F)
  neg : Val F → Except Exc (Val F)

/-- `ZeroDivisionError`. -/
def zeroDivision (text : String) : Exc := ⟨.other "ZeroDivisionError", text⟩

section Calc

variable (arith : FloatArith F)

/-- An operator that is exact on integers. -/
def onInts (op : BinaryOp) (f : Int → Int → Except Exc (Val F)) (a b : Val F) : Except Exc (Val F) :=
  match a.int?, b.int? with
  | some m, some n => f m n
  | _, _ => arith.binary op a b

/-- `operator.add`. -/
def operatorAdd : Val F → Val F → Except Exc (Val F) := onInts arith .add fun m n => .ok (.int (m + n))

/-- `operator.sub`. -/
def operatorSub : Val F → Val F → Except Exc (Val F) := onInts arith .sub fun m n => .ok (.int (m - n))

/-- `operator.mul`. -/
def operatorMul : Val F → Val F → Except Exc (Val F) := onInts arith .mult fun m n => .ok (.int (m * n))

/-- `operator.truediv`. -/
def operatorTruediv : Val F → Val F → Except Exc (Val F) := arith.binary .div

/-- `operator.floordiv`. -/
def operatorFloordiv : Val F → Val F → Except Exc (Val F) := onInts arith .floorDiv fun m n =>
  if n = 0 then .error (zeroDivision "integer division or modulo by zero") else .ok (.int (m.fdiv n))

/-- `operator.mod`. -/
def operatorMod : Val F → Val F → Except Exc (Val F) := onInts arith .mod fun m n =>
  if n = 0 then .error (zeroDivision "integer modulo by zero") else .ok (.int (m.fmod n))

/-- `operator.pow`. -/
def operatorPow : Val F → Val F → Except Exc (Val F) := onInts arith .pow fun m n =>
  if 0 ≤ n then .ok (.int (m ^ n.toNat)) else arith.binary .pow (.int m) (.int n)

/-- `operator.neg`. -/
def operatorNeg (a : Val F) : Except Exc (Val F) :=
  match a.int? with
  | some n => .ok (.int (-n))
  | none => arith.neg a

/-- The operators of two operands in `_CALC_OPS`. -/
def calcOps : BinaryOp → Option (Val F → Val F → Except Exc (Val F))
  | .add => some (operatorAdd arith)
  | .sub => some (operatorSub arith)
  | .mult => some (operatorMul arith)
  | .div => some (operatorTruediv arith)
  | .floorDiv => some (operatorFloordiv arith)
  | .mod => some (operatorMod arith)
  | .pow => some (operatorPow arith)
  | _ => none

/-- The operators of one operand in it. -/
def calcUnaryOps : UnaryOp → Option (Val F → Except Exc (Val F))
  | .uSub => some (operatorNeg arith)
  | _ => none

/-- What `_calc` raises at a node it does not allow. -/
def notAllowed : Exc := ⟨.valueError, "numbers and + - * / // % ** only"⟩

/-- `_calc`. -/
def calcNode : Node F → Except Exc (Val F)
  | .constant value => if value.isNumber then .ok value else .error notAllowed
  | .binOp left op right =>
    match calcOps arith op with
    | some f => do f (← calcNode left) (← calcNode right)
    | none => .error notAllowed
  | .unaryOp op operand =>
    match calcUnaryOps arith op with
    | some f => do f (← calcNode operand)
    | none => .error notAllowed
  | .other _ _ => .error notAllowed

end Calc

variable {arith : FloatArith F}

theorem calc_constant_eq_ok {value v : Val F} :
    calcNode arith (.constant value) = .ok v ↔ value.isNumber = true ∧ value = v := by
  unfold calcNode
  split
  · next h => simp [h]
  · next h => simp [h]

theorem calc_binOp_eq_ok {left right : Node F} {op : BinaryOp} {v : Val F} :
    calcNode arith (.binOp left op right) = .ok v ↔
      ∃ f a b, calcOps arith op = some f ∧ calcNode arith left = .ok a ∧ calcNode arith right = .ok b ∧
        f a b = .ok v := by
  rw [calcNode]
  cases calcOps arith op with
  | none => simp
  | some f =>
    rw [Except.bind_eq_ok]
    simp only [Except.bind_eq_ok, Option.some.injEq]
    constructor
    · rintro ⟨a, ha, b, hb, h⟩
      exact ⟨f, a, b, rfl, ha, hb, h⟩
    · rintro ⟨_, a, b, rfl, ha, hb, h⟩
      exact ⟨a, ha, b, hb, h⟩

theorem calc_unaryOp_eq_ok {op : UnaryOp} {operand : Node F} {v : Val F} :
    calcNode arith (.unaryOp op operand) = .ok v ↔
      ∃ f a, calcUnaryOps arith op = some f ∧ calcNode arith operand = .ok a ∧ f a = .ok v := by
  rw [calcNode]
  cases calcUnaryOps arith op with
  | none => simp
  | some f =>
    rw [Except.bind_eq_ok]
    constructor
    · rintro ⟨a, ha, h⟩
      exact ⟨f, a, rfl, ha, h⟩
    · rintro ⟨_, a, hf, ha, h⟩
      cases hf
      exact ⟨a, ha, h⟩

/-! ## The sandbox -/

/-- What may stand at a node: a number, one of seven operators, or a minus sign. -/
inductive Node.Allowed : Node F → Prop
  | int (n : Int) : Allowed (.constant (.int n))
  | float (x : F) : Allowed (.constant (.float x))
  | bool (b : Bool) : Allowed (.constant (.bool b))
  | binOp (left : Node F) {op : BinaryOp} (right : Node F)
      (hop : op ∈ [BinaryOp.add, .sub, .mult, .div, .floorDiv, .mod, .pow]) : Allowed (.binOp left op right)
  | uSub (operand : Node F) : Allowed (.unaryOp .uSub operand)

/-- Every node of a tree that has a value has a value. -/
theorem calc_nodes : ∀ {node : Node F} {v : Val F}, calcNode arith node = .ok v →
    ∀ m ∈ node.nodes, ∃ a, calcNode arith m = .ok a
  | .constant value, v, h => by
    rw [Node.nodes_constant, List.forall_mem_singleton]
    exact ⟨v, h⟩
  | .binOp left op right, v, h => by
    obtain ⟨f, a, b, -, ha, hb, -⟩ := calc_binOp_eq_ok.mp h
    exact Node.forall_binOp.mpr ⟨⟨v, h⟩, calc_nodes ha, calc_nodes hb⟩
  | .unaryOp op operand, v, h => by
    obtain ⟨f, a, -, ha, -⟩ := calc_unaryOp_eq_ok.mp h
    exact Node.forall_unaryOp.mpr ⟨⟨v, h⟩, calc_nodes ha⟩
  | .other kind children, v, h => by
    unfold calcNode at h
    cases h

/-- A node that has a value is allowed. -/
theorem allowed_of_calc {m : Node F} {v : Val F} (h : calcNode arith m = .ok v) : m.Allowed := by
  cases m with
  | constant value =>
    obtain ⟨hnum, -⟩ := calc_constant_eq_ok.mp h
    cases value with
    | int n => exact .int n
    | float x => exact .float x
    | bool b => exact .bool b
    | _ => cases hnum
  | binOp left op right =>
    obtain ⟨f, a, b, hf, -⟩ := calc_binOp_eq_ok.mp h
    refine .binOp left right ?_
    cases op <;> first | decide | cases hf
  | unaryOp op operand =>
    obtain ⟨f, a, hf, -⟩ := calc_unaryOp_eq_ok.mp h
    cases op with
    | uSub => exact .uSub operand
    | _ => cases hf
  | other kind children =>
    unfold calcNode at h
    cases h

/-- **The sandbox**: a tree that has a value has nothing in it that is not allowed. -/
theorem calc_allowed {node : Node F} {v : Val F} (h : calcNode arith node = .ok v) : ∀ m ∈ node.nodes, m.Allowed := by
  intro m hm
  obtain ⟨a, ha⟩ := calc_nodes h m hm
  exact allowed_of_calc ha

/-! ## Integers -/

/-- **Floor division** rounds the quotient down. -/
theorem floor_div_eq_fdiv (a : Int) {b : Int} (hb : b ≠ 0) : ⌊(a : ℚ) / b⌋ = a.fdiv b := by
  have hpos : ∀ (a : Int) {b : Int}, 0 < b → ⌊(a : ℚ) / b⌋ = a.fdiv b := by
    intro a b hb
    have hbq : (0 : ℚ) < b := Int.cast_pos.mpr hb
    rw [Int.floor_eq_iff, le_div_iff₀ hbq, div_lt_iff₀ hbq]
    constructor
    · have hle := Int.mul_fdiv_self_le (x := a) hb
      rw [mul_comm] at hle
      exact_mod_cast hle
    · exact_mod_cast Int.lt_fdiv_add_one_mul_self a hb
  rcases Int.lt_or_gt_of_ne hb with hneg | hb
  · have hopp := hpos (-a) (Int.neg_pos.mpr hneg)
    rwa [Int.cast_neg, Int.cast_neg, neg_div_neg_eq, Int.neg_fdiv_neg] at hopp
  · exact hpos a hb

/-- What an operator means on integers; it means nothing where it divides by zero. -/
def BinaryOp.meaning (op : BinaryOp) (a b : Int) : Option Int :=
  match op with
  | .add => some (a + b)
  | .sub => some (a - b)
  | .mult => some (a * b)
  | .floorDiv => if b = 0 then none else some ⌊(a : ℚ) / b⌋
  | .mod => if b = 0 then none else some (a - b * ⌊(a : ℚ) / b⌋)
  | _ => none

theorem BinaryOp.meaning_floorDiv (a b : Int) :
    BinaryOp.floorDiv.meaning a b = if b = 0 then none else some (a.fdiv b) := by
  show (if b = 0 then none else some ⌊(a : ℚ) / b⌋) = _
  split
  · rfl
  · next hb => rw [floor_div_eq_fdiv a hb]

theorem BinaryOp.meaning_mod (a b : Int) :
    BinaryOp.mod.meaning a b = if b = 0 then none else some (a.fmod b) := by
  show (if b = 0 then none else some (a - b * ⌊(a : ℚ) / b⌋)) = _
  split
  · rfl
  · next hb => rw [floor_div_eq_fdiv a hb, Int.mul_fdiv_self, sub_sub_cancel]

/-- What a tree of integers means. -/
def Node.meaning : Node F → Option Int
  | .constant value => value.int?
  | .binOp left op right => left.meaning.bind fun a => right.meaning.bind fun b => op.meaning a b
  | .unaryOp .uSub operand => operand.meaning.map fun a => -a
  | _ => none

/-- What may stand in a tree of integers. -/
inductive Node.IsInteger : Node F → Prop
  | int (n : Int) : IsInteger (.constant (.int n))
  | bool (b : Bool) : IsInteger (.constant (.bool b))
  | binOp (left : Node F) {op : BinaryOp} (right : Node F)
      (hop : op ∈ [BinaryOp.add, .sub, .mult, .floorDiv, .mod]) : IsInteger (.binOp left op right)
  | uSub (operand : Node F) : IsInteger (.unaryOp .uSub operand)

/-- What a computation gives where an integer is meant, or nothing. -/
def Computes (r : Except Exc (Val F)) (meant : Option Int) : Prop :=
  match meant with
  | some n => ∃ v, r = .ok v ∧ v.int? = some n
  | none => ∃ e, r = .error e

theorem onInts_of_int {op : BinaryOp} {f : Int → Int → Except Exc (Val F)} {a b : Val F} {m n : Int}
    (ha : a.int? = some m) (hb : b.int? = some n) : onInts arith op f a b = f m n := by
  unfold onInts
  rw [ha, hb]

/-- What raises at zero means nothing there. -/
theorem computes_unless_zero (n k : Int) (e : Exc) :
    Computes (if n = 0 then .error e else .ok (.int k) : Except Exc (Val F)) (if n = 0 then none else some k) := by
  by_cases hn : n = 0
  · rw [if_pos hn, if_pos hn]
    exact ⟨e, rfl⟩
  · rw [if_neg hn, if_neg hn]
    exact ⟨_, rfl, rfl⟩

/-- **The operators** compute what they mean. -/
theorem computes_op (arith : FloatArith F) {op : BinaryOp}
    (hop : op ∈ [BinaryOp.add, .sub, .mult, .floorDiv, .mod]) :
    ∃ f, calcOps arith op = some f ∧
      ∀ a b m n, a.int? = some m → b.int? = some n → Computes (f a b) (op.meaning m n) := by
  simp only [List.mem_cons, List.not_mem_nil, or_false] at hop
  rcases hop with rfl | rfl | rfl | rfl | rfl
  · exact ⟨_, rfl, fun a b m n ha hb => ⟨_, onInts_of_int ha hb, rfl⟩⟩
  · exact ⟨_, rfl, fun a b m n ha hb => ⟨_, onInts_of_int ha hb, rfl⟩⟩
  · exact ⟨_, rfl, fun a b m n ha hb => ⟨_, onInts_of_int ha hb, rfl⟩⟩
  · refine ⟨_, rfl, ?_⟩
    intro a b m n ha hb
    rw [operatorFloordiv, onInts_of_int ha hb, BinaryOp.meaning_floorDiv]
    exact computes_unless_zero n _ _
  · refine ⟨_, rfl, ?_⟩
    intro a b m n ha hb
    rw [operatorMod, onInts_of_int ha hb, BinaryOp.meaning_mod]
    exact computes_unless_zero n _ _

/-- An operator means nothing where it divides by zero, and only there. -/
theorem BinaryOp.meaning_eq_none_iff {op : BinaryOp} (hop : op ∈ [BinaryOp.add, .sub, .mult, .floorDiv, .mod])
    (a b : Int) : op.meaning a b = none ↔ (op = .floorDiv ∨ op = .mod) ∧ b = 0 := by
  simp only [List.mem_cons, List.not_mem_nil, or_false] at hop
  rcases hop with rfl | rfl | rfl | rfl | rfl <;> simp [meaning]

theorem Computes.ok {r : Except Exc (Val F)} {meant : Option Int} (h : Computes r meant) {v : Val F} (hr : r = .ok v) :
    ∃ n, meant = some n ∧ v.int? = some n := by
  cases meant with
  | none =>
    obtain ⟨e, he⟩ := h
    rw [hr] at he
    cases he
  | some n =>
    obtain ⟨w, hw, hint⟩ := h
    obtain rfl := Except.ok.inj (hr.symm.trans hw)
    exact ⟨n, rfl, hint⟩

theorem Computes.error_iff {r : Except Exc (Val F)} {meant : Option Int} (h : Computes r meant) :
    (∃ e, r = .error e) ↔ meant = none := by
  cases meant with
  | none => exact iff_of_true h rfl
  | some n =>
    obtain ⟨v, rfl, -⟩ := h
    refine iff_of_false ?_ (Option.some_ne_none n)
    rintro ⟨e, he⟩
    cases he

/-- An operation on operands that have values is computed by its operator. -/
theorem calc_binOp_of_ok {left right : Node F} {op : BinaryOp} {f : Val F → Val F → Except Exc (Val F)} {a b : Val F}
    (hf : calcOps arith op = some f) (ha : calcNode arith left = .ok a) (hb : calcNode arith right = .ok b) :
    calcNode arith (.binOp left op right) = f a b := by
  rw [calcNode, hf, ha, hb]
  rfl

/-- **A tree of integers** is computed as arithmetic means it. -/
theorem calc_meaning : ∀ {node : Node F}, (∀ m ∈ node.nodes, m.IsInteger) →
    Computes (calcNode arith node) node.meaning
  | .constant value, h => by
    have hroot := h _ List.mem_cons_self
    cases hroot with
    | int n => exact ⟨_, rfl, rfl⟩
    | bool b => exact ⟨_, rfl, rfl⟩
  | .binOp left op right, h => by
    obtain ⟨hroot, hleft, hright⟩ := Node.forall_binOp.mp h
    have hl : Computes (calcNode arith left) left.meaning := calc_meaning hleft
    have hr : Computes (calcNode arith right) right.meaning := calc_meaning hright
    cases hroot with
    | binOp _ _ hop =>
      obtain ⟨f, hf, hcomputes⟩ := computes_op arith hop
      rw [Node.meaning]
      cases ha : calcNode arith left with
      | error e =>
        rw [hl.error_iff.mp ⟨e, ha⟩]
        refine ⟨e, ?_⟩
        rw [calcNode, hf, ha]
        rfl
      | ok a =>
        obtain ⟨m, hm, ham⟩ := hl.ok ha
        rw [hm]
        cases hb : calcNode arith right with
        | error e =>
          rw [hr.error_iff.mp ⟨e, hb⟩]
          refine ⟨e, ?_⟩
          rw [calcNode, hf, ha, hb]
          rfl
        | ok b =>
          obtain ⟨n, hn, hbn⟩ := hr.ok hb
          rw [hn, calc_binOp_of_ok hf ha hb]
          exact hcomputes a b m n ham hbn
  | .unaryOp op operand, h => by
    obtain ⟨hroot, hoperand⟩ := Node.forall_unaryOp.mp h
    have hx : Computes (calcNode arith operand) operand.meaning := calc_meaning hoperand
    cases hroot with
    | uSub _ =>
      rw [Node.meaning, calcNode, calcUnaryOps]
      cases ha : calcNode arith operand with
      | error e =>
        rw [hx.error_iff.mp ⟨e, ha⟩]
        exact ⟨e, rfl⟩
      | ok a =>
        obtain ⟨m, hm, ham⟩ := hx.ok ha
        rw [hm]
        refine ⟨.int (-m), ?_, rfl⟩
        change operatorNeg arith a = _
        unfold operatorNeg
        rw [ham]
  | .other kind children, h => by
    have hroot := h _ List.mem_cons_self
    cases hroot

/-- Somewhere in a tree two operands have values, the right one zero, and are divided. -/
def Node.DividesByZero (arith : FloatArith F) (node : Node F) : Prop :=
  ∃ left op right, Node.binOp left op right ∈ node.nodes ∧ (op = .floorDiv ∨ op = .mod) ∧
    (∃ a, calcNode arith left = .ok a) ∧ ∃ b, calcNode arith right = .ok b ∧ b.int? = some 0

/-- A division by zero is one at the root or in an operand. -/
theorem Node.dividesByZero_binOp {left right : Node F} {op : BinaryOp} :
    (binOp left op right).DividesByZero arith ↔
      ((op = .floorDiv ∨ op = .mod) ∧ (∃ a, calcNode arith left = .ok a) ∧
        ∃ b, calcNode arith right = .ok b ∧ b.int? = some 0) ∨
      left.DividesByZero arith ∨ right.DividesByZero arith := by
  unfold DividesByZero
  rw [nodes_binOp]
  constructor
  · rintro ⟨l, o, r, hmem, h⟩
    rcases List.mem_cons.mp hmem with he | hmem
    · cases he
      exact .inl h
    · rcases List.mem_append.mp hmem with hmem | hmem
      · exact .inr (.inl ⟨l, o, r, hmem, h⟩)
      · exact .inr (.inr ⟨l, o, r, hmem, h⟩)
  · rintro (h | ⟨l, o, r, hmem, h⟩ | ⟨l, o, r, hmem, h⟩)
    · exact ⟨left, op, right, List.mem_cons_self, h⟩
    · exact ⟨l, o, r, List.mem_cons_of_mem _ (List.mem_append_left _ hmem), h⟩
    · exact ⟨l, o, r, List.mem_cons_of_mem _ (List.mem_append_right _ hmem), h⟩

theorem Node.dividesByZero_unaryOp {op : UnaryOp} {operand : Node F} :
    (unaryOp op operand).DividesByZero arith ↔ operand.DividesByZero arith := by
  unfold DividesByZero
  rw [nodes_unaryOp]
  constructor
  · rintro ⟨l, o, r, hmem, h⟩
    rcases List.mem_cons.mp hmem with he | hmem
    · cases he
    · exact ⟨l, o, r, hmem, h⟩
  · rintro ⟨l, o, r, hmem, h⟩
    exact ⟨l, o, r, List.mem_cons_of_mem _ hmem, h⟩

/-- An operation fails where an operand fails, or the operator means nothing. -/
theorem meaning_binOp_eq_none {left right : Node F} {op : BinaryOp} :
    (Node.binOp left op right).meaning = none ↔ left.meaning = none ∨ right.meaning = none ∨
      ∃ a b, left.meaning = some a ∧ right.meaning = some b ∧ op.meaning a b = none := by
  rw [Node.meaning]
  cases left.meaning with
  | none => simp
  | some a =>
    cases right.meaning with
    | none => simp
    | some b => simp

/-- **A tree of integers fails** exactly if it divides by zero. -/
theorem calc_fails_iff : ∀ {node : Node F}, (∀ m ∈ node.nodes, m.IsInteger) →
    ((∃ e, calcNode arith node = .error e) ↔ node.DividesByZero arith)
  | .constant value, h => by
    rw [(calc_meaning h).error_iff]
    have hroot := h _ List.mem_cons_self
    have hno : ¬ (Node.constant value).DividesByZero arith := by
      rintro ⟨l, o, r, hmem, -⟩
      cases List.mem_singleton.mp hmem
    refine iff_of_false ?_ hno
    cases hroot with
    | int n => exact Option.some_ne_none n
    | bool b => exact Option.some_ne_none _
  | .binOp left op right, h => by
    obtain ⟨hroot, hleft, hright⟩ := Node.forall_binOp.mp h
    have hl : Computes (calcNode arith left) left.meaning := calc_meaning hleft
    have hr : Computes (calcNode arith right) right.meaning := calc_meaning hright
    rw [(calc_meaning h).error_iff, meaning_binOp_eq_none, Node.dividesByZero_binOp, ← calc_fails_iff hleft,
      ← calc_fails_iff hright, hl.error_iff, hr.error_iff]
    cases hroot with
    | binOp _ _ hop =>
      constructor
      · rintro (hnone | hnone | ⟨m, n, hm, hn, hnone⟩)
        · exact .inr (.inl hnone)
        · exact .inr (.inr hnone)
        · obtain ⟨hdiv, rfl⟩ := (BinaryOp.meaning_eq_none_iff hop m n).mp hnone
          rw [hm] at hl
          rw [hn] at hr
          obtain ⟨a, ha, -⟩ := hl
          exact .inl ⟨hdiv, ⟨a, ha⟩, hr⟩
      · rintro (⟨hdiv, ⟨a, ha⟩, b, hb, hzero⟩ | hnone | hnone)
        · obtain ⟨m, hm, -⟩ := hl.ok ha
          obtain ⟨n, hn, hbn⟩ := hr.ok hb
          obtain rfl := Option.some.inj (hzero.symm.trans hbn)
          exact .inr (.inr ⟨m, 0, hm, hn, (BinaryOp.meaning_eq_none_iff hop m 0).mpr ⟨hdiv, rfl⟩⟩)
        · exact .inl hnone
        · exact .inr (.inl hnone)
  | .unaryOp op operand, h => by
    obtain ⟨hroot, hoperand⟩ := Node.forall_unaryOp.mp h
    have hx : Computes (calcNode arith operand) operand.meaning := calc_meaning hoperand
    rw [(calc_meaning h).error_iff, Node.dividesByZero_unaryOp, ← calc_fails_iff hoperand, hx.error_iff]
    cases hroot with
    | uSub _ =>
      rw [Node.meaning]
      exact Option.map_eq_none_iff
  | .other kind children, h => by
    have hroot := h _ List.mem_cons_self
    cases hroot

/-- **The calculator** gives values only to trees of numbers, the seven operators and the minus sign; on integers it
computes what arithmetic means, and fails exactly where a tree divides by zero. -/
theorem calc_sound (arith : FloatArith F) (node : Node F) :
    (∀ v, calcNode arith node = .ok v → ∀ m ∈ node.nodes, m.Allowed) ∧
    ((∀ m ∈ node.nodes, m.IsInteger) →
      (∀ v, calcNode arith node = .ok v → ∃ n, node.meaning = some n ∧ v.int? = some n) ∧
      ((∃ e, calcNode arith node = .error e) ↔
        ∃ left op right, Node.binOp left op right ∈ node.nodes ∧ (op = .floorDiv ∨ op = .mod) ∧
          (∃ a, calcNode arith left = .ok a) ∧ ∃ b, calcNode arith right = .ok b ∧ b.int? = some 0)) := by
  refine ⟨fun v hv => calc_allowed hv, fun h => ⟨fun v hv => ?_, ?_⟩⟩
  · exact (calc_meaning h).ok hv
  · exact calc_fails_iff h

end HadrAgent
