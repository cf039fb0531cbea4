import Mathlib.Data.List.FinRange
import Mathlib.Algebra.Field.Basic
import SweepDSEmu.Lib.FinNumerals

/-!
# Vector expressions

Expressions of a shading language over vectors of numbers, integers and truth values, and assignments to some
components of a variable.

* Numbers are those of a field with an order: there is no NaN and no infinity.
* Variables are a parameter, and so are the built-in functions that a field does not have.
-/

namespace SweepDSEmu.VectorExpr

inductive Kind where
  | float
  | int
  | bool
  deriving DecidableEq

abbrev Kind.Carrier (F : Type) : Kind → Type
  | .float => F
  | .int => Int
  | .bool => Bool

structure Builtins (F : Type) where
  floor : F → F
  inversesqrt : F → F
  exp2 : F → F
  log2 : F → F
  /-- The conversion to an integer. -/
  toInt : F → Int

inductive Comparison where
  | equal
  | notEqual
  | lessThan
  | lessThanEqual
  | greaterThan
  | greaterThanEqual
  deriving DecidableEq

inductive Unary where
  | neg
  | floor
  | inversesqrt
  | exp2
  | log2
  deriving DecidableEq

inductive Binary where
  | add
  | mul
  | div
  | max
  | min
  deriving DecidableEq

inductive Expr (V : Kind → Nat → Type) : Kind → Nat → Type where
  | var {κ : Kind} {n : Nat} (v : V κ n) : Expr V κ n
  | zeros (n : Nat) : Expr V .float n
  | ones (n : Nat) : Expr V .float n
  | swizzle {κ : Kind} {n m : Nat} (e : Expr V κ n) (selector : Fin m → Fin n) : Expr V κ m
  /-- A vector of the one value. -/
  | splat {κ : Kind} (n : Nat) (e : Expr V κ 1) : Expr V κ n
  /-- `vec4(e, 1.0)` -/
  | withOne (e : Expr V .float 3) : Expr V .float 4
  | unary {n : Nat} (op : Unary) (e : Expr V .float n) : Expr V .float n
  | binary {n : Nat} (op : Binary) (a b : Expr V .float n) : Expr V .float n
  | dot {n : Nat} (a b : Expr V .float n) : Expr V .float 1
  | compare {n : Nat} (op : Comparison) (a b : Expr V .float n) : Expr V .bool n
  | isnan {n : Nat} (e : Expr V .float n) : Expr V .bool n
  /-- The conversion of truth values to 1 and 0. -/
  | ofBool {n : Nat} (e : Expr V .bool n) : Expr V .float n
  /-- `x` where `a` is false, and `y` where it is true -/
  | mix {n : Nat} (x y : Expr V .float n) (a : Expr V .bool n) : Expr V .float n
  | toInt {n : Nat} (e : Expr V .float n) : Expr V .int n

section Eval

variable {F : Type} [Field F] [LinearOrder F] {V : Kind → Nat → Type}

def Comparison.eval (op : Comparison) (a b : F) : Bool :=
  match op with
  | .equal => a = b
  | .notEqual => a ≠ b
  | .lessThan => a < b
  | .lessThanEqual => a ≤ b
  | .greaterThan => a > b
  | .greaterThanEqual => a ≥ b

def Unary.eval (builtins : Builtins F) (op : Unary) (a : F) : F :=
  match op with
  | .neg => -a
  | .floor => builtins.floor a
  | .inversesqrt => builtins.inversesqrt a
  | .exp2 => builtins.exp2 a
  | .log2 => builtins.log2 a

def Binary.eval (op : Binary) (a b : F) : F :=
  match op with
  | .add => a + b
  | .mul => a * b
  | .div => a / b
  | .max => if a < b then b else a
  | .min => if b < a then b else a

/-- The value of an expression, where `env` has those of the variables. -/
def Expr.eval (builtins : Builtins F) (env : ∀ κ n, V κ n → Fin n → κ.Carrier F) {κ : Kind} {n : Nat} :
    Expr V κ n → Fin n → κ.Carrier F
  | .var v => env _ _ v
  | .zeros _ => fun _ => (0 : F)
  | .ones _ => fun _ => (1 : F)
  | .swizzle e selector => fun k => e.eval builtins env (selector k)
  | .splat _ e => fun _ => e.eval builtins env 0
  | .withOne e => fun k => if h : k.val < 3 then e.eval builtins env ⟨k.val, h⟩ else (1 : F)
  | .unary op e => fun k => op.eval builtins (e.eval builtins env k)
  | .binary op a b => fun k => op.eval (a.eval builtins env k) (b.eval builtins env k)
  | .dot a b => fun _ =>
    ((List.finRange _).map fun k => (a.eval builtins env k * b.eval builtins env k : F)).sum
  | .compare op a b => fun k => op.eval (F := F) (a.eval builtins env k) (b.eval builtins env k)
  | .isnan _ => fun _ => false
  | .ofBool e => fun k => if e.eval builtins env k = true then (1 : F) else 0
  | .mix x y a => fun k => if a.eval builtins env k = true then y.eval builtins env k else x.eval builtins env k
  | .toInt e => fun k => builtins.toInt (e.eval builtins env k)

end Eval

def maskOf {d : Nat} (enabled : Fin d → Bool) : List (Fin d) := (List.finRange d).filter fun k => enabled k

theorem mem_maskOf {d : Nat} (enabled : Fin d → Bool) (k : Fin d) : k ∈ maskOf enabled ↔ enabled k = true := by
  simp [maskOf]

theorem maskOf_eq_finRange {d : Nat} {enabled : Fin d → Bool} (h : (maskOf enabled).length = d) :
    maskOf enabled = List.finRange d := by
  refine List.filter_sublist.eq_of_length ?_
  rw [List.length_finRange]
  exact h

/-- Components of a vector are put into those of a variable that the mask lists. -/
def writeMasked {α : Type} {d m : Nat} (mask : List (Fin d)) (typed : mask.length = m) (value : Fin m → α)
    (old : Fin d → α) : Fin d → α := fun k =>
  if h : k ∈ mask then value ⟨mask.idxOf k, typed ▸ List.idxOf_lt_length_of_mem h⟩ else old k

theorem writeMasked_selected {α : Type} {d m : Nat} (mask : List (Fin d)) (typed : mask.length = m)
    (value : Fin d → α) (old : Fin d → α) :
    writeMasked mask typed (fun j : Fin m => value (mask.get (j.cast typed.symm))) old =
      fun k => if k ∈ mask then value k else old k := by
  funext k
  unfold writeMasked
  split
  · rename_i h
    simp
  · rfl

theorem writeMasked_all {α : Type} {d : Nat} {enabled : Fin d → Bool} (typed : (maskOf enabled).length = d)
    (value old : Fin d → α) : writeMasked (maskOf enabled) typed value old = value := by
  funext k
  have hall := maskOf_eq_finRange typed
  have hmem : k ∈ maskOf enabled := by
    rw [hall]
    exact List.mem_finRange k
  rw [writeMasked, dif_pos hmem]
  congr 1
  apply Fin.ext
  simp [hall]

end SweepDSEmu.VectorExpr
