import Crosstab.Formula.Function

/-!
# Formulas as trees

An `Expr` is a formula with its names resolved: it refers to fields by id. `depth` is the height of
the tree, `reads` lists the fields it refers to from left to right, and `dependencies` is the
sorted list of them.
-/

namespace Crosstab

abbrev FieldId := String

namespace Formula

/-- Operators between two operands, from the loosest to the tightest. -/
inductive Operator where
  | or
  | and
  | equal
  | notEqual
  | less
  | greater
  | lessEqual
  | greaterEqual
  | add
  | subtract
  | multiply
  | divide
  | modulo
  | power
  deriving DecidableEq

def Operator.symbol : Operator → String
  | or => "OR"
  | and => "AND"
  | equal => "=="
  | notEqual => "!="
  | less => "<"
  | greater => ">"
  | lessEqual => "<="
  | greaterEqual => ">="
  | add => "+"
  | subtract => "-"
  | multiply => "*"
  | divide => "/"
  | modulo => "%"
  | power => "^"

inductive Expr where
  | number (x : Float)
  | boolean (b : Bool)
  | field (id : FieldId)
  /-- A summary of a field over the records at hand. -/
  | summary (s : Summary) (id : FieldId)
  | binary (op : Operator) (left right : Expr)
  | negate (operand : Expr)
  | conditional (condition yes no : Expr)
  | call (f : Function) (args : List Expr)

namespace Expr

mutual

/-- The height of a tree; a leaf has height 1. -/
def depth : Expr → Nat
  | number _ | boolean _ | field _ | summary _ _ => 1
  | binary _ l r => max l.depth r.depth + 1
  | negate e => e.depth + 1
  | conditional c y n => max c.depth (max y.depth n.depth) + 1
  | call _ args => depthAll args + 1

def depthAll : List Expr → Nat
  | [] => 0
  | e :: es => max e.depth (depthAll es)

end

theorem depth_left_le (op : Operator) (l r : Expr) : l.depth ≤ (binary op l r).depth :=
  Nat.le_succ_of_le (Nat.le_max_left _ _)

theorem depth_right_le (op : Operator) (l r : Expr) : r.depth ≤ (binary op l r).depth :=
  Nat.le_succ_of_le (Nat.le_max_right _ _)

theorem depth_le_depthAll {e : Expr} {es : List Expr} (h : e ∈ es) : e.depth ≤ depthAll es := by
  induction h with
  | head es => exact Nat.le_max_left _ _
  | tail d _ ih => exact Nat.le_trans ih (Nat.le_max_right _ _)

mutual

def reads : Expr → List FieldId
  | number _ | boolean _ => []
  | field id | summary _ id => [id]
  | binary _ l r => l.reads ++ r.reads
  | negate e => e.reads
  | conditional c y n => c.reads ++ (y.reads ++ n.reads)
  | call _ args => readsAll args

def readsAll : List Expr → List FieldId
  | [] => []
  | e :: es => e.reads ++ readsAll es

end

/-- The fields that a formula refers to, each once, in ascending order. -/
def dependencies (e : Expr) : List FieldId :=
  e.reads.eraseDups.mergeSort fun a b => decide (a ≤ b)

theorem mem_dependencies {e : Expr} {id : FieldId} : id ∈ e.dependencies ↔ id ∈ e.reads := by
  rw [dependencies, (List.mergeSort_perm ..).mem_iff, List.mem_eraseDups]

end Expr

end Formula

end Crosstab
