import LivePage.Expr.Token
import LivePage.Value.Basic

/-!
# Expressions
-/

namespace LivePage

inductive UnaryOp where
  | not
  | negate
  | plus
deriving DecidableEq, Repr

inductive BinaryOp where
  | add
  | subtract
  | multiply
  | divide
  | modulo
  | equal
  | notEqual
  | strictEqual
  | strictNotEqual
  | less
  | lessEqual
  | greater
  | greaterEqual
deriving DecidableEq, Repr

inductive LogicalOp where
  | and
  | or
  | nullish
deriving DecidableEq, Repr

def UnaryOp.operator : UnaryOp → Operator
  | not => .not
  | negate => .minus
  | plus => .plus

def BinaryOp.operator : BinaryOp → Operator
  | add => .plus
  | subtract => .minus
  | multiply => .times
  | divide => .divide
  | modulo => .modulo
  | equal => .equal
  | notEqual => .notEqual
  | strictEqual => .strictEqual
  | strictNotEqual => .strictNotEqual
  | less => .less
  | lessEqual => .lessEqual
  | greater => .greater
  | greaterEqual => .greaterEqual

def LogicalOp.operator : LogicalOp → Operator
  | and => .and
  | or => .or
  | nullish => .nullish

/-- A link is optional where it was written with `?.`. -/
inductive Expr where
  | literal (v : Value)
  | identifier (name : String)
  | array (items : List Expr)
  | object (entries : List (String × Expr))
  | member (target : Expr) (property : String) (optional : Bool)
  | index (target position : Expr) (optional : Bool)
  | call (callee : Expr) (arguments : List Expr) (optional : Bool)
  | unary (op : UnaryOp) (operand : Expr)
  | binary (op : BinaryOp) (left right : Expr)
  | logical (op : LogicalOp) (left right : Expr)
  | conditional (test consequent alternate : Expr)
deriving Repr, Inhabited

namespace Expr

mutual

/-- Nodes on the longest way from the root to a leaf. -/
def height : Expr → Nat
  | literal _ | identifier _ => 1
  | array items => heightOfItems items + 1
  | object entries => heightOfEntries entries + 1
  | member target _ _ => target.height + 1
  | index target position _ => max target.height position.height + 1
  | call callee arguments _ => max callee.height (heightOfItems arguments) + 1
  | unary _ operand => operand.height + 1
  | binary _ left right | logical _ left right => max left.height right.height + 1
  | conditional test consequent alternate =>
    max (max test.height consequent.height) alternate.height + 1

def heightOfItems : List Expr → Nat
  | [] => 0
  | e :: r => max e.height (heightOfItems r)

def heightOfEntries : List (String × Expr) → Nat
  | [] => 0
  | (_, e) :: r => max e.height (heightOfEntries r)

end

end Expr

end LivePage
