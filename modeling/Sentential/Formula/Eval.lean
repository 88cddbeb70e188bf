import Sentential.Formula.Basic
import Sentential.Assignment

/-!
# The value of a formula

A formula is evaluated under an assignment from left to right, and both operands of a connective are
always evaluated: whether the evaluation succeeds does not depend on truth values.
-/

namespace Sentential.Formula

/-- The truth value of a formula under an assignment. It fails at the first variable, from the left,
that has no value. -/
def eval (a : Assignment) : Formula → Except Undefined Bool
  | literal lexeme => .ok (literalValue lexeme)
  | var _ name => a.get (.atom name)
  | not _ f =>
    match f.eval a with
    | .error u => .error u
    | .ok b => .ok (!b)
  | binary op _ f g =>
    match f.eval a with
    | .error u => .error u
    | .ok b =>
      match g.eval a with
      | .error u => .error u
      | .ok c => .ok (op.apply b c)

/-- The truth values of several formulas, one after another. -/
def evalList (a : Assignment) : List Formula → Except Undefined (List Bool)
  | [] => .ok []
  | f :: fs =>
    match f.eval a with
    | .error u => .error u
    | .ok b =>
      match evalList a fs with
      | .error u => .error u
      | .ok bs => .ok (b :: bs)

end Sentential.Formula
