import Sentential.Formula.Eval

/-!
# Statements

A statement is a formula together with the text it was read from, its atoms, which are the names of
the variables over which its truth table ranges, and the sub-expressions that were marked in the
text, in the order in which their groups are closed. A statement that was read from a text has its
atoms in ascending order and each of them once. One that is put together by hand may have any list:
with repetitions, and without some that its formulas use.
-/

namespace Sentential

/-- A formula with its text, the names of its variables and its marked sub-expressions. -/
structure Statement where
  text : Text
  root : Formula
  atoms : List Text
  subExpressions : List Formula
  deriving DecidableEq, Repr

namespace Statement

/-- Whether two statements have the same formulas and the same variables. Their texts do not
count. -/
def same (s t : Statement) : Bool :=
  s.root.same t.root && s.atoms == t.atoms &&
    Formula.sameList s.subExpressions t.subExpressions

/-- The statement as messages show it. -/
def shown (s : Statement) : Text :=
  "Statement(".toList ++ Text.quoted s.text ++ [')']

/-- The statement over more variables, in ascending order. -/
def withVariables (s : Statement) (names : List Text) : Statement :=
  { s with atoms := Text.sortedSet (s.atoms ++ names) }

/-- The assignment that makes every variable true. -/
def allTrue (s : Statement) : Assignment :=
  .allTrue s.atoms (some s.text)

/-- The all-true assignment, with other values for some variables. -/
def overridden (s : Statement) (settings : Settings) : Except Undefined Assignment :=
  s.allTrue.update settings

/-- The assignment that gives values to some variables and to no others. -/
def assigning (s : Statement) (settings : Settings) : Except Undefined Assignment :=
  (Assignment.empty s.atoms (some s.text)).update settings

/-- The truth value of the statement under an assignment. -/
def evaluate (s : Statement) (a : Assignment) : Except Undefined Bool :=
  s.root.eval a

/-- The truth value of the statement where all variables are true but those with other settings. -/
def evaluateWith (s : Statement) (settings : Settings) : Except Undefined Bool :=
  match s.overridden settings with
  | .error u => .error u
  | .ok a => s.evaluate a

end Statement

end Sentential
