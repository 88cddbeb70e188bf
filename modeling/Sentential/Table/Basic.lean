import Sentential.Table.Enumeration
import Sentential.Table.Outcome
import Sentential.Formula.Printer

/-!
# Truth tables

The truth table of a statement has a row for every assignment of its variables, with the outcome of
the statement in it. Two tables are the same when their rows are, whatever the statements' texts.
An assignment finds its row by its entries; where variables are repeated several rows have the same
entries, and the last of them is found.
-/

namespace Sentential

/-- How the outcomes of a table are computed. -/
inductive Backend where
  | rowByRow
  | columnByColumn
  deriving DecidableEq, Repr

/-- A backend as it is asked for: the name that is given, and the backend that goes by it, if there
is one. -/
structure BackendChoice where
  name : Text
  backend? : Option Backend
  deriving DecidableEq, Repr

/-- Why a statement has no truth table. -/
inductive TableError where
  /-- The variables are too many, or fewer than none. -/
  | variableCount (count : Int)
  /-- No backend has the name. -/
  | unknownBackend (name : Text)
  /-- A formula of the statement uses a variable that it does not declare. -/
  | undefined (u : Undefined)
  deriving DecidableEq, Repr

namespace TableError

/-- The wording of the failure. -/
def message : TableError → Text
  | variableCount count =>
    "Cannot enumerate assignments of ".toList ++ Text.ofInt count ++
      " variables (at most ".toList ++ Text.ofNat Table.maxVariables ++ ").".toList
  | unknownBackend name => "Unknown truth table backend ".toList ++ Text.quoted name
  | undefined u => u.message

end TableError

/-- An assignment and the outcome of a statement under it. -/
structure Row where
  assignment : Assignment
  outcome : Outcome
  deriving DecidableEq, Repr

/-- A statement and the rows of its truth table. -/
structure Table where
  statement : Statement
  rows : List Row
  deriving DecidableEq, Repr

namespace Table

/-- The assignments of the rows of a statement's table. -/
def assignments (s : Statement) : List Assignment :=
  (allRows s.atoms.length).map (Assignment.ofRow s.atoms · (some s.text))

/-- The outcomes of all rows of a statement's table. -/
def outcomes (s : Statement) : Backend → Except Undefined (List Outcome)
  | .rowByRow => s.outcomes (assignments s)
  | .columnByColumn => s.columnOutcomes (allRows s.atoms.length)

/-- The truth table of a statement that has not too many variables. -/
def compute (s : Statement) (b : Backend) : Except Undefined Table :=
  match outcomes s b with
  | .error u => .error u
  | .ok os => .ok ⟨s, (assignments s).zipWith Row.mk os⟩

/-- Whether the assignments of a statement's variables can be enumerated. -/
def enumerable (s : Statement) : Bool :=
  s.atoms.length ≤ maxVariables

/-- The truth table of a statement, computed by the chosen backend. Too many variables are noticed
before a backend that does not exist. -/
def build (s : Statement) (choice : BackendChoice) : Except TableError Table :=
  if enumerable s then
    match choice.backend? with
    | none => .error (.unknownBackend choice.name)
    | some b =>
      match compute s b with
      | .error u => .error (.undefined u)
      | .ok t => .ok t
  else .error (.variableCount s.atoms.length)

/-- The values of the statement in all rows. -/
def values (t : Table) : List Bool :=
  t.rows.map (·.outcome.value)

/-- Whether two tables have the same rows in the same order. -/
def same (t u : Table) : Bool :=
  t.rows.map (fun row => (row.assignment.entries, row.outcome)) ==
    u.rows.map (fun row => (row.assignment.entries, row.outcome))

/-- The row with an index; a negative one counts from the end. -/
def row? (t : Table) (index : Int) : Option Row :=
  if 0 ≤ index then t.rows[index.toNat]?
  else if -index ≤ t.rows.length then t.rows[t.rows.length - (-index).toNat]?
  else none

/-- The outcome under the entries of an assignment, in the last row that has them. -/
def outcome? (t : Table) (a : Assignment) : Option Outcome :=
  (t.rows.reverse.find? fun row => row.assignment.same a).map Row.outcome

/-- The number of different entries that the rows have. -/
def distinctCount (t : Table) : Nat :=
  (t.rows.map (·.assignment.entries)).eraseDups.length

/-- The titles of the columns: the variables, the marked sub-expressions and the text. There are
none if a sub-expression has no printed form. -/
def columns? (t : Table) : Option (List Text) :=
  (Formula.printList? t.statement.subExpressions).map fun marks =>
    t.statement.atoms ++ marks ++ [t.statement.text]

/-- The table as messages show it. -/
def shown (t : Table) : Text :=
  "TruthTable(".toList ++ Text.quoted t.statement.text ++ ", rows=".toList ++
    Text.ofNat t.rows.length ++ [')']

end Table

end Sentential
