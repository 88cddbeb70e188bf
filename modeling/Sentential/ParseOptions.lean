import Sentential.Text.Blank
import Sentential.Text.Quoted

/-!
# Options of the parser

An expression is read with a marker, which put directly before an opening parenthesis records the
group as a sub-expression, and with two limits: on the nesting of groups and negations, and on the
depth of the compounds. Only admissible options exist as values; what a user asks for is checked by
`ParseOptions.ofRequest`, which names the first fault. A user may ask for any number as a limit.
What is counted is whole, so a limit does no more than the greatest whole number that it is not
below.
-/

namespace Sentential

/-- Whether a character can serve as marker. Blanks and the characters that always end a word could
never stay attached to a parenthesis. -/
def isMarker (c : Char) : Bool :=
  !(Text.isBlank c || "()!¬".toList.contains c)

/-- The options of the parser: the marker, if marking is on, the limit on nesting groups and
negations, and the limit on the depth of a compound. -/
structure ParseOptions where
  marker : Option Char := some '*'
  maxNesting : Nat := 50
  maxTreeDepth : Nat := 250
  isMarker_marker : marker.all isMarker = true := by decide
  maxNesting_pos : 0 < maxNesting := by decide
  maxTreeDepth_pos : 0 < maxTreeDepth := by decide

/-- A limit as a user asks for it: the greatest whole number that it is not below, and the limit as
messages show it. -/
structure Limit where
  bound : Int
  shown : Text
  deriving DecidableEq, Repr

instance : Coe Int Limit where
  coe n := ⟨n, Text.ofInt n⟩

/-- What is wrong with requested options, with the value at fault as messages show it. -/
inductive OptionError where
  /-- The marker is not one character. -/
  | markerLength (marker : Text)
  /-- The marker is a character that cannot mark. -/
  | markerReserved (marker : Text)
  /-- The limit on nesting allows nothing. -/
  | nestingLimit (limit : Text)
  /-- The limit on the depth of compounds allows nothing. -/
  | treeDepthLimit (limit : Text)
  deriving DecidableEq, Repr

namespace OptionError

/-- The wording of a fault in the options. -/
def message : OptionError → Text
  | markerLength marker => "highlight_char must be a single character, got ".toList ++ marker
  | markerReserved marker =>
    "highlight_char cannot be whitespace or one of !()¬, got ".toList ++ marker
  | nestingLimit limit => "max_depth must be positive, got ".toList ++ limit
  | treeDepthLimit limit => "max_tree_depth must be positive, got ".toList ++ limit

end OptionError

namespace ParseOptions

/-- The marker a user asks for, if it can serve as one. -/
def markerOf : Option Text → Except OptionError { m : Option Char // m.all isMarker = true }
  | none => .ok ⟨none, rfl⟩
  | some [c] =>
    if h : isMarker c then .ok ⟨some c, h⟩ else .error (.markerReserved (Text.quoted [c]))
  | some t => .error (.markerLength (Text.quoted t))

/-- The options a user asks for. The marker is checked first, then the limit on nesting, then the
limit on the depth. -/
def ofRequest (marker : Option Text) (nesting treeDepth : Limit) :
    Except OptionError ParseOptions :=
  match markerOf marker with
  | .error e => .error e
  | .ok ⟨m, hm⟩ =>
    if hn : nesting.bound < 1 then .error (.nestingLimit nesting.shown)
    else if ht : treeDepth.bound < 1 then .error (.treeDepthLimit treeDepth.shown)
    else .ok ⟨m, nesting.bound.toNat, treeDepth.bound.toNat, hm, by omega, by omega⟩

end ParseOptions

end Sentential
