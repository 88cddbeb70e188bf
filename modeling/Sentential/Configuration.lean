import Sentential.Reference.Resolve
import Sentential.Table.Basic

/-!
# Configurations

A configuration says what a run does: its expressions, how they are read, how tables are displayed,
computed and delivered, and under which settings the statements are evaluated. Its texts may refer
to glyphs and to other places of the configuration, so a configuration is also one value, its root,
in which the places lie.
-/

namespace Sentential

/-- The expressions of a run that asks for no others. -/
def defaultExpressions : List Text :=
  ["p and q", "*(p or q) implies r"].map String.toList

/-- The fields of the section on reading for a run that gives none. -/
def defaultReading : Settings :=
  [("highlight_char".toList, .text ['*']), ("max_depth".toList, .whole 50),
    ("max_tree_depth".toList, .whole 250)]

/-- The fields of the section on display for a run that gives none. Other than in a display that is
given in part, sub-expressions are shown. -/
def defaultDisplay : Settings :=
  [("true_text".toList, .text "true".toList), ("false_text".toList, .text "false".toList),
    ("show_sub_expressions".toList, .flag true), ("only_show_true".toList, .flag false)]

/-- What a run is asked to do. -/
structure Configuration where
  /-- The backends by their names. -/
  backends : List (Text × Backend)
  backend : Text
  expressions : List Text := defaultExpressions
  /-- How expressions are read, with the fields in the order in which they are looked at. -/
  reading : Option Settings := some defaultReading
  /-- How tables are displayed, with the fields in the order in which they are looked at. -/
  display : Option Settings := some defaultDisplay
  format : Text := "text".toList
  /-- The directory for the files. Without one the tables are printed. -/
  directory : Option Text := none
  /-- Settings under which every statement is evaluated, if there are any. -/
  assignment : Settings := []

namespace Configuration

/-- A section of a configuration, which may be left out. -/
def sectionValue : Option Settings → Setting
  | none => .absent
  | some fields => .record fields.normalized

/-- The configuration as one value. -/
def root (c : Configuration) : Setting :=
  .record
    [("expressions".toList, .list (c.expressions.map .text)),
      ("syntax".toList, sectionValue c.reading),
      ("display".toList, sectionValue c.display),
      ("table".toList, .record [("backend".toList, .text c.backend)]),
      ("output".toList, .record
        [("format".toList, .text c.format),
          ("dir".toList, (c.directory.map Setting.text).getD .absent)]),
      ("assignment".toList,
        if c.assignment.isEmpty then .absent else .record c.assignment.normalized)]

/-- What is wrong with the first text, by its place, that has a reference that cannot be read. -/
def malformed? (c : Configuration) : Option (Place × Malformed) :=
  (c.root.textsBelow []).findSome? fun (place, t) =>
    if hasReference t then
      match Template.read t with
      | .error e => some (place, e)
      | .ok _ => none
    else none

/-- The value of what stands in the container `here`: texts are resolved, anything else is its own
value. -/
def value (c : Configuration) (here : Place) : Setting → Except ReferenceError Setting
  | .text t => resolve c.root here t
  | v => .ok v

end Configuration

end Sentential
