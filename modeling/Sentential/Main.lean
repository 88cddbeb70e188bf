import Sentential.Report.Run

/-!
# The command line

Every argument is an expression, unless it begins with the name of an option and an equals sign.
The tables are printed or written to files as the options say, and the log goes to the standard
error. The exit code tells whether the run came to its end.
-/

namespace Sentential

/-- The backends by their names. -/
def backendNames : List (Text × Backend) :=
  [("rows".toList, .rowByRow), ("columns".toList, .columnByColumn)]

/-- A limit in decimal digits, or a text that may refer to one. -/
def limitOf (value : Text) : Setting :=
  match (String.ofList value).toInt? with
  | some n => .whole n
  | none => .text value

/-- A truth value by its name. -/
def flagOf (value : Text) : Setting :=
  .flag (value == "true".toList)

namespace Configuration

/-- The configuration with another value for a field of the section on reading. -/
def withReading (c : Configuration) (name : Text) (v : Setting) : Configuration :=
  { c with reading := c.reading.map (· ++ [(name, v)]) }

/-- The configuration with another value for a field of the section on display. -/
def withDisplay (c : Configuration) (name : Text) (v : Setting) : Configuration :=
  { c with display := c.display.map (· ++ [(name, v)]) }

/-- The configuration with another value for the option that has the name, if there is one. -/
def withOption? (c : Configuration) (name value : Text) : Option Configuration :=
  match String.ofList name with
  | "highlight_char" => some (c.withReading name (if value.isEmpty then .absent else .text value))
  | "max_depth" | "max_tree_depth" => some (c.withReading name (limitOf value))
  | "true_text" | "false_text" => some (c.withDisplay name (.text value))
  | "show_sub_expressions" | "only_show_true" => some (c.withDisplay name (flagOf value))
  | "backend" => some { c with backend := value }
  | "format" => some { c with format := value }
  | "dir" => some { c with directory := some value }
  | "set_true" => some { c with assignment := c.assignment ++ [(value, .flag true)] }
  | "set_false" => some { c with assignment := c.assignment ++ [(value, .flag false)] }
  | _ => none

/-- The configuration after an argument that sets an option, if it is one. -/
def withArgument? (c : Configuration) (argument : Text) : Option Configuration :=
  match argument.span (· != '=') with
  | (name, '=' :: value) => c.withOption? name value
  | _ => none

/-- The configuration and the expressions of a command line. -/
def readArguments : Configuration → List Text → Configuration × List Text
  | c, [] => (c, [])
  | c, argument :: rest =>
    match c.withArgument? argument with
    | some c' => readArguments c' rest
    | none =>
      let (c', expressions) := readArguments c rest
      (c', argument :: expressions)

/-- The configuration of a command line. Without expressions it has the default ones. -/
def ofArguments (arguments : List Text) : Configuration :=
  match readArguments { backends := backendNames, backend := "rows".toList } arguments with
  | (c, []) => c
  | (c, expressions) => { c with expressions }

end Configuration

/-- Prints and writes what a report holds. -/
def Report.deliver (r : Report) (directory : Option Text) : IO UInt32 := do
  for record in r.logFrom .info do
    IO.eprintln (String.ofList (record.level.label ++ ' ' :: record.message))
  IO.print (String.ofList r.output)
  if let some d := directory then
    unless r.files.isEmpty do IO.FS.createDirAll (String.ofList d)
  for file in r.files do
    IO.FS.writeFile (String.ofList file.1) (String.ofList file.2)
  match r.failure with
  | none => pure 0
  | some f =>
    IO.eprintln (String.ofList f.message)
    pure 1

end Sentential

open Sentential in
/-- Runs over the expressions of the command line, or over the default ones if it has none. -/
def main (arguments : List String) : IO UInt32 := do
  let c := Configuration.ofArguments (arguments.map String.toList)
  let directory :=
    match c.plan with
    | .ok p => p.directory
    | .error _ => none
  c.run.deliver directory
