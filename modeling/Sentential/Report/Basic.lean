import Sentential.Statement.Parser
import Sentential.Table.Format
import Sentential.Reference.Resolve
import Sentential.Report.Listing

/-!
# Reports

A report is everything that comes of a run over several expressions: the tables, the text that is
printed, the files that are written, and a log of what happened. A run can end early with a failure;
what was reported before it stays.
-/

namespace Sentential

/-- How important a log record is. -/
inductive Level where
  | debug
  | info
  | warning
  | error
  deriving DecidableEq, Repr

namespace Level

/-- The place of a level, the least important first. -/
def rank : Level → Nat
  | debug => 0
  | info => 1
  | warning => 2
  | error => 3

/-- The name of a level. -/
def label : Level → Text
  | debug => "DEBUG".toList
  | info => "INFO".toList
  | warning => "WARNING".toList
  | error => "ERROR".toList

/-- The level with a name. -/
def ofLabel? (name : Text) : Option Level :=
  [debug, info, warning, error].find? fun level => level.label == name

end Level

/-- The part of the program that a log record comes from. -/
inductive Channel where
  | lexer
  | parser
  | table
  | report
  deriving DecidableEq, Repr

/-- A record of the log. -/
structure Record where
  channel : Channel
  level : Level
  message : Text
  deriving DecidableEq, Repr

/-- What a value of a configuration serves as. -/
inductive Role where
  | marker
  /-- A limit of the parser. -/
  | limit
  | expression
  /-- The text for a truth value, whose width is needed. -/
  | truthText
  /-- The text of the cell with an index in a row. -/
  | cell (index : Nat)
  deriving DecidableEq, Repr

/-- The wording for a role. -/
def Role.label : Role → Text
  | marker => "a marker".toList
  | limit => "a limit".toList
  | expression => "an expression".toList
  | truthText => "the text for a truth value".toList
  | cell index => "the text of cell ".toList ++ Text.ofNat index

/-- Why a run ends early. -/
inductive Failure where
  /-- A text of the configuration, at a place, has a reference that cannot be read. -/
  | malformed (place : Place) (e : Malformed)
  /-- A section has a field that is none of its options. -/
  | unknownOption (part name : Text)
  | options (e : OptionError)
  /-- A text cannot be resolved. The place is given when its field was read on its own. -/
  | reference (e : ReferenceError) (place : Option Text)
  /-- The field at a place is still to be given. -/
  | notGiven (place : Text)
  /-- The expression with an index is still to be given. -/
  | expressionNotGiven (index : Nat)
  /-- A value is of a sort that cannot serve as what it is needed for. -/
  | misfit (role : Role) (kind : Setting.Kind)
  | format (name : Text)
  /-- There can be no directory with the path. -/
  | directory (path : Text)
  | table (e : TableError)
  /-- A title of a table has no printed form. -/
  | unprintable
  deriving DecidableEq, Repr

/-- The wording of a failure. -/
def Failure.message : Failure → Text
  | malformed place e => e.message ++ ", at ".toList ++ place.shown
  | unknownOption part name =>
    "There is no option ".toList ++ Place.shown [.field part, .field name]
  | options e => e.message
  | reference e none => e.message
  | reference e (some place) => e.message ++ ", at ".toList ++ place
  | notGiven place => "The value of ".toList ++ place ++ " is not given".toList
  | expressionNotGiven index =>
    "The expression with index ".toList ++ Text.ofNat index ++ " is not given".toList
  | misfit role kind => kind.label ++ " cannot serve as ".toList ++ role.label
  | format name => Format.unknownMessage name
  | directory path => "There can be no directory ".toList ++ Text.quoted path
  | table e => e.message
  | unprintable => "A title has no printed form".toList

/-- What comes of a run. -/
structure Report where
  tables : List Table
  /-- The text that is printed. -/
  output : Text
  log : List Record
  /-- The files in the order in which they are written, each with its path and its content. -/
  files : List (Text × Text)
  /-- Why the run ended before all expressions were done, if it did. -/
  failure : Option Failure

namespace Report

/-- Nothing has been reported. -/
def empty : Report :=
  ⟨[], [], [], [], none⟩

/-- A report of nothing but a failure. -/
def failed (f : Failure) : Report :=
  { empty with failure := some f }

/-- A report of nothing but log records. -/
def logged (records : List Record) : Report :=
  { empty with log := records }

/-- What one report says, and after it what another says, unless the first ends with a failure. -/
def andThen (r s : Report) : Report :=
  match r.failure with
  | some _ => r
  | none => ⟨r.tables ++ s.tables, r.output ++ s.output, r.log ++ s.log, r.files ++ s.files,
      s.failure⟩

/-- The log records of a level and the more important ones. -/
def logFrom (r : Report) (level : Level) : List Record :=
  r.log.filter fun record => level.rank ≤ record.level.rank

/-- The files as a listing of the working directory has them: those that lie in it, in the order of
their paths. -/
def listing (r : Report) : List (Text × Text) :=
  (r.files.filterMap fun file => (Listing.path? file.1).map fun path => (path, file.2)).mergeSort
    fun a b => !Text.precedes b.1 a.1

end Report

end Sentential
