import Sentential.Configuration
import Sentential.Report.Basic

/-!
# Plans

A plan is what a configuration comes down to before the first expression: admissible options, a
display, a format, a directory. `Configuration.plan` makes it or says what is wrong first:
references that cannot be read come before anything else, then the section on reading, the section
on display, the format and the directory. The backend and the expressions are settled only when they
are needed, so what else is wrong with them does not keep a run from beginning. Nor does a truth
value of the display that is no text: only a table that is written needs it as one.

A section is settled as a whole. First all its texts are resolved in their order, then its fields
are read one after another, and a text that resolved to a reference is then resolved once more.
-/

namespace Sentential

/-- Something that the display has for a truth value although it is no text: its sort, and its
length if it has one. -/
structure Misfit where
  kind : Setting.Kind
  length? : Option Nat
  deriving DecidableEq, Repr

/-- What the section on reading comes down to: the options, and the two limits as they are shown. -/
structure Reading where
  options : ParseOptions
  nestingShown : Text
  treeDepthShown : Text

/-- What a run has settled before its first expression. -/
structure Plan extends Reading where
  display : DisplayOptions
  /-- The truth values for which the display has something that is no text. -/
  misfits : List (Bool × Misfit)
  format : Format
  /-- The backend that is asked for, or why it cannot be told. -/
  backend : Except Failure BackendChoice
  directory : Option Text
  settings : Settings

/-- The settings with what a function makes of their values, or its first failure. -/
def Settings.traverse (f : Text → Setting → Except Failure Setting) :
    Settings → Except Failure Settings
  | [] => .ok []
  | (name, v) :: rest =>
    match f name v with
    | .error e => .error e
    | .ok w =>
      match traverse f rest with
      | .error e => .error e
      | .ok settled => .ok ((name, w) :: settled)

/-! ## Fields and sections -/

namespace Configuration

/-- A field read on its own. -/
def field (c : Configuration) (part name : Text) (v : Setting) : Except Failure Setting :=
  let place := Place.shown [.field part, .field name]
  if v.isOpen then .error (.notGiven place)
  else
    match c.value [.field part] v with
    | .error e => .error (.reference e (some place))
    | .ok w => .ok w

/-- A field resolved along with its section. A reference to a value that is not given is no fault
yet: the field is then not given either. -/
def draft (c : Configuration) (part : Text) (v : Setting) : Except Failure Setting :=
  match c.value [.field part] v with
  | .ok w => .ok w
  | .error (.path (.notGiven _)) => .ok (.text "???".toList)
  | .error e => .error (.reference e none)

/-- The fields of a section. -/
def settle (c : Configuration) (part : Text) (fields : Option Settings) :
    Except Failure Settings :=
  match ((fields.getD []).normalized).traverse fun _ v => c.draft part v with
  | .error e => .error e
  | .ok drafts => drafts.traverse fun name v => c.field part name v

/-! ## From fields to choices -/

/-- The first field of a section that is none of its options. What the section describes is said in
a field of its own. -/
def stray? (options : List Text) (fields : Settings) : Option Text :=
  fields.names.find? fun name => !("_target_".toList :: options).contains name

/-- The marker that is asked for. What is no text has no length to be checked, or one that is wrong,
or it is not a character. -/
def markerIn (fields : Settings) : Except Failure (Option Text) :=
  match fields.value? "highlight_char".toList with
  | none => .ok (some ['*'])
  | some .absent => .ok none
  | some (.text t) => .ok (some t)
  | some v =>
    if v.length? = none ∨ v.length? = some 1 then .error (.misfit .marker v.kind)
    else .error (.options (.markerLength v.shown))

/-- A limit that is asked for. A truth value counts as one or zero. -/
def limitIn (fields : Settings) (name : Text) (otherwise : Int) : Except Failure Limit :=
  match fields.value? name with
  | none => .ok otherwise
  | some (.whole n) => .ok n
  | some (.decimal x) => .ok ⟨x.floor, x.shown⟩
  | some (.flag b) => .ok ⟨if b then 1 else 0, (Setting.flag b).shown⟩
  | some v => .error (.misfit .limit v.kind)

/-- How expressions are read, as the fields of a section ask for it. The marker is looked at before
the limits. -/
def readingIn (fields : Settings) : Except Failure Reading :=
  match stray? (defaultReading.map Prod.fst) fields with
  | some name => .error (.unknownOption "syntax".toList name)
  | none =>
    match markerIn fields with
    | .error e => .error e
    | .ok marker =>
      match limitIn fields "max_depth".toList 50 with
      | .error e => .error e
      | .ok nesting =>
        match limitIn fields "max_tree_depth".toList 250 with
        | .error e => .error e
        | .ok treeDepth =>
          match ParseOptions.ofRequest marker nesting treeDepth with
          | .error e => .error (.options e)
          | .ok options => .ok ⟨options, nesting.shown, treeDepth.shown⟩

/-- What the fields of a section have for a truth value. -/
def truthIn (fields : Settings) : Bool → Setting
  | true => (fields.value? "true_text".toList).getD (.text "true".toList)
  | false => (fields.value? "false_text".toList).getD (.text "false".toList)

/-- The display that the fields of a section ask for. -/
def displayIn (fields : Settings) : Except Failure DisplayOptions :=
  match stray? (defaultDisplay.map Prod.fst) fields with
  | some name => .error (.unknownOption "display".toList name)
  | none => .ok {
      trueText := (truthIn fields true).plain
      falseText := (truthIn fields false).plain
      showSubExpressions := (fields.truth? "show_sub_expressions".toList).getD false
      onlyShowTrue := (fields.truth? "only_show_true".toList).getD false }

/-- The truth values for which the fields of a section have no text. -/
def misfitsIn (fields : Settings) : List (Bool × Misfit) :=
  [true, false].filterMap fun b =>
    match truthIn fields b with
    | .text _ => none
    | v => some (b, ⟨v.kind, v.length?⟩)

/-- The format that is asked for. -/
def formatChoice (c : Configuration) : Except Failure Format :=
  match c.field "output".toList "format".toList (.text c.format) with
  | .error e => .error e
  | .ok v =>
    match Format.ofName? v.plain with
    | none => .error (.format v.plain)
    | some format => .ok format

/-- Whether there can be a directory with a path. -/
def isDirectoryPath (path : Text) : Bool :=
  !path.isEmpty && !path.contains '\x00'

/-- The directory that is asked for. -/
def directoryChoice (c : Configuration) : Except Failure (Option Text) :=
  match c.directory with
  | none => .ok none
  | some path =>
    match c.field "output".toList "dir".toList (.text path) with
    | .error e => .error e
    | .ok .absent => .ok none
    | .ok v => if isDirectoryPath v.plain then .ok (some v.plain) else .error (.directory v.plain)

/-- The backend that is asked for. -/
def backendChoice (c : Configuration) : Except Failure BackendChoice :=
  match c.field "table".toList "backend".toList (.text c.backend) with
  | .error e => .error e
  | .ok v => .ok ⟨v.plain, c.backends.lookup v.plain⟩

/-- The expression with an index. -/
def expression (c : Configuration) (index : Nat) (t : Text) : Except Failure Text :=
  if (Setting.text t).isOpen then .error (.expressionNotGiven index)
  else
    match c.value [.field "expressions".toList] (.text t) with
    | .error e => .error (.reference e none)
    | .ok (.text u) => .ok u
    | .ok v => .error (.misfit .expression v.kind)

/-- The expressions of a run, each with what is wrong with it. -/
def settledExpressions (c : Configuration) : List (Except Failure Text) :=
  c.expressions.mapIdx c.expression

/-- The plan of a configuration, or its first fault. -/
def plan (c : Configuration) : Except Failure Plan :=
  match c.malformed? with
  | some (place, e) => .error (.malformed place e)
  | none =>
    match c.settle "syntax".toList c.reading with
    | .error e => .error e
    | .ok fields =>
      match readingIn fields with
      | .error e => .error e
      | .ok reading =>
        match c.settle "display".toList c.display with
        | .error e => .error e
        | .ok fields =>
          match displayIn fields with
          | .error e => .error e
          | .ok display =>
            match c.formatChoice with
            | .error e => .error e
            | .ok format =>
              match c.directoryChoice with
              | .error e => .error e
              | .ok directory =>
                .ok ⟨reading, display, misfitsIn fields, format, c.backendChoice, directory,
                  c.assignment⟩

end Configuration

end Sentential
