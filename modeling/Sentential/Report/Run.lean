import Sentential.Report.Plan

/-!
# A run over expressions

A run makes its plan, and then turns one expression after another into a table, which it prints or
writes to a file of its own. An expression that is no statement is logged and skipped; one whose
references stand for nothing ends the run. A text that has been compiled before in the run is not
compiled again, which can be seen in the log alone.
-/

namespace Sentential

namespace Plan

/-- The records of reading a text: its tokens if it has any, and the depth of its formula if it is a
statement. -/
def compileLog (p : Plan) (text : Text) : List Record :=
  match Token.lex p.options.marker text with
  | .error _ => []
  | .ok tokens =>
    ⟨.lexer, .debug,
        "Lexed ".toList ++ Text.quoted text ++ " into ".toList ++ Token.showList tokens⟩ ::
      match Statement.ofTokens p.options text tokens with
      | .error _ => []
      | .ok s =>
        [⟨.parser, .debug,
          "Parsed ".toList ++ Text.quoted text ++ " into a tree of depth ".toList ++
            Text.ofNat s.root.depth⟩]

/-- The record of a statement's value under the settings, if there are any settings. -/
def evaluationLog (p : Plan) (s : Statement) : List Record :=
  if p.settings.isEmpty then []
  else
    match s.evaluateWith p.settings with
    | .error u =>
      [⟨.report, .warning,
        "Could not evaluate ".toList ++ Text.quoted s.text ++ ": ".toList ++ u.message⟩]
    | .ok b =>
      [⟨.report, .info,
        s.text ++ " under ".toList ++ p.settings.shown ++ ": ".toList ++ p.display.format b⟩]

/-- The record of a table's making, which is written when its backend is told and its rows have been
enumerated. -/
def tableLog (p : Plan) (s : Statement) : List Record :=
  match p.backend with
  | .error _ => []
  | .ok backend =>
    if Table.enumerable s then
      [⟨.table, .debug,
        "Building truth table of ".toList ++ Text.quoted s.text ++ " with ".toList ++
          Text.ofNat (Table.rowCount s.atoms.length) ++ " rows using the ".toList ++ backend.name ++
          " backend".toList⟩]
    else []

/-- The path of the file for the expression with an index. -/
def path (p : Plan) (directory : Text) (index : Nat) : Text :=
  directory ++ (if directory.getLast? = some '/' then [] else ['/']) ++
    "table_".toList ++ Text.ofNat index ++ '.' :: p.format.extension

/-- The report on a rendered table: it is printed, or written to a file. -/
def delivery (p : Plan) (index : Nat) (s : Statement) (rendered : Text) : Report :=
  match p.directory with
  | none => { Report.empty with output := rendered ++ ['\n'] }
  | some directory =>
    { Report.empty with
      files := [(p.path directory index, rendered)]
      log := [⟨.report, .info,
        "Saved truth table of ".toList ++ Text.quoted s.text ++ " to ".toList ++
          p.path directory index⟩] }

/-- The first cell of a table for which the display has no text. -/
def cellMisfit? (p : Plan) (t : Table) : Option Failure :=
  (t.visibleRows p.display).findSome? fun row =>
    (Table.cells p.display row).zipIdx.findSome? fun cell =>
      (p.misfits.lookup cell.1).map fun misfit => .misfit (.cell cell.2) misfit.kind

/-- What keeps a table from being written although it has been made. The plain form needs a length
for both truth values, and it needs a text for every cell, as the LaTeX form does. -/
def misfit? (p : Plan) (t : Table) : Option Failure :=
  match p.format with
  | .text =>
    match p.misfits.find? (·.2.length?.isNone) with
    | some misfit => some (.misfit .truthText misfit.2.kind)
    | none => p.cellMisfit? t
  | .latex => p.cellMisfit? t
  | .csv => none

/-- What stands for a truth value when a table is laid out: its text, or blanks of the same length
for what is no text, which then stands in no cell. -/
def filler (p : Plan) (b : Bool) : Text :=
  match p.misfits.lookup b with
  | none => p.display.format b
  | some misfit => List.replicate (misfit.length?.getD 0) ' '

/-- The display with which a table is laid out. -/
def layout (p : Plan) : DisplayOptions :=
  { p.display with trueText := p.filler true, falseText := p.filler false }

/-- The report on the table of a statement in the format of the plan. -/
def renderReport (p : Plan) (index : Nat) (s : Statement) (t : Table) : Report :=
  match p.misfit? t with
  | some f => .failed f
  | none =>
    match t.render? p.layout p.format with
    | none => .failed .unprintable
    | some rendered => p.delivery index s rendered

/-- The report on the table of a statement. -/
def tableReport (p : Plan) (index : Nat) (s : Statement) : Report :=
  match p.backend with
  | .error f => .failed f
  | .ok backend =>
    match Table.build s backend with
    | .error e => .failed (.table e)
    | .ok t => { Report.empty with tables := [t] }.andThen (p.renderReport index s t)

/-- The report on a statement: it compiled, its value, its table. -/
def statementReport (p : Plan) (index : Nat) (s : Statement) : Report :=
  (Report.logged <|
    ⟨.report, .info,
        "Compiled ".toList ++ Text.quoted s.text ++ " with variables [".toList ++
          ", ".toList.intercalate s.atoms ++ [']']⟩ ::
      (p.evaluationLog s ++ p.tableLog s)).andThen (p.tableReport index s)

/-- The limit, as it is shown, that makes a text be refused for depth at a position. Before the
position stands what has opened one group or negation too many, or else the last operand of a
compound that is too deep. -/
def exceeded (p : Plan) (text : Text) (position : Nat) : Text :=
  match Token.lex p.options.marker text with
  | .error _ => p.treeDepthShown
  | .ok tokens =>
    match (tokens[position - 1]?).map Token.kind with
    | some .negation | some .openParen => p.nestingShown
    | _ => p.treeDepthShown

/-- The wording of a text's refusal, in which a limit is shown as it was asked for. -/
def refusal (p : Plan) (text : Text) : CompileError → Text
  | .tooDeep _ position => CompileError.depthMessage (p.exceeded text position) position
  | e => e.message

/-- The report on the expression with an index, where `known` says whether it has been compiled
before. -/
def expressionReport (p : Plan) (index : Nat) (known : Bool) (text : Text) : Report :=
  (Report.logged (if known then [] else p.compileLog text)).andThen <|
    match Statement.parse p.options text with
    | .error e =>
      .logged [⟨.report, .error,
        "Could not compile ".toList ++ Text.quoted text ++ ": ".toList ++ p.refusal text e⟩]
    | .ok s => p.statementReport index s

/-- The report on expressions from an index on, where the texts in `compiled` are known. -/
def reportFrom (p : Plan) (index : Nat) (compiled : List Text) :
    List (Except Failure Text) → Report
  | [] => .empty
  | .error f :: _ => .failed f
  | .ok text :: rest =>
    let compiled' := if (Statement.parse p.options text).toBool then text :: compiled else compiled
    (p.expressionReport index (compiled.contains text) text).andThen
      (p.reportFrom (index + 1) compiled' rest)

end Plan

/-- The report of the run that a configuration asks for. -/
def Configuration.run (c : Configuration) : Report :=
  match c.plan with
  | .error f => .failed f
  | .ok p => p.reportFrom 0 [] c.settledExpressions

end Sentential
