import Sentential.Proofs.Continuation
import Sentential.Proofs.Printing
import Sentential.Proofs.Stack
import Mathlib.Control.Monad.Basic

/-!
# Which expressions end a run

Between a statement that was read and its table in print there are three places where a run can end:
the table may not be made, a truth value may have no text, and a title no printed form. The first
happens to a statement of too many variables alone, since a statement that was read declares what it
uses (`Table.build_of_declared`). The second is a matter of the display. The third happens to no
statement that was read: a negation without a lexeme is the only formula without a printed form, and
a token has a lexeme (`Statement.exists_print`).

So there are two sorts of expressions that end a run. One stands for no text. The other is a
statement of too many variables, and nothing takes up its failure as a refusal is taken up: the
expressions behind it get no tables, statements or not. Up to the first of either sort one table is
made and delivered for each expression that is a statement, whatever the expressions say.

The stack and the memory of what runs are no part of a run as it is modelled. A stack that is too
small would end it as too many variables do, so the calls that an expression has open are counted
beside: the two limits bound them (`Statement.Opens.le`), and for any stack there are limits under
which it is too small (`Statement.exists_opens`).
-/

namespace Sentential

/-! ## Titles can be printed -/

namespace Statement

variable {o : ParseOptions} {text : Text} {s : Statement}

/-- The table of a statement that was read can be rendered, whatever the format and the display. -/
theorem exists_render (h : parse o text = .ok s) (display : DisplayOptions) (format : Format) :
    ∃ content, (Table.byMeaning s).render? display format = some content := by
  obtain ⟨marks, hmarks⟩ := Formula.exists_printList fun f hf =>
    exists_print h (List.mem_cons_of_mem _ hf)
  have hcolumns : (Table.byMeaning s).columns? = some (s.atoms ++ marks ++ [s.text]) := by
    rw [Table.columns?]
    exact congrArg (Option.map _) hmarks
  cases format with
  | text =>
    rw [Table.render?, Table.plain?, Table.titles?, hcolumns]
    split <;> exact ⟨_, rfl⟩
  | latex => exact ⟨_, rfl⟩
  | csv =>
    rw [Table.render?, Table.csv?, hcolumns]
    exact ⟨_, rfl⟩

end Statement

/-! ## Deliveries -/

/-- A table made for the expression with an index, and the form in which it is delivered. -/
structure Delivery where
  index : Nat
  table : Table
  content : Text

namespace Plan

variable (p : Plan)

/-- The report of deliveries, and of how the run ended if it did not come to its end: the tables in
their order, and each of them printed or, if there is a directory, in a file of its own. -/
def delivering (log : List Record) (ds : List Delivery) (ending : Option Failure) : Report :=
  match p.directory with
  | none => ⟨ds.map Delivery.table, ds.flatMap (·.content ++ ['\n']), log, [], ending⟩
  | some directory =>
    ⟨ds.map Delivery.table, [], log, ds.map fun d => (p.path directory d.index, d.content), ending⟩

/-- The statements among the texts, each with its index. -/
def compiledFrom (index : Nat) (texts : List Text) : List (Statement × Nat) :=
  (texts.zipIdx index).filterMap fun (text, i) =>
    (Statement.parse p.options text).toOption.map (·, i)

theorem compiledFrom_cons (index : Nat) (text : Text) (texts : List Text) :
    p.compiledFrom index (text :: texts) =
      p.compiledFrom index [text] ++ p.compiledFrom (index + 1) texts := by
  simp [compiledFrom, List.zipIdx_cons, ← List.filterMap_append]

/-- How an entry of the list of expressions ends a run, if it does: it stands for no text, or for a
statement of too many variables. -/
def fatal? : Except Failure Text → Option Failure
  | .error f => some f
  | .ok text =>
    match Statement.parse p.options text with
    | .error _ => none
    | .ok s => if Table.enumerable s then none else some (.table (.variableCount s.atoms.length))

/-- The texts before the first entry that ends a run. -/
def passing (es : List (Except Failure Text)) : List Text :=
  (es.takeWhile fun e => (p.fatal? e).isNone).filterMap Except.toOption

theorem fatal?_eq_none_iff {e : Except Failure Text} :
    p.fatal? e = none ↔ ∃ text, e = .ok text ∧
      ∀ s, Statement.parse p.options text = .ok s → s.atoms.length ≤ Table.maxVariables := by
  cases e with
  | error f => simp [fatal?]
  | ok text =>
    cases parsed : Statement.parse p.options text with
    | error e => simp [fatal?, parsed]
    | ok s => simp [fatal?, parsed, Table.enumerable]

theorem delivering_nil (log : List Record) (ending : Option Failure) :
    p.delivering log [] ending = (Report.logged log).andThen (ending.elim .empty .failed) := by
  cases h : p.directory <;> cases ending <;>
    simp [delivering, h, Report.logged, Report.empty, Report.failed, Report.andThen]

theorem delivering_andThen (log log' : List Record) (ds es : List Delivery)
    (ending : Option Failure) :
    (p.delivering log ds none).andThen (p.delivering log' es ending) =
      p.delivering (log ++ log') (ds ++ es) ending := by
  cases h : p.directory <;> simp [delivering, h, Report.andThen]

theorem logged_andThen_delivering (log log' : List Record) (ds : List Delivery)
    (ending : Option Failure) :
    (Report.logged log).andThen (p.delivering log' ds ending) =
      p.delivering (log ++ log') ds ending := by
  cases h : p.directory <;> simp [delivering, h, Report.andThen, Report.logged, Report.empty]

theorem failure_delivering (log : List Record) (ds : List Delivery) (ending : Option Failure) :
    (p.delivering log ds ending).failure = ending := by
  cases h : p.directory <;> simp [delivering, h]

theorem passing_cons_of_fatal {e : Except Failure Text} {f : Failure} (h : p.fatal? e = some f)
    (es : List (Except Failure Text)) : p.passing (e :: es) = [] := by
  simp [passing, h]

theorem passing_cons_of_none {text : Text} (h : p.fatal? (.ok text) = none)
    (es : List (Except Failure Text)) : p.passing (.ok text :: es) = text :: p.passing es := by
  simp [passing, h, Except.toOption]

theorem map_passing {es : List (Except Failure Text)} (h : es.findSome? p.fatal? = none) :
    (p.passing es).map .ok = es := by
  induction es with
  | nil => rfl
  | cons e es ih =>
    rw [List.findSome?_eq_none_iff, List.forall_mem_cons] at h
    cases e with
    | error f => exact absurd h.1 (Option.some_ne_none f)
    | ok text =>
      rw [p.passing_cons_of_none h.1, List.map_cons, ih (List.findSome?_eq_none_iff.2 h.2)]

variable {p} {name : Text} {b : Backend}

theorem misfit?_eq_none (display : p.misfits = []) (t : Table) : p.misfit? t = none := by
  have cells : p.cellMisfit? t = none := by
    refine List.findSome?_eq_none_iff.mpr fun row _ => ?_
    refine List.findSome?_eq_none_iff.mpr fun cell _ => ?_
    rw [display]
    rfl
  rw [misfit?, display]
  cases p.format with
  | text | latex => exact cells
  | csv => rfl

theorem layout_eq (display : p.misfits = []) : p.layout = p.display := by
  simp only [layout, filler, display, List.lookup_nil]
  rfl

theorem exists_delivery (index : Nat) (s : Statement) (t : Table) (content : Text) :
    ∃ log, Report.andThen { Report.empty with tables := [t] } (p.delivery index s content) =
      p.delivering log [⟨index, t, content⟩] none := by
  refine ⟨(p.delivery index s content).log, ?_⟩
  cases h : p.directory <;> simp [delivery, delivering, h, Report.andThen, Report.empty]

/-- A delivery as the plan has it: the table is the one that the backend builds for its statement,
and the content is that table in the format and the display of the plan. -/
def Delivers (p : Plan) (choice : BackendChoice) (d : Delivery) : Prop :=
  Table.build d.table.statement choice = .ok d.table ∧
    d.table.render? p.display p.format = some d.content

variable (display : p.misfits = []) (backend : p.backend = .ok ⟨name, some b⟩)

include display backend

/-- A statement that was read and has not too many variables has its table made and delivered. -/
theorem exists_tableReport {text : Text} {s : Statement}
    (parsed : Statement.parse p.options text = .ok s)
    (few : s.atoms.length ≤ Table.maxVariables) (index : Nat) :
    ∃ log d, p.tableReport index s = p.delivering log [d] none ∧
      (d.table.statement, d.index) = (s, index) ∧ p.Delivers ⟨name, some b⟩ d := by
  have built := Table.build_of_declared few
    (fun x => Statement.mem_atoms_of_used (.parse parsed)) name b
  obtain ⟨content, rendered⟩ := Statement.exists_render parsed p.display p.format
  obtain ⟨log, eq⟩ := p.exists_delivery index s (.byMeaning s) content
  refine ⟨log, ⟨index, .byMeaning s, content⟩, ?_, rfl, built, rendered⟩
  rw [← eq]
  simp only [tableReport, backend, built, renderReport, misfit?_eq_none display, layout_eq display,
    rendered]

/-- An expression that does not end the run has its table delivered if it is a statement. -/
theorem exists_expressionReport {text : Text} (passes : p.fatal? (.ok text) = none) (index : Nat)
    (known : Bool) :
    ∃ log ds, p.expressionReport index known text = p.delivering log ds none ∧
      ds.map (fun d => (d.table.statement, d.index)) = p.compiledFrom index [text] ∧
        ∀ d ∈ ds, p.Delivers ⟨name, some b⟩ d := by
  cases parsed : Statement.parse p.options text with
  | error e =>
    refine ⟨(p.expressionReport index known text).log, [], ?_,
      by simp [compiledFrom, parsed, Except.toOption], nofun⟩
    rw [delivering_nil, Option.elim_none, Report.andThen_empty]
    simp only [expressionReport, parsed]
    rfl
  | ok s =>
    have few : s.atoms.length ≤ Table.maxVariables := by
      obtain ⟨_, ⟨⟩, few⟩ := p.fatal?_eq_none_iff.1 passes
      exact few s parsed
    obtain ⟨log, d, eq, made, delivers⟩ := exists_tableReport display backend parsed few index
    obtain ⟨whole, eqWhole⟩ : ∃ log, p.expressionReport index known text =
        p.delivering log [d] none := by
      simp only [expressionReport, parsed, statementReport, eq, logged_andThen_delivering]
      exact ⟨_, rfl⟩
    refine ⟨whole, [d], eqWhole, by simp [compiledFrom, parsed, Except.toOption, made], ?_⟩
    exact List.forall_mem_singleton.mpr delivers

omit display in
/-- An expression that ends the run leaves nothing but records. -/
theorem exists_expressionReport_of_fatal {text : Text} {f : Failure}
    (fatal : p.fatal? (.ok text) = some f) (index : Nat) (known : Bool) :
    ∃ log, p.expressionReport index known text = p.delivering log [] (some f) := by
  cases parsed : Statement.parse p.options text with
  | error e => simp [fatal?, parsed] at fatal
  | ok s =>
    obtain ⟨wide, rfl⟩ : ¬ Table.enumerable s = true ∧
        .table (.variableCount s.atoms.length) = f := by
      simpa [fatal?, parsed] using fatal
    have failed : p.tableReport index s =
        p.delivering [] [] (some (.table (.variableCount s.atoms.length))) := by
      simp only [tableReport, backend, Table.build, if_neg wide, delivering_nil]
      rfl
    simp only [expressionReport, parsed, statementReport, failed, logged_andThen_delivering]
    exact ⟨_, rfl⟩

/-- The tables up to the first expression that ends the run are delivered, and then it ends. -/
theorem exists_reportWith_delivering (es : List (Except Failure Text)) (index : Nat)
    (known : List Bool) :
    ∃ log ds, p.reportWith index known es = p.delivering log ds (es.findSome? p.fatal?) ∧
      ds.map (fun d => (d.table.statement, d.index)) = p.compiledFrom index (p.passing es) ∧
        ∀ d ∈ ds, p.Delivers ⟨name, some b⟩ d := by
  induction es generalizing index known with
  | nil => exact ⟨[], [], (p.delivering_nil [] none).symm, rfl, nofun⟩
  | cons e es ih =>
    cases fatal : p.fatal? e with
    | some f =>
      rw [List.findSome?_cons_of_isSome (by rw [fatal]; rfl), p.passing_cons_of_fatal fatal, fatal]
      cases e with
      | error f' =>
        obtain rfl : f' = f := Option.some.inj fatal
        exact ⟨[], [], (p.delivering_nil [] (some f')).symm, rfl, nofun⟩
      | ok text =>
        obtain ⟨log, eq⟩ :=
          exists_expressionReport_of_fatal backend fatal index (known.headD false)
        refine ⟨log, [], ?_, rfl, nofun⟩
        rw [reportWith, eq, Report.andThen_of_failure _ _ (p.failure_delivering log [] (some f))]
    | none =>
      cases e with
      | error f => exact absurd fatal (Option.some_ne_none f)
      | ok text =>
        rw [List.findSome?_cons_of_isNone (by rw [fatal]; rfl), p.passing_cons_of_none fatal]
        obtain ⟨log, ds, eq, made, delivers⟩ :=
          exists_expressionReport display backend fatal index (known.headD false)
        obtain ⟨logs, later, eqLater, madeLater, deliversLater⟩ := ih (index + 1) known.tail
        refine ⟨log ++ logs, ds ++ later, ?_, ?_,
          List.forall_mem_append.mpr ⟨delivers, deliversLater⟩⟩
        · rw [reportWith, eq, eqLater, delivering_andThen]
        · rw [List.map_append, made, madeLater, ← compiledFrom_cons]

end Plan

namespace Configuration

/-- A run makes and delivers exactly one table for every statement before the first expression that
ends it, in their order, and nothing else. An expression ends a run if it stands for no text or is a
statement of too many variables; where there is none, all expressions are texts and the run ends
without a failure. The calls that a text of the run has open at a time are bounded by its limits. -/
theorem run_delivers {c : Configuration} {p : Plan} {name : Text} {b : Backend}
    (planned : c.plan = .ok p) (display : p.misfits = [])
    (backend : p.backend = .ok ⟨name, some b⟩) :
    let texts := p.passing c.settledExpressions
    (∃ log ds, c.run = p.delivering log ds (c.settledExpressions.findSome? p.fatal?) ∧
      ds.map (fun d => (d.table.statement, d.index)) = p.compiledFrom 0 texts ∧
      ∀ d ∈ ds, p.Delivers ⟨name, some b⟩ d) ∧
    (c.run.failure = none ↔ ∀ e ∈ c.settledExpressions, ∃ text, e = .ok text ∧
      ∀ s, Statement.parse p.options text = .ok s → s.atoms.length ≤ Table.maxVariables) ∧
    (c.run.failure = none → c.settledExpressions = texts.map .ok) ∧
    ∀ text, .ok text ∈ c.settledExpressions → ∀ n, Statement.Opens p.options text n →
      n ≤ max (11 * (p.options.maxNesting + 1))
        (p.options.maxTreeDepth + p.options.maxNesting - 1) := by
  intro texts
  obtain ⟨known, run_eq⟩ := p.exists_reportWith c.settledExpressions 0 []
  obtain ⟨log, ds, eq, made, delivers⟩ :=
    Plan.exists_reportWith_delivering display backend c.settledExpressions 0 known
  rw [← run_of_plan planned, eq] at run_eq
  have ends : c.run.failure = c.settledExpressions.findSome? p.fatal? := by
    rw [run_eq, p.failure_delivering]
  refine ⟨⟨log, ds, run_eq, made, delivers⟩, ?_, fun h => ?_, fun text _ n h => h.le⟩
  · rw [ends, List.findSome?_eq_none_iff]
    refine forall₂_congr fun e _ => ?_
    exact p.fatal?_eq_none_iff
  · exact (p.map_passing (ends ▸ h)).symm

/-- Whether a plan has texts for the truth values and a backend, and its run passes these texts and
ends so. -/
def passesIn (es : List (Except Failure Text)) (choice : BackendChoice) (texts : List Text)
    (ending : Option Failure) (p : Plan) : Bool :=
  p.misfits == [] && p.backend == .ok choice && p.passing es == texts &&
    es.findSome? p.fatal? == ending

theorem run_delivers_before_not_given :
    let c := { byRows with
      directory := some "out".toList
      expressions := ["p and".toList, "*(p or q) implies r".toList, "???".toList, "q".toList]
      assignment := [(['s'], .flag false)] }
    ∃ p log ds, c.plan = .ok p ∧ p.misfits = [] ∧
      p.backend = .ok ⟨"rows".toList, some .rowByRow⟩ ∧
      c.run = p.delivering log ds (some (.expressionNotGiven 2)) ∧
      ds.map (fun d => (d.table.statement, d.index)) =
        p.compiledFrom 0 ["p and".toList, "*(p or q) implies r".toList] ∧
      ∀ d ∈ ds, p.Delivers ⟨"rows".toList, some .rowByRow⟩ d := by
  intro c
  have passes : c.plan.toOption.any (passesIn c.settledExpressions
      ⟨"rows".toList, some .rowByRow⟩ ["p and".toList, "*(p or q) implies r".toList]
      (some (.expressionNotGiven 2))) = true := by
    decide +kernel
  obtain ⟨p, planned, ready⟩ := exists_of_any passes
  simp only [passesIn, Bool.and_eq_true, beq_iff_eq] at ready
  obtain ⟨⟨⟨display, backend⟩, texts⟩, ending⟩ := ready
  obtain ⟨⟨log, ds, eq, made, delivers⟩, -⟩ := run_delivers planned display backend
  rw [ending] at eq
  rw [texts] at made
  exact ⟨p, log, ds, planned, display, backend, eq, made, delivers⟩

/-- A conjunction of 63 variables, one more than can be enumerated, and a literal. -/
def wide : Text :=
  " & ".toList.intercalate
    ("abcdeghijklmopqrsuvwxzABCDEGHIJKLMOPQRSUVWXZ_23456789éßжλ中あא国ªµ0".toList.map ([·]))

/-- A statement of too many variables ends the run. The last of three expressions is a statement,
but only the first has its table. -/
theorem not_run_delivers_of_wide :
    let c := byRows.asking ["p".toList, wide, "q".toList]
    c.plan.toOption.map (fun p =>
        (p.misfits, p.backend, (Statement.parse p.options wide).toBool,
          (Statement.parse p.options "q".toList).toBool)) =
      some ([], .ok ⟨"rows".toList, some .rowByRow⟩, true, true) ∧
    c.run.failure = some (.table (.variableCount 63)) ∧
    c.run.tables.map (·.statement.text) = ["p".toList] := by
  decide +kernel

end Configuration

end Sentential
