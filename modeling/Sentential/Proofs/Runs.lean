import Sentential.Report.Run
import Mathlib.Control.Monad.Basic
import Mathlib.Data.List.Nodup

/-!
# Runs over more expressions

A run takes one expression after another, so a run over two lists is a run over the first and,
unless that ends with a failure, a run over the second from a later index on. Two things stand
between the later part and a run over the second list alone. The index is in the names of files and
in the failure for an expression that is not given, and nothing else looks at it. And the later part
knows the texts that the first has compiled; that decides about log records for debugging alone,
whatever a run takes to be known.

Here the expressions are settled: each is a text, or it is known what is wrong with it. What they
are in another list is a question of the configuration.
-/

namespace Sentential

/-! ## Reports one after another -/

namespace Report

/-- A report without the log records for debugging. -/
def visible (r : Report) : Report :=
  { r with log := r.logFrom .info }

/-- What one report says is the beginning of what another says. -/
structure Begins (r s : Report) : Prop where
  tables : r.tables <+: s.tables
  output : r.output <+: s.output
  log : r.log <+: s.log
  files : r.files <+: s.files

variable (r s t : Report)

theorem andThen_of_failure {f : Failure} (h : r.failure = some f) : r.andThen s = r := by
  rw [andThen, h]

theorem andThen_of_none (h : r.failure = none) :
    r.andThen s = ⟨r.tables ++ s.tables, r.output ++ s.output, r.log ++ s.log, r.files ++ s.files,
      s.failure⟩ := by
  rw [andThen, h]

theorem andThen_empty : r.andThen empty = r := by
  cases h : r.failure with
  | some f => exact r.andThen_of_failure empty h
  | none =>
    obtain ⟨tables, output, log, files, failure⟩ := r
    subst h
    simp [andThen, empty]

theorem andThen_assoc : (r.andThen s).andThen t = r.andThen (s.andThen t) := by
  cases hr : r.failure with
  | some f => simp only [andThen, hr]
  | none =>
    cases hs : s.failure with
    | some f => simp only [andThen, hr, hs]
    | none => simp only [andThen, hr, hs, List.append_assoc]

theorem visible_andThen : (r.andThen s).visible = r.visible.andThen s.visible := by
  cases h : r.failure with
  | some f => rw [r.andThen_of_failure s h, r.visible.andThen_of_failure s.visible h]
  | none =>
    rw [r.andThen_of_none s h, r.visible.andThen_of_none s.visible h]
    simp [visible, logFrom]

theorem begins_andThen : r.Begins (r.andThen s) := by
  cases h : r.failure with
  | some f =>
    rw [r.andThen_of_failure s h]
    exact ⟨List.prefix_rfl, List.prefix_rfl, List.prefix_rfl, List.prefix_rfl⟩
  | none =>
    rw [r.andThen_of_none s h]
    exact ⟨List.prefix_append .., List.prefix_append .., List.prefix_append ..,
      List.prefix_append ..⟩

theorem visible_logged_of_debug {records : List Record} (h : ∀ a ∈ records, a.level = .debug) :
    (logged records).visible = empty := by
  have none_left : records.filter (fun a => Level.rank .info ≤ a.level.rank) = [] := by
    rw [List.filter_eq_nil_iff]
    intro a ha
    rw [h a ha]
    decide
  rw [visible, logFrom, logged, none_left]
  rfl

end Report

/-! ## What the index decides

The index of an expression comes into its report at the very end, where the table is delivered: in
the name of the file and in the record of its saving. An outline leaves the indices open, and the
reports that a plan makes of one for all first indices differ as the indices do and in nothing else.
-/

/-- A failure as it is when the indices of expressions begin at `n`. -/
def Failure.shift (n : Nat) : Failure → Failure
  | .expressionNotGiven index => .expressionNotGiven (index + n)
  | f => f

/-- What happens in a run: something is logged, or a table is saved under an index. -/
inductive Event where
  | logged (record : Record)
  | saved (directory : Text) (index : Nat) (text content : Text)

namespace Event

variable (p : Plan) (n : Nat)

/-- The log record of an event, where the indices begin at `n`. -/
def record : Event → Record
  | logged record => record
  | saved directory index text _ =>
    ⟨.report, .info,
      "Saved truth table of ".toList ++ Text.quoted text ++ " to ".toList ++
        p.path directory (index + n)⟩

/-- The file that is written at an event, where the indices begin at `n`. -/
def file? : Event → Option (Text × Text)
  | logged _ => none
  | saved directory index _ content => some (p.path directory (index + n), content)

end Event

/-- A report whose indices are still to be counted from somewhere. -/
structure Outline where
  tables : List Table
  output : Text
  events : List Event
  failure : Option Failure

namespace Outline

/-- The report of an outline where the indices begin at `n`: the files and the records of their
saving have later indices, and so has the failure for an expression that is not given. -/
def report (p : Plan) (n : Nat) (o : Outline) : Report :=
  ⟨o.tables, o.output, o.events.map (Event.record p n), o.events.filterMap (Event.file? p n),
    o.failure.map (Failure.shift n)⟩

/-- What one outline says, and after it what another says, unless the first ends with a failure. -/
def andThen (o u : Outline) : Outline :=
  match o.failure with
  | some _ => o
  | none => ⟨o.tables ++ u.tables, o.output ++ u.output, o.events ++ u.events, u.failure⟩

/-- An outline without the log records for debugging. -/
def visible (p : Plan) (o : Outline) : Outline :=
  { o with events := o.events.filter fun e => Level.rank .info ≤ (e.record p 0).level.rank }

theorem report_andThen (p : Plan) (n : Nat) (o u : Outline) :
    (o.andThen u).report p n = (o.report p n).andThen (u.report p n) := by
  cases h : o.failure with
  | some f => simp only [andThen, Report.andThen, report, h, Option.map_some]
  | none =>
    simp only [andThen, Report.andThen, report, h, Option.map_none, List.map_append,
      List.filterMap_append]

theorem report_visible (p : Plan) (n : Nat) (o : Outline) :
    (o.visible p).report p n = (o.report p n).visible := by
  have level_eq : ∀ e : Event, (e.record p 0).level = (e.record p n).level := by
    intro e
    cases e <;> rfl
  have files_eq : ∀ events : List Event,
      (events.filter fun e => Level.rank .info ≤ (e.record p 0).level.rank).filterMap
        (Event.file? p n) = events.filterMap (Event.file? p n) := by
    intro events
    rw [List.filterMap_filter]
    congr 1
    funext e
    cases e with
    | logged record => exact ite_self none
    | saved directory index text content => rfl
  simp only [visible, report, Report.visible, Report.logFrom, files_eq, List.filter_map]
  simp only [level_eq, Function.comp_def]

end Outline

namespace Plan

variable (p : Plan)

/-- A text is a statement, and its table under the plan is rendered in a form. -/
def Renders (text : Text) (s : Statement) (rendered : Text) : Prop :=
  Statement.parse p.options text = .ok s ∧
    ∃ backend t, p.backend = .ok backend ∧ Table.build s backend = .ok t ∧
      t.render? p.layout p.format = some rendered

/-- Reports on a text, one for each index, that look at the index in nothing but a delivery at their
end. -/
def DeliversLast (text : Text) (report : Nat → Report) : Prop :=
  ∃ (before : Report) (delivered : Option (Statement × Text)),
    before.files = [] ∧ (∀ n, before.failure.map (Failure.shift n) = before.failure) ∧
      (∀ d ∈ delivered, p.Renders text d.1 d.2) ∧
      ∀ index, report index =
        before.andThen (delivered.elim .empty fun d => p.delivery index d.1 d.2)

/-- What keeps the backend from being told has to do with no index. -/
def Steady : Prop :=
  ∀ f, p.backend = .error f → ∀ n, f.shift n = f

variable {p} {text : Text}

theorem deliversLast_const {r : Report} (files : r.files = [])
    (steady : ∀ n, r.failure.map (Failure.shift n) = r.failure) :
    p.DeliversLast text fun _ => r :=
  ⟨r, none, files, steady, nofun, fun _ => r.andThen_empty.symm⟩

theorem deliversLast_failed {f : Failure} (steady : ∀ n, f.shift n = f) :
    p.DeliversLast text fun _ => .failed f :=
  deliversLast_const rfl fun n => congrArg some (steady n)

theorem DeliversLast.after {report : Nat → Report} (h : p.DeliversLast text report) {r : Report}
    (files : r.files = []) (failure : r.failure = none) :
    p.DeliversLast text fun index => r.andThen (report index) := by
  obtain ⟨before, delivered, noFiles, steady, renders, eq⟩ := h
  refine ⟨r.andThen before, delivered, ?_, ?_, renders, fun index => ?_⟩
  · rw [r.andThen_of_none before failure]
    simp [files, noFiles]
  · rw [r.andThen_of_none before failure]
    exact steady
  · simp only [eq, Report.andThen_assoc]

theorem shift_cellMisfit? {t : Table} {f : Failure} (h : p.cellMisfit? t = some f) (n : Nat) :
    f.shift n = f := by
  obtain ⟨row, -, inRow⟩ := List.exists_of_findSome?_eq_some h
  obtain ⟨cell, -, inCell⟩ := List.exists_of_findSome?_eq_some inRow
  obtain ⟨misfit, -, rfl⟩ := Option.map_eq_some_iff.1 inCell
  rfl

theorem shift_misfit? {t : Table} {f : Failure} (h : p.misfit? t = some f) (n : Nat) :
    f.shift n = f := by
  rw [misfit?] at h
  split at h
  · split at h
    · cases h
      rfl
    · exact shift_cellMisfit? h n
  · exact shift_cellMisfit? h n
  · cases h

theorem deliversLast_tableReport (steady : p.Steady)
    {s : Statement} (parsed : Statement.parse p.options text = .ok s) :
    p.DeliversLast text fun index => p.tableReport index s := by
  cases chosen : p.backend with
  | error f =>
    simp only [tableReport, chosen]
    exact deliversLast_failed (steady f chosen)
  | ok backend =>
    simp only [tableReport, chosen]
    cases built : Table.build s backend with
    | error e => exact deliversLast_failed (f := .table e) fun _ => rfl
    | ok t =>
      refine DeliversLast.after (r := { Report.empty with tables := [t] }) ?_ rfl rfl
      simp only [renderReport]
      cases misfit : p.misfit? t with
      | some f => exact deliversLast_failed (shift_misfit? misfit)
      | none =>
        cases rendered : t.render? p.layout p.format with
        | none => exact deliversLast_failed (f := .unprintable) fun _ => rfl
        | some content =>
          refine ⟨.empty, some (s, content), rfl, fun _ => rfl, ?_, fun _ => rfl⟩
          rintro d ⟨⟩
          exact ⟨parsed, backend, t, chosen, built, rendered⟩

theorem deliversLast_expressionReport (steady : p.Steady)
    (known : Bool) (text : Text) :
    p.DeliversLast text fun index => p.expressionReport index known text := by
  simp only [expressionReport]
  refine DeliversLast.after ?_ rfl rfl
  cases parsed : Statement.parse p.options text with
  | error e => exact deliversLast_const rfl fun _ => rfl
  | ok s => exact (deliversLast_tableReport steady parsed).after rfl rfl

end Plan

/-! ## One outline for all first indices -/

/-- Reports, one for each number that the indices begin with, that come of one outline. -/
def Plan.Outlined (p : Plan) (report : Nat → Report) : Prop :=
  ∃ o : Outline, ∀ n, report n = o.report p n

namespace Plan

variable {p : Plan}

theorem Outlined.andThen {first second : Nat → Report} (h : p.Outlined first)
    (g : p.Outlined second) : p.Outlined fun n => (first n).andThen (second n) := by
  obtain ⟨o, ho⟩ := h
  obtain ⟨u, hu⟩ := g
  refine ⟨o.andThen u, fun n => ?_⟩
  show (first n).andThen (second n) = _
  rw [Outline.report_andThen, ho, hu]

theorem Outlined.visible {report : Nat → Report} (h : p.Outlined report) :
    p.Outlined fun n => (report n).visible := by
  obtain ⟨o, ho⟩ := h
  refine ⟨o.visible p, fun n => ?_⟩
  show (report n).visible = _
  rw [Outline.report_visible, ho]

theorem outlined_const {r : Report} (files : r.files = [])
    (steady : ∀ n, r.failure.map (Failure.shift n) = r.failure) : p.Outlined fun _ => r := by
  obtain ⟨tables, output, log, _, failure⟩ := r
  subst files
  refine ⟨⟨tables, output, log.map .logged, failure⟩, fun n => ?_⟩
  have records : (log.map Event.logged).map (Event.record p n) = log := by
    simp [Event.record, Function.comp_def]
  have files : (log.map Event.logged).filterMap (Event.file? p n) = [] := by
    simp [Event.file?]
  simp only [Outline.report, records, files, steady n]

theorem outlined_delivery (index : Nat) (s : Statement) (rendered : Text) :
    p.Outlined fun n => p.delivery (index + n) s rendered := by
  cases h : p.directory with
  | none =>
    simp only [delivery, h]
    exact outlined_const rfl fun _ => rfl
  | some directory =>
    simp only [delivery, h]
    exact ⟨⟨[], [], [.saved directory index s.text rendered], none⟩, fun _ => rfl⟩

theorem DeliversLast.outlined {text : Text} {report : Nat → Report}
    (h : p.DeliversLast text report) (index : Nat) : p.Outlined fun n => report (index + n) := by
  obtain ⟨before, delivered, files, steady, -, eq⟩ := h
  simp only [eq]
  refine (outlined_const files steady).andThen ?_
  cases delivered with
  | none => exact outlined_const rfl fun _ => rfl
  | some d => exact outlined_delivery index d.1 d.2

/-- The report on expressions from an index on, where `known` says of one after another whether it
has been compiled before. -/
def reportWith (p : Plan) : Nat → List Bool → List (Except Failure Text) → Report
  | _, _, [] => .empty
  | _, _, .error f :: _ => .failed f
  | index, known, .ok text :: rest =>
    (p.expressionReport index (known.headD false) text).andThen
      (p.reportWith (index + 1) known.tail rest)

theorem exists_reportWith (es : List (Except Failure Text)) (index : Nat) (compiled : List Text) :
    ∃ known, p.reportFrom index compiled es = p.reportWith index known es := by
  induction es generalizing index compiled with
  | nil => exact ⟨[], rfl⟩
  | cons e rest ih =>
    cases e with
    | error f => exact ⟨[], rfl⟩
    | ok text =>
      obtain ⟨known, eq⟩ := ih (index + 1)
        (if (Statement.parse p.options text).toBool then text :: compiled else compiled)
      exact ⟨compiled.contains text :: known, congrArg (Report.andThen _) eq⟩

theorem reportWith_append (xs ys : List (Except Failure Text)) (index : Nat) (known : List Bool) :
    p.reportWith index known (xs ++ ys) =
      (p.reportWith index known xs).andThen
        (p.reportWith (index + xs.length) (known.drop xs.length) ys) := by
  induction xs generalizing index known with
  | nil => rfl
  | cons e rest ih =>
    cases e with
    | error f => rfl
    | ok text =>
      have later : index + 1 + rest.length = index + (rest.length + 1) := by omega
      simp only [List.cons_append, reportWith, ih, Report.andThen_assoc, List.length_cons, later,
        ← List.drop_one, List.drop_drop]
      simp only [Nat.add_comm 1]

/-! A text that is known is not read again, and all that reading reports is for debugging. -/

theorem level_of_mem_compileLog {text : Text} {a : Record} (h : a ∈ p.compileLog text) :
    a.level = .debug := by
  rw [compileLog] at h
  split at h
  · cases h
  · split at h
    all_goals
      simp only [List.mem_cons, List.not_mem_nil, or_false] at h
      rcases h with rfl | rfl <;> rfl

theorem visible_expressionReport (index : Nat) (known known' : Bool) (text : Text) :
    (p.expressionReport index known text).visible =
      (p.expressionReport index known' text).visible := by
  have reading : ∀ b : Bool, (Report.logged (if b then [] else p.compileLog text)).visible =
      .empty := by
    intro b
    refine Report.visible_logged_of_debug fun a ha => ?_
    cases b with
    | true => cases ha
    | false => exact level_of_mem_compileLog ha
  simp only [expressionReport, Report.visible_andThen, reading]

theorem visible_reportWith (es : List (Except Failure Text)) (index : Nat)
    (known known' : List Bool) :
    (p.reportWith index known es).visible = (p.reportWith index known' es).visible := by
  induction es generalizing index known known' with
  | nil => rfl
  | cons e rest ih =>
    cases e with
    | error f => rfl
    | ok text =>
      simp only [reportWith, Report.visible_andThen]
      rw [visible_expressionReport index (known.headD false) (known'.headD false),
        ih (index + 1) known.tail known'.tail]

theorem outlined_reportWith (steady : p.Steady)
    (es : List (Except Failure Text)) (index : Nat) (known : List Bool) :
    p.Outlined fun n =>
      p.reportWith (index + n) known (es.map (Except.mapError (Failure.shift n))) := by
  induction es generalizing index known with
  | nil => exact ⟨⟨[], [], [], none⟩, fun _ => rfl⟩
  | cons e rest ih =>
    cases e with
    | error f => exact ⟨⟨[], [], [], some f⟩, fun _ => rfl⟩
    | ok text =>
      have later : ∀ n, index + n + 1 = index + 1 + n := by omega
      simp only [List.map_cons, Except.mapError, reportWith, later]
      exact ((deliversLast_expressionReport steady _ text).outlined index).andThen
        (ih (index + 1) known.tail)

theorem mapError_shift_zero :
    (Except.mapError (Failure.shift 0) : Except Failure Text → Except Failure Text) = id := by
  funext e
  rcases e with (_ | _) | _ <;> rfl

/-- What is reported on later expressions comes of the outline of what is reported on them alone. -/
theorem exists_outline_append (steady : p.Steady)
    (xs ys : List (Except Failure Text)) :
    ∃ o : Outline, (∀ known, (p.reportWith 0 known ys).visible = o.report p 0) ∧
      ∀ known known',
        (p.reportWith 0 known (xs ++ ys.map (Except.mapError (Failure.shift xs.length)))).visible =
          (p.reportWith 0 known' xs).visible.andThen (o.report p xs.length) := by
  obtain ⟨o, outline⟩ := (outlined_reportWith steady ys 0 []).visible
  refine ⟨o, fun known => ?_, fun known known' => ?_⟩
  · have alone := outline 0
    simp only [mapError_shift_zero, List.map_id] at alone
    exact (visible_reportWith ys 0 known []).trans alone
  · have later := outline xs.length
    simp only [Nat.zero_add] at later
    rw [reportWith_append, Report.visible_andThen, visible_reportWith xs 0 known known',
      Nat.zero_add, visible_reportWith _ xs.length _ [], later]

end Plan

/-! ## Files

A file comes of an expression, and its name tells the index. So what is written for one expression
is at most one file, and the files of a run have names of their own.
-/

theorem Text.ofNat_inj {m n : Nat} (h : ofNat m = ofNat n) : m = n := by
  rw [← Nat.ofDigitChars_ten_toDigits (n := m), ← Nat.ofDigitChars_ten_toDigits (n := n)]
  exact congrArg (Nat.ofDigitChars 10 · 0) h

theorem Report.files_andThen (r s : Report) :
    (r.andThen s).files = r.files ∨ (r.andThen s).files = r.files ++ s.files := by
  cases h : r.failure with
  | some f => exact .inl (congrArg files (r.andThen_of_failure s h))
  | none => exact .inr (congrArg files (r.andThen_of_none s h))

namespace Plan

variable {p : Plan}

theorem path_inj {directory : Text} {i j : Nat} (h : p.path directory i = p.path directory j) :
    i = j := by
  simp only [path, List.append_assoc] at h
  have endings := List.append_cancel_left (List.append_cancel_left (List.append_cancel_left h))
  exact Text.ofNat_inj (List.append_cancel_right endings)

/-- The file is the one that the plan has for a text with an index. -/
def Writes (p : Plan) (index : Nat) (text : Text) (file : Text × Text) : Prop :=
  ∃ directory s rendered, p.directory = some directory ∧ p.Renders text s rendered ∧
    file = (p.path directory index, rendered)

theorem Writes.index_eq {i j : Nat} {t u : Text} {a b : Text × Text} (ha : p.Writes i t a)
    (hb : p.Writes j u b) (paths : a.1 = b.1) : i = j := by
  obtain ⟨directory, s, rendered, chosen, -, rfl⟩ := ha
  obtain ⟨directory', s', rendered', chosen', -, rfl⟩ := hb
  obtain rfl := Option.some.inj (chosen.symm.trans chosen')
  exact path_inj paths

theorem DeliversLast.exists_files {text : Text} {report : Nat → Report}
    (h : p.DeliversLast text report) (index : Nat) :
    ∃ written : Option (Text × Text), (report index).files = written.toList ∧
      ∀ file ∈ written, p.Writes index text file := by
  obtain ⟨before, delivered, noFiles, -, renders, eq⟩ := h
  rw [eq]
  rcases before.files_andThen (delivered.elim .empty fun d => p.delivery index d.1 d.2) with
    only | both
  · exact ⟨none, only.trans noFiles, nofun⟩
  · rw [both, noFiles, List.nil_append]
    cases delivered with
    | none => exact ⟨none, rfl, nofun⟩
    | some d =>
      simp only [Option.elim_some, delivery]
      cases chosen : p.directory with
      | none => exact ⟨none, rfl, nofun⟩
      | some directory =>
        refine ⟨some (p.path directory index, d.2), rfl, ?_⟩
        rintro file ⟨⟩
        exact ⟨directory, d.1, d.2, chosen, renders d rfl, rfl⟩

theorem mem_files_reportWith (steady : p.Steady)
    {es : List (Except Failure Text)} {index : Nat} {known : List Bool} {file : Text × Text}
    (h : file ∈ (p.reportWith index known es).files) :
    ∃ k text, es[k]? = some (.ok text) ∧ p.Writes (index + k) text file := by
  induction es generalizing index known with
  | nil => cases h
  | cons e rest ih =>
    cases e with
    | error f => cases h
    | ok text =>
      rw [reportWith] at h
      obtain ⟨written, eq, writes⟩ :=
        (deliversLast_expressionReport steady (known.headD false) text).exists_files index
      have mem : file ∈ (p.expressionReport index (known.headD false) text).files ∨
          file ∈ (p.reportWith (index + 1) known.tail rest).files := by
        rcases Report.files_andThen _ _ with only | both
        · exact .inl (only ▸ h)
        · exact List.mem_append.1 (both ▸ h)
      rcases mem with here | later
      · rw [eq, Option.mem_toList] at here
        exact ⟨0, text, rfl, writes file here⟩
      · obtain ⟨k, u, at_k, writes⟩ := ih later
        refine ⟨k + 1, u, at_k, ?_⟩
        rwa [show index + (k + 1) = index + 1 + k by omega]

theorem nodup_files_reportWith (steady : p.Steady)
    (es : List (Except Failure Text)) (index : Nat) (known : List Bool) :
    ((p.reportWith index known es).files.map Prod.fst).Nodup := by
  induction es generalizing index known with
  | nil => exact List.nodup_nil
  | cons e rest ih =>
    cases e with
    | error f => exact List.nodup_nil
    | ok text =>
      rw [reportWith]
      obtain ⟨written, eq, writes⟩ :=
        (deliversLast_expressionReport steady (known.headD false) text).exists_files index
      have alone : (written.toList.map Prod.fst).Nodup := by
        cases written with
        | none => exact List.nodup_nil
        | some file => exact List.nodup_singleton file.1
      rcases Report.files_andThen (p.expressionReport index (known.headD false) text)
        (p.reportWith (index + 1) known.tail rest) with only | both
      · rwa [only, eq]
      · rw [both, eq, List.map_append, List.nodup_append]
        refine ⟨alone, ih (index + 1) known.tail, ?_⟩
        rintro path hp path' hq rfl
        obtain ⟨a, ha, rfl⟩ := List.mem_map.1 hp
        obtain ⟨b, hb, same⟩ := List.mem_map.1 hq
        obtain ⟨k, u, -, later⟩ := mem_files_reportWith steady hb
        have := (writes a (Option.mem_toList.1 ha)).index_eq later same.symm
        omega

end Plan

end Sentential
