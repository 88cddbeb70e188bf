import Sentential.Proofs.Runs
import Mathlib.Control.Monad.Basic

/-!
# A run over two lists is one run after the other

The plan of a run and the texts of its expressions come of the configuration as a whole: any of its
texts may refer to any place of it, and the expressions are one of the places. So a list of
expressions means the same alone and as a part of a longer list only if no such reference says
otherwise. Where there are no references at all it always does (`plan_of_plain`,
`settledExpressions_append_of_plain`), and where it does the run over the longer list is the run
over its beginning, continued.
-/

namespace Sentential

namespace Configuration

/-- The configuration with other expressions. -/
def asking (c : Configuration) (expressions : List Text) : Configuration :=
  { c with expressions := expressions }

end Configuration

/-! ## Configurations without references

A text without references is its own value in every configuration. That goes through the functions
that make a plan one by one: none of them looks at the configuration for anything but the values of
texts. -/

namespace Configuration

/-- No text of the configuration has a reference. -/
def isPlain (c : Configuration) : Bool :=
  (c.root.textsBelow []).all fun found => !hasReference found.2

end Configuration

/-- A value that is a text is one without references. -/
def Setting.IsPlain (v : Setting) : Prop :=
  ∀ t, v = .text t → hasReference t = false

theorem Setting.textsBelow_subset {fields : Settings} {name : Text} {v : Setting}
    (h : (name, v) ∈ fields) (place : Place) :
    v.textsBelow (place ++ [.field name]) ⊆ Setting.textsInFields place fields := by
  induction fields with
  | nil => cases h
  | cons field rest ih =>
    rcases List.mem_cons.1 h with rfl | later
    · exact List.subset_append_left ..
    · exact List.Subset.trans (ih later) (List.subset_append_right ..)

theorem Setting.isPlain_of_textsInFields {fields : Settings} {place : Place}
    (h : ∀ found ∈ Setting.textsInFields place fields, hasReference found.2 = false) :
    ∀ field ∈ fields, field.2.IsPlain := by
  rintro ⟨name, v⟩ mem t rfl
  exact h (_, t) (Setting.textsBelow_subset mem place (List.mem_singleton.2 rfl))

theorem Settings.traverse_of_ok {f : Text → Setting → Except Failure Setting} {fields : Settings}
    (h : ∀ field ∈ fields, f field.1 field.2 = .ok field.2) : fields.traverse f = .ok fields := by
  induction fields with
  | nil => rfl
  | cons field rest ih =>
    have first := h field List.mem_cons_self
    have others := ih fun later mem => h later (List.mem_cons_of_mem field mem)
    simp only [Settings.traverse, first, others]

theorem Settings.traverse_congr {f g : Text → Setting → Except Failure Setting} {fields : Settings}
    (h : ∀ field ∈ fields, f field.1 field.2 = g field.1 field.2) :
    fields.traverse f = fields.traverse g := by
  induction fields with
  | nil => rfl
  | cons field rest ih =>
    have first := h field List.mem_cons_self
    have others := ih fun later mem => h later (List.mem_cons_of_mem field mem)
    simp only [Settings.traverse, first, others]

theorem resolve_of_plain (root : Setting) (here : Place) {t : Text} (h : hasReference t = false) :
    resolve root here t = .ok (.text t) := by
  simp [resolve, resolveWithin, h]

namespace Configuration

variable {c : Configuration}

theorem value_of_plain (c : Configuration) (here : Place) {v : Setting} (h : v.IsPlain) :
    c.value here v = .ok v := by
  cases v with
  | text t => exact resolve_of_plain c.root here (h t rfl)
  | _ => rfl

theorem expression_of_plain (c : Configuration) (index : Nat) {t : Text}
    (h : hasReference t = false) :
    c.expression index t =
      if (Setting.text t).isOpen then .error (.expressionNotGiven index) else .ok t := by
  have plain : (Setting.text t).IsPlain := by
    rintro _ ⟨⟩
    exact h
  rw [expression, c.value_of_plain _ plain]

theorem settledExpressions_of_plain (c : Configuration) {texts : List Text}
    (h : ∀ t ∈ texts, hasReference t = false) :
    (c.asking texts).settledExpressions = texts.mapIdx fun index t =>
      if (Setting.text t).isOpen then .error (.expressionNotGiven index) else .ok t := by
  refine List.ext_getElem (by simp [settledExpressions, asking]) fun index h₁ h₂ => ?_
  simp only [settledExpressions, List.getElem_mapIdx]
  exact expression_of_plain _ index (h _ (List.getElem_mem _))

/-- Without references an expression stands for the same text in a list and in a longer one. -/
theorem settledExpressions_append_of_plain (c : Configuration) (xs ys : List Text)
    (h : ∀ t ∈ xs ++ ys, hasReference t = false) :
    (c.asking (xs ++ ys)).settledExpressions =
      (c.asking xs).settledExpressions ++
        (c.asking ys).settledExpressions.map (Except.mapError (Failure.shift xs.length)) := by
  have first := c.settledExpressions_of_plain fun t mem => h t (List.mem_append_left ys mem)
  have second := c.settledExpressions_of_plain fun t mem => h t (List.mem_append_right xs mem)
  rw [c.settledExpressions_of_plain h, first, second, List.mapIdx_append]
  congr 1
  refine List.ext_getElem (by simp) fun index h₁ h₂ => ?_
  rw [List.getElem_map, List.getElem_mapIdx, List.getElem_mapIdx]
  cases (Setting.text _).isOpen <;> rfl

theorem draft_of_plain (c : Configuration) (part : Text) {v : Setting} (h : v.IsPlain) :
    c.draft part v = .ok v := by
  rw [draft, c.value_of_plain _ h]

theorem field_of_plain (c d : Configuration) (part name : Text) {v : Setting} (h : v.IsPlain) :
    c.field part name v = d.field part name v := by
  simp only [field, value_of_plain _ _ h]

theorem settle_of_plain (c d : Configuration) (part : Text) {fields : Option Settings}
    (h : ∀ field ∈ (fields.getD []).normalized, field.2.IsPlain) :
    c.settle part fields = d.settle part fields := by
  have drafts : ∀ e : Configuration,
      ((fields.getD []).normalized).traverse (fun _ v => e.draft part v) =
        .ok (fields.getD []).normalized :=
    fun e => Settings.traverse_of_ok fun field mem => e.draft_of_plain part (h field mem)
  rw [settle, settle, drafts, drafts]
  exact Settings.traverse_congr fun field mem => field_of_plain c d part field.1 (h field mem)

variable {c : Configuration} (plain : c.isPlain = true)

include plain in
theorem isPlain_of_mem_root {name : Text} {v : Setting}
    (h : ∃ fields, c.root = .record fields ∧ (name, v) ∈ fields) :
    ∀ found ∈ v.textsBelow [.field name], hasReference found.2 = false := by
  obtain ⟨fields, root, mem⟩ := h
  intro found below
  have inRoot : found ∈ c.root.textsBelow [] := by
    rw [root]
    exact Setting.textsBelow_subset mem [] below
  simpa using List.all_eq_true.1 plain found inRoot

include plain in
theorem malformed?_of_plain : c.malformed? = none := by
  rw [malformed?, List.findSome?_eq_none_iff]
  intro found mem
  have : hasReference found.2 = false := by simpa using List.all_eq_true.1 plain found mem
  simp [this]

theorem isPlain_of_sectionValue {fields : Option Settings} {place : Place}
    (h : ∀ found ∈ (sectionValue fields).textsBelow place, hasReference found.2 = false) :
    ∀ field ∈ (fields.getD []).normalized, field.2.IsPlain := by
  cases fields with
  | none => exact nofun
  | some fields => exact Setting.isPlain_of_textsInFields h

include plain in
/-- Without references in a configuration its plan does not depend on its expressions. -/
theorem plan_of_plain {expressions : List Text} (also : (c.asking expressions).isPlain = true) :
    (c.asking expressions).plan = c.plan := by
  have reading := isPlain_of_sectionValue (isPlain_of_mem_root plain ⟨_, rfl, .tail _ (.head _)⟩)
  have display := isPlain_of_sectionValue
    (isPlain_of_mem_root plain ⟨_, rfl, .tail _ (.tail _ (.head _))⟩)
  have table := Setting.isPlain_of_textsInFields
    (isPlain_of_mem_root plain ⟨_, rfl, .tail _ (.tail _ (.tail _ (.head _)))⟩)
  have output := Setting.isPlain_of_textsInFields
    (isPlain_of_mem_root plain ⟨_, rfl, .tail _ (.tail _ (.tail _ (.tail _ (.head _))))⟩)
  have format : (c.asking expressions).formatChoice = c.formatChoice := by
    simp only [formatChoice, asking,
      field_of_plain _ c "output".toList "format".toList (output _ (.head _))]
  have directory : (c.asking expressions).directoryChoice = c.directoryChoice := by
    cases given : c.directory with
    | none => simp only [directoryChoice, asking, given]
    | some path =>
      have path_plain : (Setting.text path).IsPlain := by
        simpa only [given, Option.map_some, Option.getD_some] using output _ (.tail _ (.head _))
      simp only [directoryChoice, asking, given,
        field_of_plain _ c "output".toList "dir".toList path_plain]
  have backend : (c.asking expressions).backendChoice = c.backendChoice := by
    simp only [backendChoice, asking,
      field_of_plain _ c "table".toList "backend".toList (table _ (.head _))]
  have reading_eq := settle_of_plain (c.asking expressions) c "syntax".toList reading
  have display_eq := settle_of_plain (c.asking expressions) c "display".toList display
  rw [plan, plan, malformed?_of_plain also, malformed?_of_plain plain, format, directory, backend]
  simp only [asking] at reading_eq display_eq ⊢
  rw [reading_eq, display_eq]

end Configuration

/-! ## The run over two lists -/

namespace Configuration

variable {c : Configuration} {p : Plan}

theorem backend_of_plan (h : c.plan = .ok p) : p.backend = c.backendChoice := by
  rw [plan] at h
  repeat' split at h
  all_goals cases h
  rfl

theorem steady_of_plan (planned : c.plan = .ok p) : p.Steady := by
  intro f h n
  rw [backend_of_plan planned, backendChoice] at h
  split at h
  · next e unread =>
    obtain rfl := Except.error.inj h
    rw [field] at unread
    repeat' split at unread
    all_goals cases unread <;> rfl
  · cases h

theorem run_of_plan (h : c.plan = .ok p) : c.run = p.reportFrom 0 [] c.settledExpressions := by
  rw [run, h]

/-- What a run over two lists of expressions produces, log records for debugging apart, is what a
run over the first produces and, unless that ends with a failure, what a run over the second
produces, with the indices of its files, of the records of their saving and of an expression that is
not given moved up by the number of the first. So what has been produced stays, whatever comes
later. A file belongs to the index of its expression among all, the skipped ones counted, and no
file is written twice. Which texts are known from before is visible in records for debugging alone.

An expression may refer to other places of the configuration, and to the expressions. The lists are
taken to mean the same together as apart: the plan is one, and every expression stands for the same
text, or fails in the same way. -/
theorem run_append (c : Configuration) (xs ys : List Text) {p : Plan}
    (joint : (c.asking (xs ++ ys)).plan = .ok p) (first : (c.asking xs).plan = .ok p)
    (second : (c.asking ys).plan = .ok p)
    (settled : (c.asking (xs ++ ys)).settledExpressions =
      (c.asking xs).settledExpressions ++
        (c.asking ys).settledExpressions.map (Except.mapError (Failure.shift xs.length))) :
    (∃ o : Outline, (c.asking ys).run.visible = o.report p 0 ∧
      (c.asking (xs ++ ys)).run.visible =
        (c.asking xs).run.visible.andThen (o.report p xs.length)) ∧
    (c.asking xs).run.visible.Begins (c.asking (xs ++ ys)).run.visible ∧
    (∀ file ∈ (c.asking (xs ++ ys)).run.files, ∃ index text,
      (c.asking (xs ++ ys)).settledExpressions[index]? = some (.ok text) ∧
        p.Writes index text file) ∧
    ((c.asking (xs ++ ys)).run.files.map Prod.fst).Nodup ∧
    (∃ known, (c.asking (xs ++ ys)).run =
      p.reportWith 0 known (c.asking (xs ++ ys)).settledExpressions) ∧
    ∀ known, (p.reportWith 0 known (c.asking (xs ++ ys)).settledExpressions).visible =
      (c.asking (xs ++ ys)).run.visible := by
  have steady := steady_of_plan joint
  have length_eq : (c.asking xs).settledExpressions.length = xs.length := by
    simp [settledExpressions, asking]
  rw [← length_eq] at settled ⊢
  obtain ⟨known, run_eq⟩ := p.exists_reportWith (c.asking (xs ++ ys)).settledExpressions 0 []
  obtain ⟨knownFirst, first_eq⟩ := p.exists_reportWith (c.asking xs).settledExpressions 0 []
  obtain ⟨knownSecond, second_eq⟩ := p.exists_reportWith (c.asking ys).settledExpressions 0 []
  rw [← run_of_plan joint] at run_eq
  rw [← run_of_plan first] at first_eq
  rw [← run_of_plan second] at second_eq
  obtain ⟨o, alone, later⟩ := Plan.exists_outline_append steady
    (c.asking xs).settledExpressions (c.asking ys).settledExpressions
  have split : (c.asking (xs ++ ys)).run.visible =
      (c.asking xs).run.visible.andThen
        (o.report p (c.asking xs).settledExpressions.length) := by
    rw [run_eq, first_eq, settled, later known knownFirst]
  refine ⟨⟨o, ?_, split⟩, ?_, ?_, ?_, ⟨known, run_eq⟩, fun other => ?_⟩
  · rw [second_eq, alone knownSecond]
  · rw [split]
    exact Report.begins_andThen ..
  · intro file mem
    rw [run_eq] at mem
    obtain ⟨index, text, found, writes⟩ := Plan.mem_files_reportWith steady mem
    exact ⟨index, text, found, Nat.zero_add index ▸ writes⟩
  · rw [run_eq]
    exact Plan.nodup_files_reportWith steady ..
  · rw [run_eq]
    exact Plan.visible_reportWith ..

/-- A configuration that asks for a backend and leaves everything else as it is. -/
def byRows : Configuration where
  backends := [("rows".toList, .rowByRow)]
  backend := "rows".toList

theorem exists_of_any {e : Except Failure Plan} {meets : Plan → Bool}
    (h : e.toOption.any meets = true) : ∃ p, e = .ok p ∧ meets p = true := by
  cases e with
  | error f => cases h
  | ok p => exact ⟨p, rfl, h⟩

theorem run_append_skipped_and_not_given :
    let c := { byRows with directory := some "out".toList }
    let xs := ["p and".toList, "p".toList]
    let ys := ["q)".toList, "p".toList, "???".toList, "q".toList]
    ∃ (p : Plan) (o : Outline), (c.asking ys).plan = .ok p ∧
      (c.asking ys).run.visible = o.report p 0 ∧
      (c.asking (xs ++ ys)).run.visible = (c.asking xs).run.visible.andThen (o.report p 2) ∧
      (c.asking (xs ++ ys)).run.files.map Prod.fst =
        ["out/table_1.txt".toList, "out/table_3.txt".toList] ∧
      (c.asking (xs ++ ys)).run.failure = some (.expressionNotGiven 4) := by
  intro c xs ys
  have passes : c.plan.toOption.any (fun _ => true) = true := by decide +kernel
  obtain ⟨p, planned, -⟩ := exists_of_any passes
  have plain : c.isPlain = true := by decide +kernel
  have joint : (c.asking (xs ++ ys)).plan = .ok p :=
    (plan_of_plain plain (by decide +kernel)).trans planned
  have first : (c.asking xs).plan = .ok p :=
    (plan_of_plain plain (by decide +kernel)).trans planned
  have second : (c.asking ys).plan = .ok p :=
    (plan_of_plain plain (by decide +kernel)).trans planned
  have settled := c.settledExpressions_append_of_plain xs ys
    fun t mem => by
      simp only [xs, ys, List.cons_append, List.nil_append, List.mem_cons, List.not_mem_nil,
        or_false] at mem
      rcases mem with rfl | rfl | rfl | rfl | rfl | rfl <;> rfl
  obtain ⟨⟨o, alone, continued⟩, -⟩ := run_append c xs ys joint first second settled
  exact ⟨p, o, second, alone, continued, by decide +kernel, by decide +kernel⟩

/-- A reference to the first of all expressions means another expression in a longer list: the run
over both lists makes the table of `p` where the run over the second makes that of `q`. -/
theorem not_run_append_of_reference :
    let xs := ["p".toList]
    let ys := ["q".toList, "$\x7bexpressions[0]\x7d".toList]
    (byRows.asking (xs ++ ys)).plan.toBool = true ∧ (byRows.asking xs).plan.toBool = true ∧
      (byRows.asking ys).plan.toBool = true ∧ (byRows.asking xs).run.failure = none ∧
      (byRows.asking (xs ++ ys)).run.tables ≠
        (byRows.asking xs).run.tables ++ (byRows.asking ys).run.tables := by
  decide +kernel

end Configuration

end Sentential
