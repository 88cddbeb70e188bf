import Sentential.Table.Format
import Sentential.Proofs.Alignment

/-!
# Records that read back

The comma-separated text of a table is read by programs that know nothing of tables. Such a reader
takes one character after the other. A comma ends a field and a line end ends a record, but neither
does so between quotes, where a quote is written twice. The reader here is a strict one: it refuses
a quote in a field that does not begin with one, anything but an end behind the last quote of a
field, and a text that breaks off inside a record. A line with nothing in it is a record without
fields, and that is why an empty field has to be quoted when it is alone.

Whatever the fields are, records that have been written are read back: a field comes out of its
quotes as it went in, and the character behind it decides how the record goes on. Titles may be any
texts, so the records of a table need no more than that. Their truth values are enumerated anew
instead of being taken from the rows, but they are those that the rows have, which are the ones that
stand in the cells of the plain text.
-/

namespace Sentential

namespace Records

/-! ## Reading -/

/-- Where a reader stands in a field: before its first character, among characters outside quotes,
among characters inside quotes, or behind a quote there, which may be the last one. -/
inductive Place where
  | start
  | bare
  | quoted
  | afterQuote
  deriving DecidableEq, Repr

/-- What has been read: complete records, complete fields of the record that is next, and the
characters of a field. -/
structure Reader where
  records : List (List Text) := []
  fields : List Text := []
  field : Text := []
  place : Place := .start
  deriving DecidableEq, Repr

namespace Reader

def endField (r : Reader) : Reader :=
  ⟨r.records, r.fields ++ [r.field], [], .start⟩

def endRecord (r : Reader) : Reader :=
  ⟨r.records ++ [r.fields], [], [], .start⟩

def put (r : Reader) (c : Char) (place : Place) : Reader :=
  { r with field := r.field ++ [c], place := place }

/-- What ends with a character outside quotes, if anything does. -/
def ended? (r : Reader) (c : Char) : Option Reader :=
  if c = ',' then some r.endField
  else if c = '\n' then some r.endField.endRecord
  else none

/-- Reads a character, if it is admissible where it stands. -/
def step (r : Reader) (c : Char) : Option Reader :=
  match r.place with
  | .start =>
    if c = '"' then some { r with place := .quoted }
    -- a line with nothing in it has no field, not even an empty one
    else if c = '\n' ∧ r.fields = [] then some r.endRecord
    else (r.ended? c).or (some (r.put c .bare))
  | .bare => if c = '"' then none else (r.ended? c).or (some (r.put c .bare))
  | .quoted => some (if c = '"' then { r with place := .afterQuote } else r.put c .quoted)
  | .afterQuote => if c = '"' then some (r.put c .quoted) else r.ended? c

def feed (r : Reader) (text : Text) : Option Reader :=
  text.foldlM step r

/-- The records, if none has been begun that is not complete. -/
def result? (r : Reader) : Option (List (List Text)) :=
  if r.place = .start ∧ r.fields = [] then some r.records else none

end Reader

/-- The records of a text, if it is well-formed. -/
def read? (text : Text) : Option (List (List Text)) :=
  (Reader.feed {} text).bind Reader.result?

/-! ## Reading what has been written -/

namespace Reader

variable {records : List (List Text)} {fields : List Text} {field : Text} {alone : Bool} {c : Char}

theorem feed_cons (r : Reader) (c : Char) (text : Text) :
    r.feed (c :: text) = (r.step c).bind fun r' => r'.feed text :=
  List.foldlM_cons

theorem feed_append (r : Reader) (text text' : Text) :
    r.feed (text ++ text') = (r.feed text).bind fun r' => r'.feed text' :=
  List.foldlM_append

theorem feed_quoted (text : Text) :
    feed ⟨records, fields, field, .quoted⟩
        (text.flatMap fun c => if c = '"' then ['"', '"'] else [c]) =
      some ⟨records, fields, field ++ text, .quoted⟩ := by
  induction text generalizing field with
  | nil => rw [List.append_nil]; rfl
  | cons c text ih =>
      rw [List.flatMap_cons, feed_append]
      have hchar : feed ⟨records, fields, field, .quoted⟩ (if c = '"' then ['"', '"'] else [c]) =
          some ⟨records, fields, field ++ [c], .quoted⟩ := by
        split
        · next hc => subst hc; rfl
        · next hc => simp [feed, step, put, hc]
      rw [hchar, Option.bind_some, ih, List.append_assoc]
      rfl

theorem step_plain {place : Place} (hplace : place = .start ∨ place = .bare) (hquote : c ≠ '"')
    (hcomma : c ≠ ',') (hline : c ≠ '\n') :
    step ⟨records, fields, field, place⟩ c = some ⟨records, fields, field ++ [c], .bare⟩ := by
  rcases hplace with rfl | rfl <;> simp [step, ended?, put, hquote, hcomma, hline]

theorem feed_bare {text : Text} (hquote : '"' ∉ text) (hcomma : ',' ∉ text) (hline : '\n' ∉ text) :
    feed ⟨records, fields, field, .bare⟩ text = some ⟨records, fields, field ++ text, .bare⟩ := by
  induction text generalizing field with
  | nil => rw [List.append_nil]; rfl
  | cons c text ih =>
      simp only [List.mem_cons, not_or] at hquote hcomma hline
      have hchar : step ⟨records, fields, field, .bare⟩ c =
          some ⟨records, fields, field ++ [c], .bare⟩ :=
        step_plain (.inr rfl) (Ne.symm hquote.1) (Ne.symm hcomma.1) (Ne.symm hline.1)
      rw [feed_cons, hchar, Option.bind_some, ih hquote.2 hcomma.2 hline.2, List.append_assoc]
      rfl

/-- Behind a field that has been written the reader has the field, and it stands where the field can
end. It has not moved if the field is empty and was not quoted. -/
theorem exists_feed_csvField (records : List (List Text)) (fields : List Text) (alone : Bool)
    (text : Text) :
    ∃ place, feed ⟨records, fields, [], .start⟩ (Table.csvField alone text) =
        some ⟨records, fields, text, place⟩ ∧
      place ≠ .quoted ∧ (place = .start → alone = false) := by
  rw [Table.csvField]
  split
  · refine ⟨.afterQuote, ?_, by decide, fun h => nomatch h⟩
    have hopen : step ⟨records, fields, [], .start⟩ '"' = some ⟨records, fields, [], .quoted⟩ := rfl
    rw [List.cons_append, feed_cons, hopen, Option.bind_some, feed_append, feed_quoted]
    rfl
  · next hbare =>
      simp only [Table.mustQuote, Bool.or_eq_true, List.contains_iff_mem, Bool.and_eq_true,
        List.isEmpty_iff, not_or, not_and] at hbare
      obtain ⟨⟨⟨hcomma, hquote⟩, hline⟩, halone⟩ := hbare
      cases text with
      | nil => exact ⟨.start, rfl, by decide, fun _ => by simpa using halone⟩
      | cons c text =>
          simp only [List.mem_cons, not_or] at hquote hcomma hline
          have hfirst : step ⟨records, fields, [], .start⟩ c =
              some ⟨records, fields, [c], .bare⟩ :=
            step_plain (.inl rfl) (Ne.symm hquote.1) (Ne.symm hcomma.1) (Ne.symm hline.1)
          refine ⟨.bare, ?_, by decide, fun h => nomatch h⟩
          rw [feed_cons, hfirst, Option.bind_some, feed_bare hquote.2 hcomma.2 hline.2]
          rfl

theorem step_comma {place : Place} (h : place ≠ .quoted) :
    step ⟨records, fields, field, place⟩ ',' =
      some ⟨records, fields ++ [field], [], .start⟩ := by
  cases place with
  | quoted => exact absurd rfl h
  | start | bare | afterQuote => rfl

theorem step_line {place : Place} (h : place ≠ .quoted) (hstart : place = .start → fields ≠ []) :
    step ⟨records, fields, field, place⟩ '\n' =
      some ⟨records ++ [fields ++ [field]], [], [], .start⟩ := by
  cases place with
  | quoted => exact absurd rfl h
  | start => exact if_neg fun hempty => hstart rfl hempty.2
  | bare | afterQuote => rfl

/-- The fields of a record behind those that have been read. Where the first one is the only one it
has been written as such. -/
theorem feed_csvFields (text : Text) {texts : List Text}
    (halone : fields = [] → texts = [] → alone = true) :
    feed ⟨records, fields, [], .start⟩
        ([','].intercalate ((text :: texts).map (Table.csvField alone)) ++ ['\n']) =
      some ⟨records ++ [fields ++ text :: texts], [], [], .start⟩ := by
  induction texts generalizing text fields with
  | nil =>
      obtain ⟨place, hfield, hplace, hstart⟩ := exists_feed_csvField records fields alone text
      -- an empty field that is not quoted has others before it
      have hnonempty : place = .start → fields ≠ [] := by
        intro hplace hempty
        rw [halone hempty rfl] at hstart
        exact absurd (hstart hplace) (by decide)
      rw [List.map_singleton, List.intercalate_singleton, feed_append, hfield, Option.bind_some,
        feed_cons, step_line hplace hnonempty]
      rfl
  | cons next texts ih =>
      obtain ⟨place, hfield, hplace, -⟩ := exists_feed_csvField records fields alone text
      have hrest := @ih (fields ++ [text]) next fun hempty => absurd hempty (by simp)
      rw [List.map_cons, List.map_cons, List.intercalate_cons_cons, List.append_assoc,
        List.append_assoc, feed_append, hfield, Option.bind_some, List.singleton_append, feed_cons,
        step_comma hplace, Option.bind_some, ← List.map_cons, hrest, List.append_assoc]
      rfl

theorem feed_csvRecord (texts : List Text) :
    feed ⟨records, [], [], .start⟩ (Table.csvRecord texts ++ ['\n']) =
      some ⟨records ++ [texts], [], [], .start⟩ := by
  cases texts with
  | nil => rfl
  | cons text texts =>
      rw [Table.csvRecord, feed_csvFields text fun _ hnil => by rw [hnil]; rfl]
      rfl

theorem feed_unlines (rows : List (List Text)) :
    feed ⟨records, [], [], .start⟩ (Text.unlines (rows.map Table.csvRecord)) =
      some ⟨records ++ rows, [], [], .start⟩ := by
  induction rows generalizing records with
  | nil => rw [List.append_nil]; rfl
  | cons row rows ih =>
      rw [List.map_cons, Text.unlines, List.flatMap_cons, feed_append, feed_csvRecord,
        Option.bind_some, ← Text.unlines, ih, List.append_assoc]
      rfl

end Reader

/-- Records that have been written are read back, whatever their fields are. -/
theorem read?_unlines (rows : List (List Text)) :
    read? (Text.unlines (rows.map Table.csvRecord)) = some rows := by
  rw [read?, Reader.feed_unlines]
  rfl

example : read? "\"a,\"\"b\"\"\",c\n\n\"\"\n".toList =
    some [["a,\"b\"".toList, ['c']], [], [[]]] := by
  decide

end Records

/-! ## The records of a table -/

/-- The truth values of a row: those of its variables, its sub-expressions and its statement. -/
def Row.bits (row : Row) : List Bool :=
  row.assignment.entries.map Prod.snd ++ row.outcome.marked ++ [row.outcome.value]

namespace Table

variable {s : Statement}

theorem map_snd_entries_ofRow {names : List Text} (hnames : names.Nodup) {row : List Bool}
    (h : row.length = names.length) (source : Option Text) :
    (Assignment.ofRow names row source).entries.map Prod.snd = row := by
  rw [Assignment.ofRow_eq_ofTruth hnames h, Assignment.entries_ofTruth, List.map_map]
  exact Column.map_truth hnames h

theorem csv?_byMeaning (hatoms : s.atoms.Nodup) :
    (byMeaning s).csv? =
      (byMeaning s).columns?.map fun titles =>
        Text.unlines ((titles :: (byMeaning s).rows.map fun row => row.bits.map csvBit).map
          csvRecord) := by
  have hrecord : ∀ values ∈ allRows s.atoms.length,
      values ++ (s.meaning (Column.truth s.atoms values)).bits =
        Row.bits ⟨.ofRow s.atoms values (some s.text),
          s.meaning (Column.truth s.atoms values)⟩ := by
    intro values hvalues
    rw [Row.bits, map_snd_entries_ofRow hatoms (length_of_mem_allRows hvalues), List.append_assoc]
    rfl
  -- the rows are made from the same enumeration as the records
  rw [csv?]
  refine congrArg (Option.map · _) (funext fun titles => congrArg Text.unlines ?_)
  rw [List.map_cons, byMeaning, List.zipWith_map_right, List.zipWith_self, List.map_map,
    List.map_map]
  refine congrArg (csvRecord titles :: ·) (List.map_congr_left fun values hvalues => ?_)
  exact congrArg (fun values => csvRecord (values.map csvBit)) (hrecord values hvalues)

/-- A table that has been built is the one that its statement's meaning gives. -/
theorem eq_byMeaning_of_build (h : s.Compiled) {choice : BackendChoice} {t : Table}
    (ht : build s choice = .ok t) : t = byMeaning s := by
  obtain ⟨name, _ | b⟩ := choice
  · rw [build] at ht
    split at ht <;> cases ht
  · by_cases hcount : s.atoms.length ≤ maxVariables
    · rw [Statement.build_of_compiled h hcount] at ht
      exact (Except.ok.inj ht).symm
    · have henumerable : ¬ enumerable s = true := fun he => hcount (of_decide_eq_true he)
      rw [build, if_neg henumerable] at ht
      cases ht

/-- Where all columns and all rows are shown, the plain text lays out all titles and all truth
values. -/
theorem exists_lines (h : s.Compiled) {titles : List Text}
    (htitles : (byMeaning s).columns? = some titles) {d : DisplayOptions}
    (hall : d.showSubExpressions = true) (hrows : d.onlyShowTrue = false) :
    ∃ lines, (byMeaning s).plain? d = some (Text.unlines lines) ∧
      List.Forall₂ (Lays (titles.map (columnWidth d)))
        (titles :: (byMeaning s).rows.map fun row => row.bits.map d.format) lines := by
  obtain ⟨marks, hmarks, htexts, hplain⟩ := exists_plain h d
  obtain ⟨marks', hmarks', hshown⟩ := exists_titles h d
  have hunique : Relator.RightUnique fun (f : Formula) text => f.print? = some text :=
    fun f text text' htext htext' => Option.some.inj (htext.symm.trans htext')
  obtain rfl : marks' = marks := hunique.forall₂ hmarks' hmarks
  have hcolumns : (byMeaning s).titles? d = (byMeaning s).columns? := if_pos hall
  obtain rfl : s.atoms ++ marks' ++ [s.text] = titles :=
    Option.some.inj (hshown.symm.trans (hcolumns.trans htitles))
  have hcells : ((byMeaning s).visibleRows d).map (fun row => (cells d row).map d.format) =
      (byMeaning s).rows.map fun row => row.bits.map d.format := by
    rw [visibleRows, if_neg (by rw [hrows]; decide)]
    refine List.map_congr_left fun row _ => ?_
    rw [cells_eq, if_pos hall, Row.bits]
  rw [hcells] at htexts hplain
  refine ⟨_, hplain, List.forall₂_map_right_iff.mpr (List.forall₂_same.mpr fun ts hts => ?_)⟩
  exact lays_plainLine (htexts ts hts).1 (htexts ts hts).2

end Table

namespace Statement

variable {s : Statement}

/-- The comma-separated text of a table reads back, as the titles and then, row for row, the truth
values of the assignment, of the sub-expressions and of the statement. How tables are displayed makes
no difference to it. The plain text lays out the same titles and truth values if it shows all columns
and all rows. -/
theorem csv_reads_back (h : s.Compiled) {choice : BackendChoice} {t : Table}
    (ht : Table.build s choice = .ok t) :
    ∃ titles content, t.columns? = some titles ∧
      let rows := t.rows.map fun row =>
        row.assignment.entries.map Prod.snd ++ row.outcome.marked ++ [row.outcome.value]
      Records.read? content = some (titles :: rows.map
        (List.map fun bit => if bit then "True".toList else "False".toList)) ∧
      ∀ d : DisplayOptions, t.render? d .csv = some content ∧
        ∃ lines, t.render? { d with showSubExpressions := true, onlyShowTrue := false } .text =
            some (Text.unlines lines) ∧
          List.Forall₂ (Table.Lays (titles.map fun title =>
              max title.length (max d.trueText.length d.falseText.length)))
            (titles :: rows.map (List.map d.format)) lines := by
  obtain rfl := Table.eq_byMeaning_of_build h ht
  obtain ⟨marks, hmarks, hcolumns⟩ := Table.exists_titles h { showSubExpressions := true }
  have hcolumns : (Table.byMeaning s).columns? = some (s.atoms ++ marks ++ [s.text]) := hcolumns
  have hcsv := Table.csv?_byMeaning (ascending_atoms h).nodup
  rw [hcolumns, Option.map_some] at hcsv
  refine ⟨_, _, hcolumns, ?_, fun d => ⟨hcsv, ?_⟩⟩
  · rw [Records.read?_unlines, List.map_map]
    rfl
  · rw [List.map_map]
    exact Table.exists_lines h hcolumns rfl rfl

theorem csv_reads_back_quoted_titles :
    ∃ s₀ t content records, parse { marker := some '"' } "\"(p\n|q)".toList = .ok s₀ ∧
      Table.build (s₀.withVariables [[',']]) ⟨[], some .columnByColumn⟩ = .ok t ∧
      t.render? {} .csv = some content ∧ Records.read? content = some records ∧
      records[0]? = some [[','], ['p'], ['q'], "(p | q)".toList, "\"(p\n|q)".toList] ∧
      records[1]? = some (["True", "True", "True", "False", "False"].map String.toList) ∧
      records.length = 9 := by
  let group : Formula := .binary .nand ['|'] (.var ['p'] ['p']) (.var ['q'] ['q'])
  let s₀ : Statement := ⟨"\"(p\n|q)".toList, group, [['p'], ['q']], [group]⟩
  have hparse : parse { marker := some '"' } "\"(p\n|q)".toList = .ok s₀ := by decide +kernel
  have hcompiled : (s₀.withVariables [[',']]).Compiled := .withVariables (.parse hparse) [[',']]
  have hbuild : Table.build (s₀.withVariables [[',']]) ⟨[], some .columnByColumn⟩ =
      .ok (Table.byMeaning (s₀.withVariables [[',']])) :=
    build_of_compiled hcompiled (by decide) [] .columnByColumn
  obtain ⟨titles, content, hcolumns, hread, hcsv⟩ := csv_reads_back hcompiled hbuild
  obtain rfl : [[','], ['p'], ['q'], "(p | q)".toList, "\"(p\n|q)".toList] = titles :=
    Option.some.inj hcolumns
  exact ⟨s₀, _, content, _, hparse, hbuild, (hcsv {}).1, hread, rfl, by decide +kernel, rfl⟩

end Statement

end Sentential
