import Mathlib.Algebra.BigOperators.Group.List.Basic
import Mathlib.Algebra.Ring.Nat
import Mathlib.Data.List.DropRight
import Mathlib.Data.List.Flatten
import Sentential.Proofs.Columns

/-!
# Columns at fixed places

A line of a plain table is a border and then one box after another: a blank, a text filled up to the
width of its column, a blank and a border. Boxes of one column are equally wide in all lines, so
where a column begins depends on the widths before it and on nothing that stands in the lines. All
lines are equally long, and the widths say how long.

Hence a table can be read without looking for borders: cut into pieces of the length of a line, and
the pieces at the places of the columns. What stands there are the texts up to the blanks behind
them, and if that is enough to tell the two truth values apart, the truth values are found again.
-/

namespace Sentential

namespace Text

/-- The text without the blanks behind it. -/
def trimmed (t : Text) : Text :=
  t.rdropWhile (· == ' ')

theorem trimmed_append_replicate (t : Text) (n : Nat) :
    trimmed (t ++ List.replicate n ' ') = trimmed t := by
  induction n with
  | zero => rw [List.replicate_zero, List.append_nil]
  | succ n ih =>
      rw [List.replicate_succ', ← List.append_assoc, trimmed, List.rdropWhile_concat_pos _ _ _ rfl]
      exact ih

theorem trimmed_rightpad (width : Nat) (t : Text) : trimmed (t.rightpad width ' ') = trimmed t :=
  trimmed_append_replicate t _

/-- A number of pieces of one size, from the front of a text. -/
def chunks (size : Nat) : Nat → Text → List Text
  | 0, _ => []
  | count + 1, t => t.take size :: chunks size count (t.drop size)

theorem length_flatten_of_forall {size : Nat} {pieces : List Text}
    (h : ∀ piece ∈ pieces, piece.length = size) :
    pieces.flatten.length = pieces.length * size := by
  rw [List.length_flatten, List.map_eq_replicate_iff.mpr h, List.sum_const_nat]

theorem chunks_flatten {size : Nat} {pieces : List Text}
    (h : ∀ piece ∈ pieces, piece.length = size) :
    chunks size pieces.length pieces.flatten = pieces := by
  induction pieces with
  | nil => rfl
  | cons piece pieces ih =>
      obtain ⟨hpiece, hpieces⟩ := List.forall_mem_cons.mp h
      rw [List.flatten_cons, List.length_cons, chunks, List.take_left' hpiece,
        List.drop_left' hpiece, ih hpieces]

end Text

namespace Table

/-! ## Boxes -/

/-- A text in its column: a blank, the text filled up to the width, a blank and a border. -/
def boxed (width : Nat) (t : Text) : Text :=
  ' ' :: (t.rightpad width ' ' ++ [' ', '|'])

/-- Every text fits into its column, and there is one for each. -/
def Fits (texts : List Text) (widths : List Nat) : Prop :=
  List.Forall₂ (fun t width => t.length ≤ width) texts widths

variable {widths : List Nat} {texts : List Text}

theorem Fits.length_le (h : Fits texts widths) {c width : Nat} {text : Text}
    (hwidth : widths[c]? = some width) (htext : texts[c]? = some text) : text.length ≤ width := by
  obtain ⟨hc, rfl⟩ := List.getElem?_eq_some_iff.mp hwidth
  obtain ⟨hc', rfl⟩ := List.getElem?_eq_some_iff.mp htext
  exact List.Forall₂.get h hc' hc

theorem length_boxed {width : Nat} {t : Text} (h : t.length ≤ width) :
    (boxed width t).length = width + 3 := by
  rw [boxed, List.length_cons, List.length_append, List.length_rightpad, Nat.max_eq_left h]
  rfl

theorem map_length_boxes (h : Fits texts widths) :
    (widths.zipWith boxed texts).map List.length = widths.map (· + 3) := by
  induction h with
  | nil => rfl
  | cons hfits h ih =>
      rw [List.zipWith_cons_cons, List.map_cons, List.map_cons, ih, length_boxed hfits]

theorem intercalate_eq_boxes {padded : List Text} (h : padded ≠ []) :
    "| ".toList ++ " | ".toList.intercalate padded ++ " |".toList =
      '|' :: padded.flatMap fun t => ' ' :: (t ++ [' ', '|']) := by
  induction padded with
  | nil => exact absurd rfl h
  | cons t padded ih =>
      cases padded with
      | nil => simp [List.intercalate]
      | cons u padded =>
          have hfirst : "| ".toList ++ " | ".toList.intercalate (t :: u :: padded) ++ " |".toList =
              "| ".toList ++ t ++ [' '] ++
                ("| ".toList ++ " | ".toList.intercalate (u :: padded) ++ " |".toList) := by
            rw [List.intercalate_cons_cons]
            simp
          rw [hfirst, ih (List.cons_ne_nil u padded)]
          simp

theorem plainLine_eq (h : Fits texts widths) (hne : texts ≠ []) :
    plainLine widths texts = '|' :: (widths.zipWith boxed texts).flatten := by
  let padded := widths.zipWith (fun width t => t.rightpad width ' ') texts
  have hpadded : padded ≠ [] := by
    refine List.ne_nil_of_length_pos ?_
    rw [List.length_zipWith, ← h.length_eq, Nat.min_self]
    exact List.length_pos_iff.mpr hne
  have hboxes : (padded.flatMap fun t => ' ' :: (t ++ [' ', '|'])) =
      (widths.zipWith boxed texts).flatten := by
    rw [List.flatMap, List.map_zipWith]
    rfl
  rw [← hboxes]
  exact intercalate_eq_boxes hpadded

/-! ## Places -/

/-- Where the text of a column begins in a line: behind the first border and the boxes before it. -/
def columnStart (widths : List Nat) (c : Nat) : Nat :=
  2 + ((widths.map (· + 3)).take c).sum

/-- How long a line is. -/
def lineLength (widths : List Nat) : Nat :=
  widths.sum + 3 * (widths.length - 1) + 4

/-- The line has the length that the widths give it, and at the place of each column, filled up to
its width, the text for it. -/
structure Lays (widths : List Nat) (texts : List Text) (line : Text) : Prop where
  length_texts : texts.length = widths.length
  length_line : line.length = lineLength widths
  column : ∀ c width text, widths[c]? = some width → texts[c]? = some text →
    text.length ≤ width ∧ (line.drop (columnStart widths c)).take width = text.rightpad width ' '

theorem sum_map_add_three (widths : List Nat) :
    (widths.map (· + 3)).sum = widths.sum + 3 * widths.length := by
  induction widths with
  | nil => rfl
  | cons width widths ih =>
      rw [List.map_cons, List.sum_cons, ih, List.sum_cons, List.length_cons]
      omega

theorem take_drop_boxes (h : Fits texts widths) {c width : Nat} {text : Text}
    (hwidth : widths[c]? = some width) (htext : texts[c]? = some text) :
    ((widths.zipWith boxed texts).flatten.drop (((widths.map (· + 3)).take c).sum + 1)).take width =
      text.rightpad width ' ' := by
  have hbox : (widths.zipWith boxed texts)[c]? = some (boxed width text) := by
    rw [List.getElem?_zipWith, hwidth, htext]
  obtain ⟨hc, hget⟩ := List.getElem?_eq_some_iff.mp hbox
  have hpadded : (text.rightpad width ' ').length = width := by
    rw [List.length_rightpad, Nat.max_eq_left (h.length_le hwidth htext)]
  rw [← map_length_boxes h, ← List.drop_drop, List.drop_sum_flatten, List.drop_eq_getElem_cons hc,
    hget, List.flatten_cons, boxed, List.cons_append, List.drop_succ_cons, List.drop_zero,
    List.append_assoc, List.take_left' hpadded]

theorem lays_plainLine (h : Fits texts widths) (hne : texts ≠ []) :
    Lays widths texts (plainLine widths texts) := by
  have hlength := h.length_eq
  have hpos := List.length_pos_iff.mpr hne
  refine ⟨hlength, ?_, fun c width text hwidth htext => ⟨h.length_le hwidth htext, ?_⟩⟩
  · rw [plainLine_eq h hne, List.length_cons, List.length_flatten, map_length_boxes h,
      sum_map_add_three, lineLength]
    omega
  · rw [plainLine_eq h hne, columnStart, Nat.add_comm 2, List.drop_succ_cons]
    exact take_drop_boxes h hwidth htext

/-! ## Reading -/

/-- The texts at the places of the columns, line for line and without the blanks behind them. The
places are known from the widths alone. -/
def fields (widths : List Nat) (content : Text) : List (List Text) :=
  let size := lineLength widths + 1
  (Text.chunks size (content.length / size) content).map fun chunk =>
    widths.mapIdx fun c width =>
      Text.trimmed ((chunk.dropLast.drop (columnStart widths c)).take width)

theorem mapIdx_of_lays {line : Text} (h : Lays widths texts line) :
    (widths.mapIdx fun c width =>
      Text.trimmed ((line.drop (columnStart widths c)).take width)) = texts.map Text.trimmed := by
  refine List.ext_getElem? fun c => ?_
  rw [List.getElem?_mapIdx, List.getElem?_map]
  cases hwidth : widths[c]? with
  | none =>
      have hc : texts.length ≤ c := h.length_texts ▸ List.getElem?_eq_none_iff.mp hwidth
      rw [List.getElem?_eq_none hc]
      rfl
  | some width =>
      obtain ⟨hc, -⟩ := List.getElem?_eq_some_iff.mp hwidth
      obtain ⟨text, htext⟩ : ∃ text, texts[c]? = some text :=
        ⟨_, List.getElem?_eq_getElem (h.length_texts ▸ hc)⟩
      rw [htext, Option.map_some, Option.map_some, (h.column c width _ hwidth htext).2,
        Text.trimmed_rightpad]

/-- What is read from lines is what was laid out in them, up to blanks. -/
theorem fields_unlines {rows : List (List Text)}
    (h : ∀ texts ∈ rows, Lays widths texts (plainLine widths texts)) :
    fields widths (Text.unlines (rows.map (plainLine widths))) =
      rows.map (List.map Text.trimmed) := by
  let pieces := rows.map fun texts => plainLine widths texts ++ ['\n']
  have hcontent : Text.unlines (rows.map (plainLine widths)) = pieces.flatten := by
    rw [Text.unlines, List.flatMap_map]
    rfl
  have hpieces : ∀ piece ∈ pieces, piece.length = lineLength widths + 1 := by
    intro piece hpiece
    obtain ⟨texts, htexts, rfl⟩ := List.mem_map.mp hpiece
    rw [List.length_append, (h texts htexts).length_line]
    rfl
  have hcount : pieces.flatten.length / (lineLength widths + 1) = pieces.length := by
    rw [Text.length_flatten_of_forall hpieces]
    exact Nat.mul_div_cancel _ (Nat.succ_pos _)
  rw [fields, hcontent, hcount, Text.chunks_flatten hpieces, List.map_map]
  refine List.map_congr_left fun texts htexts => ?_
  simp only [Function.comp_apply, List.dropLast_concat]
  exact mapIdx_of_lays (h texts htexts)

/-! ## Tables -/

variable {s : Statement} {d : DisplayOptions}

theorem fits_titles (d : DisplayOptions) (titles : List Text) :
    Fits titles (titles.map (columnWidth d)) :=
  List.forall₂_map_right_iff.mpr (List.forall₂_same.mpr fun _ _ => Nat.le_max_left ..)

theorem length_format_le (d : DisplayOptions) (bit : Bool) (title : Text) :
    (d.format bit).length ≤ columnWidth d title := by
  rw [DisplayOptions.format, columnWidth]
  split <;> omega

theorem fits_cells {titles : List Text} {bits : List Bool} (h : bits.length = titles.length) :
    Fits (bits.map d.format) (titles.map (columnWidth d)) := by
  refine List.forall₂_map_left_iff.mpr (List.forall₂_map_right_iff.mpr ?_)
  exact List.forall₂_iff_get.mpr ⟨h, fun i _ _ => length_format_le d _ _⟩

/-- The plain text of a table that comes from a text: a line for the titles and one for each visible
row, all of them over the same columns. -/
theorem exists_plain (h : s.Compiled) (d : DisplayOptions) :
    ∃ marks, List.Forall₂ (fun f mark => f.print? = some mark) (shownFormulas d s) marks ∧
      let titles := s.atoms ++ marks ++ [s.text]
      let widths := titles.map (columnWidth d)
      let texts := titles :: ((byMeaning s).visibleRows d).map fun row => (cells d row).map d.format
      (∀ ts ∈ texts, Fits ts widths ∧ ts ≠ []) ∧
        (byMeaning s).plain? d = some (Text.unlines (texts.map (plainLine widths))) := by
  obtain ⟨marks, hmarks, htitles⟩ := exists_titles h d
  refine ⟨marks, hmarks, ?_⟩
  intro titles widths texts
  have hcolumns : titles.length = columnCount d s := by
    rw [columnCount, hmarks.length_eq]
    simp [titles, Nat.add_assoc]
  have hfits : ∀ ts ∈ texts, Fits ts widths := by
    refine List.forall_mem_cons.mpr ⟨fits_titles d titles, fun ts hts => ?_⟩
    obtain ⟨row, hrow, rfl⟩ := List.mem_map.mp hts
    exact fits_cells ((length_cells h hrow).trans hcolumns.symm)
  refine ⟨fun ts hts => ⟨hfits ts hts, List.ne_nil_of_length_pos ?_⟩, ?_⟩
  · rw [(hfits ts hts).length_eq, List.length_map, hcolumns]
    exact Nat.succ_pos _
  · rw [plain?, htitles, Option.map_some, List.map_cons, List.map_map]
    rfl

/-- Truth values are read from their texts if the texts differ beyond the blanks behind them. -/
theorem map_trimmed_format (h : d.trueText.trimmed ≠ d.falseText.trimmed) (bits : List Bool) :
    ((bits.map d.format).map Text.trimmed).map (· == d.trueText.trimmed) = bits := by
  have hbit : ∀ bit, (Text.trimmed (d.format bit) == d.trueText.trimmed) = bit := by
    intro bit
    cases bit with
    | true => exact beq_self_eq_true _
    | false => exact beq_false_of_ne h.symm
  rw [List.map_map, List.map_map]
  exact (List.map_congr_left fun bit _ => hbit bit).trans (List.map_id bits)

end Table

namespace Statement

variable {s : Statement}

/-- The plain text of a table that comes from a text has a line for the titles and one for each
visible row. All lines have the length that the widths of the columns give them, and each text
stands at the place that the widths give its column, filled up with blanks. Read at these places the
text gives its titles and cells back up to blanks behind them, and the truth values themselves if
their texts differ in more than such blanks. -/
theorem plain_lays (h : s.Compiled) (hcount : s.atoms.length ≤ Table.maxVariables) (name : Text)
    (b : Backend) (d : DisplayOptions) :
    ∃ t marks content, Table.build s ⟨name, some b⟩ = .ok t ∧ t.plain? d = some content ∧
      List.Forall₂ (fun f mark => f.print? = some mark) (Table.shownFormulas d s) marks ∧
      let titles := s.atoms ++ marks ++ [s.text]
      let widths := titles.map fun title =>
        max title.length (max d.trueText.length d.falseText.length)
      let rows := if d.onlyShowTrue then t.rows.filter fun row => row.outcome.value else t.rows
      let cells := fun row : Row => row.assignment.entries.map Prod.snd ++
        (if d.showSubExpressions then row.outcome.marked else []) ++ [row.outcome.value]
      let texts := titles :: rows.map fun row => (cells row).map d.format
      (∃ lines, content = Text.unlines lines ∧ List.Forall₂ (Table.Lays widths) texts lines) ∧
      Table.fields widths content = texts.map (List.map Text.trimmed) ∧
      (d.trueText.trimmed ≠ d.falseText.trimmed →
        (Table.fields widths content).tail.map (List.map (· == d.trueText.trimmed)) =
          rows.map cells) := by
  obtain ⟨marks, hmarks, htexts, hplain⟩ := Table.exists_plain h d
  have hlays := fun ts hts => Table.lays_plainLine (htexts ts hts).1 (htexts ts hts).2
  have hfields := Table.fields_unlines hlays
  refine ⟨Table.byMeaning s, marks, _, build_of_compiled h hcount name b, hplain, hmarks, ?_⟩
  simp only [← Table.cells_eq]
  refine ⟨⟨_, rfl, ?_⟩, hfields, fun hdiffer => ?_⟩
  · exact List.forall₂_map_right_iff.mpr (List.forall₂_same.mpr hlays)
  · let isTrue : List Text → List Bool := List.map (· == d.trueText.trimmed)
    refine (congrArg (fun rows => rows.tail.map isTrue) hfields).trans ?_
    show (List.map (List.map Text.trimmed) (_ :: _)).tail.map isTrue = _
    rw [List.map_cons, List.tail_cons, List.map_map, List.map_map]
    exact List.map_congr_left fun row _ => Table.map_trimmed_format hdiffer (Table.cells d row)

theorem plain_lays_widened_and_filtered :
    let d : DisplayOptions := ⟨"T ".toList, "no".toList, true, true⟩
    ∃ s₀ t content, parse {} "*(p|q)->p".toList = .ok s₀ ∧
      Table.build (s₀.withVariables [['z']]) ⟨[], some .columnByColumn⟩ = .ok t ∧
      t.plain? d = some content ∧ d.trueText.trimmed ≠ d.falseText.trimmed ∧
      (Table.fields [2, 2, 2, 7, 9] content).tail.map (List.map (· == ['T'])) =
        (t.rows.filter fun row => row.outcome.value).map fun row =>
          row.assignment.entries.map Prod.snd ++ row.outcome.marked ++ [row.outcome.value] := by
  intro d
  let group : Formula := .binary .nand ['|'] (.var ['p'] ['p']) (.var ['q'] ['q'])
  let s₀ : Statement := ⟨"*(p|q)->p".toList,
    .binary .implies ['-', '>'] group (.var ['p'] ['p']), [['p'], ['q']], [group]⟩
  have hparse : parse {} "*(p|q)->p".toList = .ok s₀ := by decide +kernel
  have hdiffer : d.trueText.trimmed ≠ d.falseText.trimmed := by decide
  obtain ⟨t, marks, content, hbuild, hplain, hmarks, -, -, hread⟩ :=
    plain_lays (.withVariables (.parse hparse) [['z']]) (by decide) [] .columnByColumn d
  obtain ⟨mark, _, hmark, hnil, rfl⟩ := List.forall₂_cons_left_iff.mp hmarks
  cases hnil
  cases hmark
  exact ⟨s₀, t, content, hparse, hbuild, hplain, hdiffer, hread hdiffer⟩

end Statement

end Sentential
