import Sentential.Proofs.Alignment
import Sentential.Proofs.Spacing

/-!
# One line for each row

A plain table is a line for the titles and a line for each visible row, provided that nothing in it
ends a line before its time. The text of a statement is shown as it was written, and blanks of any
kind may stand between its tokens; line ends are blanks. So a statement that is written on several
lines has its title broken, and it is the only column this can happen to: the names of variables are
word characters, and a sub-expression is printed anew, with no other blanks than spaces.

Hence the lines are as many and as long as they should be if and only if the text has no line end.
Every line end it has is one line too many.
-/

namespace Sentential

namespace Text

/-- The text consists of a number of lines, all of one length and each of them ended. -/
def Aligned (count : Nat) (t : Text) : Prop :=
  ∃ lines width, t = unlines lines ∧ lines.length = count ∧
    ∀ line ∈ lines, '\n' ∉ line ∧ line.length = width

/-- How many lines are ended in some texts. -/
def lineEnds (texts : List Text) : Nat :=
  (texts.map (List.count '\n')).sum

theorem lineEnds_cons (t : Text) (texts : List Text) :
    lineEnds (t :: texts) = t.count '\n' + lineEnds texts := by
  rw [lineEnds, List.map_cons, List.sum_cons, lineEnds]

theorem lineEnds_eq_zero {texts : List Text} (h : ∀ t ∈ texts, '\n' ∉ t) : lineEnds texts = 0 := by
  induction texts with
  | nil => rfl
  | cons t texts ih =>
      obtain ⟨ht, htexts⟩ := List.forall_mem_cons.mp h
      rw [lineEnds_cons, List.count_eq_zero.mpr ht, ih htexts]

theorem lineEnds_append (texts texts' : List Text) :
    lineEnds (texts ++ texts') = lineEnds texts + lineEnds texts' := by
  rw [lineEnds, List.map_append, List.sum_append, lineEnds, lineEnds]

theorem count_unlines (lines : List Text) :
    (unlines lines).count '\n' = lineEnds lines + lines.length := by
  induction lines with
  | nil => rfl
  | cons line lines ih =>
      rw [unlines, List.flatMap_cons, List.count_append, List.count_append, ← unlines, ih,
        lineEnds_cons, List.length_cons, List.count_singleton_self]
      omega

theorem count_of_aligned {count : Nat} {t : Text} (h : Aligned count t) : t.count '\n' = count := by
  obtain ⟨lines, width, rfl, hcount, hlines⟩ := h
  rw [count_unlines, lineEnds_eq_zero fun line hline => (hlines line hline).1, hcount, Nat.zero_add]

end Text

/-! ## Blanks in titles -/

namespace Token

/-- No lexeme that is found has blanks in it. -/
theorem not_isBlank_of_lex {marker : Option Char} {text : Text} {ts : List Token}
    (h : lex marker text = .ok ts) {t : Token} (ht : t ∈ ts) {c : Char} (hc : c ∈ t.lexeme) :
    Text.isBlank c = false := by
  have hmem : c ∈ ts.flatMap lexeme := List.mem_flatMap.mpr ⟨t, ht, hc⟩
  rw [flatMap_lexeme_of_lex h] at hmem
  simpa using (List.mem_filter.mp hmem).2

end Token

theorem Derivation.eq_space_of_print {phrase : Phrase} {marker : Option Char} {text : Text}
    {ts us : List Token} {f : Formula} (hlex : Token.lex marker text = .ok ts) (hus : us ⊆ ts)
    (d : Derivation phrase us f) {printed : Text} (hprint : f.print? = some printed) {c : Char}
    (hc : c ∈ printed) (hblank : Text.isBlank c = true) : c = ' ' := by
  rcases Formula.mem_of_print hprint hc with rfl | ⟨t, ht, hc⟩
  · rfl
  · rcases d.mem_of_mem_tokens ht with rfl | rfl | ⟨ht, -⟩
    · rw [List.mem_singleton.mp hc] at hblank
      exact absurd hblank (by decide)
    · rw [List.mem_singleton.mp hc] at hblank
      exact absurd hblank (by decide)
    · rw [Token.not_isBlank_of_lex hlex (hus ht) hc] at hblank
      cases hblank

namespace Statement

variable {o : ParseOptions} {text : Text} {s : Statement}

/-- What is printed of a statement that was read has no other blanks than spaces. -/
theorem eq_space_of_print (h : parse o text = .ok s) {f : Formula}
    (hf : f ∈ s.root :: s.subExpressions) {printed : Text} (hprint : f.print? = some printed)
    {c : Char} (hc : c ∈ printed) (hblank : Text.isBlank c = true) : c = ' ' := by
  obtain ⟨ts, hlex, g, d, -, rfl⟩ := parse_eq_ok_iff.mp h
  rcases List.mem_cons.mp hf with rfl | hf
  · exact d.eq_space_of_print hlex (List.Subset.refl ts) hprint hc hblank
  · obtain ⟨us, hus, ⟨e⟩⟩ := d.exists_of_mem_marks hf
    exact e.eq_space_of_print hlex hus hprint hc hblank

theorem text_of_parse (h : parse o text = .ok s) : s.text = text := by
  obtain ⟨ts, -, f, d, -, rfl⟩ := parse_eq_ok_iff.mp h
  rfl

/-- Among the titles the text of the statement alone can end a line. -/
theorem lineEnds_titles (h : parse o text = .ok s) {fs : List Formula}
    (hfs : ∀ f ∈ fs, f ∈ s.subExpressions) {marks : List Text}
    (hmarks : List.Forall₂ (fun f mark => f.print? = some mark) fs marks) :
    Text.lineEnds (s.atoms ++ marks ++ [s.text]) = text.count '\n' := by
  have hatoms : ∀ x ∈ s.atoms, '\n' ∉ x := by
    intro x hx hmem
    obtain ⟨c, rfl, hword, -⟩ := exists_char_of_mem_atoms h hx
    rw [← List.mem_singleton.mp hmem] at hword
    exact absurd hword (by decide)
  have hprinted : ∀ mark ∈ marks, '\n' ∉ mark := by
    intro mark hmark hmem
    obtain ⟨i, hi, rfl⟩ := List.mem_iff_getElem.mp hmark
    have hf := List.getElem_mem (hmarks.length_eq ▸ hi : i < fs.length)
    have hprint := List.Forall₂.get hmarks (hmarks.length_eq ▸ hi) hi
    exact absurd (eq_space_of_print h (List.mem_cons_of_mem _ (hfs _ hf)) hprint hmem (by decide))
      (by decide)
  rw [Text.lineEnds_append, Text.lineEnds_append, Text.lineEnds_eq_zero hatoms,
    Text.lineEnds_eq_zero hprinted, text_of_parse h]
  simp [Text.lineEnds]

end Statement

/-! ## Lines -/

namespace Table

variable {widths : List Nat} {texts : List Text} {d : DisplayOptions}

theorem count_boxed (width : Nat) (t : Text) : (boxed width t).count '\n' = t.count '\n' := by
  simp [boxed, List.rightpad, List.count_replicate]

/-- Nothing ends a line but what is laid out in it. -/
theorem count_plainLine (h : Fits texts widths) (hne : texts ≠ []) :
    (plainLine widths texts).count '\n' = Text.lineEnds texts := by
  have hboxes : (widths.zipWith boxed texts).map (List.count '\n') =
      texts.map (List.count '\n') := by
    clear hne
    induction h with
    | nil => rfl
    | cons hfits h ih => rw [List.zipWith_cons_cons, List.map_cons, List.map_cons, ih, count_boxed]
  rw [plainLine_eq h hne, List.count_cons_of_ne (by decide), List.count_flatten, hboxes]
  rfl

theorem lineEnds_plainLines {rows : List (List Text)}
    (h : ∀ ts ∈ rows, Fits ts widths ∧ ts ≠ []) :
    Text.lineEnds (rows.map (plainLine widths)) = (rows.map Text.lineEnds).sum := by
  have hlines : (rows.map (plainLine widths)).map (List.count '\n') = rows.map Text.lineEnds := by
    rw [List.map_map]
    exact List.map_congr_left fun ts hts => count_plainLine (h ts hts).1 (h ts hts).2
  rw [Text.lineEnds, hlines]

theorem lineEnds_cells (htrue : '\n' ∉ d.trueText) (hfalse : '\n' ∉ d.falseText)
    (bits : List Bool) : Text.lineEnds (bits.map d.format) = 0 :=
  Text.lineEnds_eq_zero (notMem_map_format htrue hfalse bits)

end Table

namespace Statement

variable {o : ParseOptions} {text : Text} {s : Statement} {d : DisplayOptions}

/-- The plain text of a statement's table has one line more for every line end in the statement's
text. It is a line for the titles and one for each visible row, all of one length, if and only if
the statement is written on one line, whatever other blanks it is written with. -/
theorem aligned_plain_iff (h : parse o text = .ok s)
    (hcount : s.atoms.length ≤ Table.maxVariables) (name : Text) (b : Backend)
    (htrue : '\n' ∉ d.trueText) (hfalse : '\n' ∉ d.falseText) :
    ∃ t content, Table.build s ⟨name, some b⟩ = .ok t ∧ t.plain? d = some content ∧
      let rows := if d.onlyShowTrue then t.rows.filter fun row => row.outcome.value else t.rows
      content.count '\n' = 1 + rows.length + text.count '\n' ∧
      (Text.Aligned (1 + rows.length) content ↔ '\n' ∉ text) := by
  obtain ⟨marks, hmarks, htexts, hplain⟩ := Table.exists_plain (.parse h) d
  refine ⟨Table.byMeaning s, _, build_of_compiled (.parse h) hcount name b, hplain, ?_⟩
  let titles := s.atoms ++ marks ++ [s.text]
  let widths := titles.map (Table.columnWidth d)
  let rows := (Table.byMeaning s).visibleRows d
  let texts := titles :: rows.map fun row => (Table.cells d row).map d.format
  have htitles : Text.lineEnds titles = text.count '\n' :=
    lineEnds_titles h (fun f => Table.mem_of_mem_shownFormulas) hmarks
  have hcells : ∀ ts ∈ rows.map fun row => (Table.cells d row).map d.format,
      Text.lineEnds ts = 0 := by
    intro ts hts
    obtain ⟨row, -, rfl⟩ := List.mem_map.mp hts
    exact Table.lineEnds_cells htrue hfalse _
  have hlength : texts.length = 1 + rows.length := by simp [texts, Nat.add_comm]
  have hends : (Text.unlines (texts.map (Table.plainLine widths))).count '\n' =
      1 + rows.length + text.count '\n' := by
    have hnone :
        ((rows.map fun row => (Table.cells d row).map d.format).map Text.lineEnds).sum = 0 :=
      List.sum_eq_zero fun n hn => by
        obtain ⟨ts, hts, rfl⟩ := List.mem_map.mp hn
        exact hcells ts hts
    rw [Text.count_unlines, Table.lineEnds_plainLines htexts, List.length_map, hlength,
      List.map_cons, List.sum_cons, htitles, hnone]
    omega
  refine ⟨hends, fun haligned => ?_, fun hnone => ?_⟩
  · -- every line end in the text would be one too many
    have hcount := Text.count_of_aligned haligned
    exact List.count_eq_zero.mp (Nat.add_left_cancel (hends.symm.trans hcount))
  · refine ⟨texts.map (Table.plainLine widths), Table.lineLength widths, rfl,
      (List.length_map _).trans hlength, fun line hline => ?_⟩
    obtain ⟨ts, hts, rfl⟩ := List.mem_map.mp hline
    obtain ⟨hfits, hne⟩ := htexts ts hts
    refine ⟨List.count_eq_zero.mp ?_, (Table.lays_plainLine hfits hne).length_line⟩
    rw [Table.count_plainLine hfits hne]
    rcases List.mem_cons.mp hts with rfl | hts
    · exact htitles.trans (List.count_eq_zero.mpr hnone)
    · exact hcells ts hts

theorem aligned_plain_iff_other_blanks :
    let d : DisplayOptions := ⟨['1'], [], true, false⟩
    let text := "\t*( p\u2028and\rq)".toList
    let text' := "\t*( p\u2028and\r\nq)".toList
    ('\n' ∉ d.trueText ∧ '\n' ∉ d.falseText) ∧
    ∃ s s' t t' content content', parse {} text = .ok s ∧ parse {} text' = .ok s' ∧
      Table.build s ⟨[], some .rowByRow⟩ = .ok t ∧ Table.build s' ⟨[], some .rowByRow⟩ = .ok t' ∧
      t.plain? d = some content ∧ t'.plain? d = some content' ∧
      Text.Aligned (1 + t.rows.length) content ∧ ¬ Text.Aligned (1 + t'.rows.length) content' := by
  intro d text text'
  let group : Formula := .binary .and "and".toList (.var ['p'] ['p']) (.var ['q'] ['q'])
  have hparse : parse {} text = .ok ⟨text, group, [['p'], ['q']], [group]⟩ := by decide +kernel
  have hparse' : parse {} text' = .ok ⟨text', group, [['p'], ['q']], [group]⟩ := by decide +kernel
  have htexts : '\n' ∉ d.trueText ∧ '\n' ∉ d.falseText := by decide
  obtain ⟨t, content, hbuild, hplain, -, hiff⟩ :=
    aligned_plain_iff hparse (by decide) [] .rowByRow htexts.1 htexts.2
  obtain ⟨t', content', hbuild', hplain', -, hiff'⟩ :=
    aligned_plain_iff hparse' (by decide) [] .rowByRow htexts.1 htexts.2
  exact ⟨htexts, _, _, t, t', content, content', hparse, hparse', hbuild, hbuild', hplain, hplain',
    hiff.mpr (by decide), fun h => hiff'.mp h (by decide)⟩

/-- A statement that is written on two lines has a table of six lines, though four rows are
visible. -/
theorem not_aligned_of_line_end :
    let d : DisplayOptions := {}
    ('\n' ∉ d.trueText ∧ '\n' ∉ d.falseText) ∧
    ∃ s t content, parse {} "p\nand q".toList = .ok s ∧
      Table.build s ⟨[], some .rowByRow⟩ = .ok t ∧ t.plain? d = some content ∧
      content = Text.unlines (["| p     | q     | p", "and q |", "| true  | true  | true    |",
        "| true  | false | false   |", "| false | true  | false   |",
        "| false | false | false   |"].map String.toList) ∧
      (t.visibleRows d).length = 4 ∧ ¬ Text.Aligned (1 + (t.visibleRows d).length) content := by
  let s : Statement := ⟨"p\nand q".toList,
    .binary .and "and".toList (.var ['p'] ['p']) (.var ['q'] ['q']), [['p'], ['q']], []⟩
  have hparse : parse {} "p\nand q".toList = .ok s := by decide +kernel
  have hbuild : Table.build s ⟨[], some .rowByRow⟩ = .ok (Table.byMeaning s) :=
    build_of_compiled (.parse hparse) (by decide) [] .rowByRow
  refine ⟨by decide, s, Table.byMeaning s, _, hparse, hbuild, by decide +kernel, rfl, rfl,
    fun h => ?_⟩
  exact absurd (Text.count_of_aligned h) (by decide)

end Statement

end Sentential
