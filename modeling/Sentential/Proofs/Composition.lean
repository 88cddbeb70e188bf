import Mathlib.Control.Monad.Basic
import Sentential.Proofs.Spacing

/-!
# Texts inside of texts

A text that is put between parentheses keeps its tokens, because a parenthesis ends the word before
it and begins a new one behind it. The tokens of the parenthesized text derive its formula as a
factor, with one more group around everything, and that is all that the group changes: it needs
room for one more nesting, and it is recorded if it carries the marker.

So two texts can be put together with a connective between them, and what they mean by themselves is
what they mean there. Only the new compound has to be admitted. Both operands have been read when it
is built, and therefore a compound that is too deep is noticed at the end of the text.
-/

namespace Sentential

/-- A text between parentheses. -/
def Text.group (t : Text) : Text :=
  '(' :: t ++ [')']

theorem ParseOptions.succ_maxNesting_pos (o : ParseOptions) : 0 < o.maxNesting + 1 :=
  Nat.succ_pos _

/-- The same options with room for one more group or negation. -/
def ParseOptions.roomier (o : ParseOptions) : ParseOptions :=
  { o with maxNesting := o.maxNesting + 1, maxNesting_pos := o.succ_maxNesting_pos }

/-! ## The tokens -/

namespace Token

variable {marker : Option Char} {text t₁ t₂ : Text} {ts ts₁ ts₂ : List Token}

/-- The tokens of a group, where the lexeme of its opening parenthesis may have a marker. -/
def group (paren : Text) (ts : List Token) : List Token :=
  ⟨.openParen, paren⟩ :: (ts ++ [⟨.closeParen, [')']⟩])

theorem lex_group (h : lex marker text = .ok ts) :
    lex marker text.group = .ok (group ['('] ts) :=
  lex_openParen (lex_closeParen h)

theorem lex_marked_group {c : Char} (hc : isMarker c = true) (h : lex (some c) text = .ok ts) :
    lex (some c) (c :: text.group) = .ok (group [c, '('] ts) :=
  lex_of_wordsOf_eq_cons (wordsOf_marked hc (text ++ [')'])) (plain_marked hc) (lex_closeParen h)

theorem wholeKind?_connective (op : Connective) :
    ∀ w ∈ (Kind.connective op).spellings none [], wholeKind? none w = some (.connective op) := by
  cases op <;> decide

/-- However a connective is spelled, it can stand by itself. -/
theorem plain_connective {op : Connective} {w : Text}
    (hw : w ∈ (Kind.connective op).spellings marker w) : Plain marker ⟨.connective op, w⟩ := by
  rw [spellings_eq (by simp) (by simp)] at hw
  exact plain_of_firstKind (wholeKind?_eq_some_iff.mp (wholeKind?_connective op w hw)) (by simp) marker

theorem lex_compound {op : Connective} {w : Text}
    (hw : w ∈ (Kind.connective op).spellings marker w) (h₁ : lex marker t₁ = .ok ts₁)
    (h₂ : lex marker t₂ = .ok ts₂) :
    lex marker (t₁.group ++ ' ' :: w ++ ' ' :: t₂.group) =
      .ok (group ['('] ts₁ ++ ⟨.connective op, w⟩ :: group ['('] ts₂) := by
  rw [List.append_assoc]
  exact lex_append_blank (lex_group h₁)
    (lex_append_blank (lex_plain (plain_connective hw)) (lex_group h₂))

end Token

/-! ## Groups and compounds of groups -/

theorem recorded_marked (c : Char) (f : Formula) : recorded (some c) [c, '('] f = [f] := by
  simp [recorded]

namespace Derivation

variable {o : ParseOptions} {ts us : List Token} {f g : Formula}

theorem marks_plain_group {marker : Option Char} (hmarker : marker ≠ some '(')
    (d : Derivation (.expression .loose) ts f) :
    (@group ['('] [')'] ts f d).marks marker = d.marks marker := by
  rw [marks, recorded_paren hmarker, List.append_nil]

theorem fits_group_roomier {paren : Text} {d : Derivation (.expression .loose) ts f}
    (hfit : d.Fits o 0) : (@group paren [')'] ts f d).Fits o.roomier 0 :=
  ⟨Nat.succ_le_succ hfit.1, hfit.2⟩

/-- A factor is a phrase of any kind, and this changes nothing that a limit or a marker looks at. -/
theorem exists_fits_of_factor {d : Derivation .factor ts f} (hfit : d.Fits o 0) (phrase : Phrase) :
    ∃ e : Derivation phrase ts f, e.Fits o 0 ∧ e.marks o.marker = d.marks o.marker := by
  obtain ⟨e, hnesting, hmarks⟩ := d.exists_of_factor phrase
  exact ⟨e, ⟨by rw [hnesting]; exact hfit.1, hfit.2⟩, hmarks o.marker⟩

theorem exists_compound_of_factors (op : Connective) (lexeme : Text) {d : Derivation .factor ts f}
    {e : Derivation .factor us g} (hd : d.Fits o 0) (he : e.Fits o 0)
    (hdepth : (Formula.binary op lexeme f g).depth ≤ o.maxTreeDepth) :
    ∃ k : Derivation (.expression .loose) (ts ++ ⟨.connective op, lexeme⟩ :: us)
      (.binary op lexeme f g),
      k.Fits o 0 ∧ k.marks o.marker = d.marks o.marker ++ e.marks o.marker := by
  obtain ⟨left, hleft, hmarksl⟩ := exists_fits_of_factor hd (.expression op.tier)
  obtain ⟨right, hright, hmarksr⟩ := exists_fits_of_factor he op.tier.operand
  let inner := @compound op.tier op lexeme _ _ _ _ (Tier.mem_connectives.mpr rfl) left right
  have hfit : inner.Fits o 0 := fits_compound.mpr ⟨hleft, hright, hdepth⟩
  obtain ⟨k, hnesting, hmarks⟩ := inner.exists_of_expression
  refine ⟨k, ⟨by rw [hnesting]; exact hfit.1, hfit.2⟩, ?_⟩
  rw [hmarks, ← hmarksl, ← hmarksr]
  rfl

end Derivation

/-! ## A compound that is too deep

The descent looks at the depth of a compound when it has read the right operand. Tiers that are
looser than that of the connective pass the refusal on. -/

namespace Parser

variable {o : ParseOptions} {s s₁ : ParseState} {ts us : List Token} {op : Connective}
  {lexeme : Text} {left right : Formula}

theorem chain_tooDeep (hs : s.rest = ⟨.connective op, lexeme⟩ :: ts)
    (hright : read o op.tier.operand s.advance = .ok (right, s₁))
    (hdepth : o.maxTreeDepth < (Formula.binary op lexeme left right).depth) :
    chain o op.tier left s = .error (.tooDeep o.maxTreeDepth s₁.position) := by
  rw [chain_eq, hs]
  simp only [if_true]
  rw [operand_eq_read, hright]
  exact if_pos hdepth

theorem expression_loose_of_error {tier : Tier} {e : CompileError}
    (h : expression o tier s = .error e) : expression o .loose s = .error e := by
  cases tier with
  | loose => exact h
  | middle => rw [expression_eq, operand_eq, h]
  | tight => rw [expression_eq, operand_eq, expression_eq, operand_eq, h]

theorem expression_tooDeep {d : Derivation (.expression op.tier) ts left}
    {e : Derivation op.tier.operand us right} (hd : d.Fits o 0) (he : e.Fits o 0)
    (hdepth : o.maxTreeDepth < (Formula.binary op lexeme left right).depth) :
    expression o .loose (.start (ts ++ ⟨.connective op, lexeme⟩ :: us)) =
      .error (.tooDeep o.maxTreeDepth (ts ++ ⟨.connective op, lexeme⟩ :: us).length) := by
  let all := ts ++ ⟨.connective op, lexeme⟩ :: us
  let atOp := (ParseState.start all).after ts (⟨.connective op, lexeme⟩ :: us) (d.marks o.marker)
  have hleft : expression o op.tier (.start all) = chain o op.tier left atOp :=
    arrives d (.start all) _ rfl hd looseFrom_connective
  have hadvance : atOp.advance.rest = us ++ [] := (List.append_nil us).symm
  have hright : read o op.tier.operand atOp.advance =
      .ok (right, atOp.advance.after us [] (e.marks o.marker)) :=
    read_of_arrives (arrives e atOp.advance [] hadvance he) (looseFrom_nil _)
  have hposition : (atOp.advance.after us [] (e.marks o.marker)).position = all.length := by
    simp only [all, atOp, ParseState.after, ParseState.advance, ParseState.start,
      List.length_append, List.length_cons]
    omega
  refine @expression_loose_of_error o (.start all) op.tier _ ?_
  rw [hleft, chain_tooDeep rfl hright hdepth, hposition]

end Parser

/-! ## Statements put together -/

namespace Statement

variable {o : ParseOptions} {text t₁ t₂ : Text} {s s₁ s₂ : Statement}

theorem parse_of_factor {ts : List Token} {f : Formula} (hlex : Token.lex o.marker text = .ok ts)
    {d : Derivation .factor ts f} (hfit : d.Fits o 0) :
    parse o text =
      .ok ⟨text, f, Text.sortedSet (ts.foldl ParseState.learn []), d.marks o.marker⟩ := by
  obtain ⟨e, he, hmarks⟩ := Derivation.exists_fits_of_factor hfit (.expression .loose)
  exact parse_eq_ok_iff.mpr ⟨ts, hlex, f, e, he, by rw [hmarks]⟩

/-- Parentheses and connectives add no variables. -/
theorem sortedSet_learn_group (paren : Text) (ts : List Token) :
    Text.sortedSet ((Token.group paren ts).foldl ParseState.learn []) =
      Text.sortedSet (ts.foldl ParseState.learn []) :=
  Text.sortedSet_congr fun x => by
    rw [ParseState.mem_foldl_learn, ParseState.mem_foldl_learn]
    simp [Token.group]

theorem sortedSet_learn_compound (op : Connective) (w : Text) (ts us : List Token) :
    Text.sortedSet ((Token.group ['('] ts ++
        ⟨.connective op, w⟩ :: Token.group ['('] us).foldl ParseState.learn []) =
      Text.sortedSet (Text.sortedSet (ts.foldl ParseState.learn []) ++
        Text.sortedSet (us.foldl ParseState.learn [])) :=
  Text.sortedSet_congr fun x => by
    rw [List.mem_append, Text.mem_sortedSet, Text.mem_sortedSet, ParseState.mem_foldl_learn,
      ParseState.mem_foldl_learn, ParseState.mem_foldl_learn]
    simp [Token.group]

theorem parse_group {paren : Text} {ts : List Token} {f : Formula}
    (hlex : Token.lex o.marker text = .ok (Token.group paren ts))
    {d : Derivation (.expression .loose) ts f} (hfit : d.Fits o 0) :
    parse o.roomier text = .ok ⟨text, f, Text.sortedSet (ts.foldl ParseState.learn []),
      d.marks o.marker ++ recorded o.marker paren f⟩ := by
  have hgroup := @Derivation.fits_group_roomier o ts f paren d hfit
  rw [@parse_of_factor o.roomier text _ f hlex _ hgroup, sortedSet_learn_group]
  rfl

theorem parse_compound {op : Connective} {w : Text}
    (hw : w ∈ (Kind.connective op).spellings o.marker w) (h₁ : parse o t₁ = .ok s₁)
    (h₂ : parse o t₂ = .ok s₂) (text : Text)
    (htext : text = t₁.group ++ ' ' :: w ++ ' ' :: t₂.group) :
    (1 + max s₁.root.depth s₂.root.depth ≤ o.maxTreeDepth →
      parse o.roomier text = .ok ⟨text, .binary op w s₁.root s₂.root,
        Text.sortedSet (s₁.atoms ++ s₂.atoms), s₁.subExpressions ++ s₂.subExpressions⟩) ∧
    (o.maxTreeDepth < 1 + max s₁.root.depth s₂.root.depth →
      ∃ ts, Token.lex o.marker text = .ok ts ∧
        parse o.roomier text = .error (.tooDeep o.maxTreeDepth ts.length)) := by
  obtain ⟨ts, hts, f, d, hd, rfl⟩ := parse_eq_ok_iff.mp h₁
  obtain ⟨us, hus, g, e, he, rfl⟩ := parse_eq_ok_iff.mp h₂
  have hlex : Token.lex o.marker text =
      .ok (Token.group ['('] ts ++ ⟨.connective op, w⟩ :: Token.group ['('] us) :=
    htext ▸ Token.lex_compound hw hts hus
  let left := @Derivation.group ['('] [')'] ts f d
  let right := @Derivation.group ['('] [')'] us g e
  have hleft : left.Fits o.roomier 0 := Derivation.fits_group_roomier hd
  have hright : right.Fits o.roomier 0 := Derivation.fits_group_roomier he
  have hdepth : (Formula.binary op w f g).depth = 1 + max f.depth g.depth := Nat.add_comm _ _
  constructor
  · intro hle
    obtain ⟨k, hk, hmarks⟩ :=
      Derivation.exists_compound_of_factors op w hleft hright (hdepth.trans_le hle)
    have hsubs : k.marks o.marker = d.marks o.marker ++ e.marks o.marker := by
      refine hmarks.trans ?_
      rw [← d.marks_plain_group (marker_ne_openParen o), ← e.marks_plain_group (marker_ne_openParen o)]
      rfl
    refine parse_eq_ok_iff.mpr ⟨_, hlex, _, k, hk, ?_⟩
    rw [sortedSet_learn_compound, ← hsubs]
    rfl
  · intro hlt
    refine ⟨_, hlex, ?_⟩
    rw [@parse_of_lex o.roomier text _ hlex, ofTokens]
    obtain ⟨left', hleft', -⟩ := Derivation.exists_fits_of_factor hleft (.expression op.tier)
    obtain ⟨right', hright', -⟩ := Derivation.exists_fits_of_factor hright op.tier.operand
    have hread : Parser.expression o.roomier .loose (.start _) = _ :=
      Parser.expression_tooDeep hleft' hright' (hdepth ▸ hlt)
    rw [Token.group, Token.group, hread]
    rfl

/-- What two texts mean they mean in a larger text, too. Between parentheses they are the operands
of any connective, with the sub-expressions and the variables that they have, unless the compound is
too deep. A text between parentheses is the statement that it is without them, and a marker before
them records its root. -/
theorem parse_compose (h₁ : parse o t₁ = .ok s₁) (h₂ : parse o t₂ = .ok s₂) :
    (∀ op w, w ∈ (Kind.connective op).spellings o.marker w →
      let text := '(' :: t₁ ++ ") ".toList ++ w ++ " (".toList ++ t₂ ++ [')']
      (1 + max s₁.root.depth s₂.root.depth ≤ o.maxTreeDepth →
        parse o.roomier text = .ok ⟨text, .binary op w s₁.root s₂.root,
          Text.sortedSet (s₁.atoms ++ s₂.atoms), s₁.subExpressions ++ s₂.subExpressions⟩) ∧
      (o.maxTreeDepth < 1 + max s₁.root.depth s₂.root.depth →
        ∃ ts, Token.lex o.marker text = .ok ts ∧
          parse o.roomier text = .error (.tooDeep o.maxTreeDepth ts.length))) ∧
    parse o.roomier t₁.group = .ok ⟨t₁.group, s₁.root, s₁.atoms, s₁.subExpressions⟩ ∧
    ∀ c, o.marker = some c → parse o.roomier (c :: t₁.group) =
      .ok ⟨c :: t₁.group, s₁.root, s₁.atoms, s₁.subExpressions ++ [s₁.root]⟩ := by
  refine ⟨fun op w hw => parse_compound hw h₁ h₂ _ (by simp [Text.group]), ?_, ?_⟩
  all_goals obtain ⟨ts, hlex, f, d, hfit, rfl⟩ := parse_eq_ok_iff.mp h₁
  · rw [parse_group (Token.lex_group hlex) hfit, recorded_paren (marker_ne_openParen o),
      List.append_nil]
  · intro c hc
    have hmarked := Token.lex_marked_group (ParseOptions.isMarker_of_marker hc) (hc ▸ hlex)
    rw [parse_group (hc ▸ hmarked) hfit, hc, recorded_marked]

theorem parse_compose_word_marker :
    let o : ParseOptions := { marker := some 'v', maxNesting := 1, maxTreeDepth := 2 }
    let p : Formula := .binary .and ['&'] (.var ['p'] ['p']) (.var ['q'] ['q'])
    let s : Statement := ⟨"p&v(q)".toList, p, [['p'], ['q']], [.var ['q'] ['q']]⟩
    let u : Statement := ⟨"2".toList, .var ['2'] ['2'], [['2']], []⟩
    parse o s.text = .ok s ∧ parse o u.text = .ok u ∧
      (∃ ts, Token.lex (some 'v') "(p&v(q)) \\implies (2)".toList = .ok ts ∧
        parse o.roomier "(p&v(q)) \\implies (2)".toList = .error (.tooDeep 2 ts.length)) ∧
      parse o.roomier "(2) || (2)".toList = .ok ⟨"(2) || (2)".toList,
        .binary .or ['|', '|'] u.root u.root, [['2']], []⟩ ∧
      parse o.roomier "v(p&v(q))".toList =
        .ok ⟨"v(p&v(q))".toList, p, [['p'], ['q']], [.var ['q'] ['q'], p]⟩ := by
  intro o p s u
  have hs : parse o s.text = .ok s := by decide +kernel
  have hu : parse o u.text = .ok u := by decide +kernel
  obtain ⟨hcompound, -, hmarked⟩ := parse_compose hs hu
  obtain ⟨hdoubled, -, -⟩ := parse_compose hu hu
  exact ⟨hs, hu, (hcompound .implies "\\implies".toList (by decide)).2 (by decide),
    (hdoubled .or "||".toList (by decide)).1 (by decide), hmarked 'v' rfl⟩

end Statement

end Sentential
