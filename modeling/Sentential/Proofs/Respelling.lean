import Mathlib.Data.List.Forall2
import Sentential.Proofs.Equivalence
import Sentential.Proofs.Parentheses

/-!
# Other spellings of the same

The descent asks a token for its kind. It copies the lexemes into the formula, but nothing it does
depends on them, apart from the names of variables and the marks on parentheses. So two lists of
tokens that agree in kinds and names are read side by side: at every call the states agree in all
that the descent looks at, and what comes out agrees again, be it two formulas of the same shape or
two refusals with the same reason at the same place.

Evaluation knows still less of spellings: of a literal it sees the truth value, of a variable the
name, of everything else the kind. Formulas of the same shape mean the same, and since the variables
are the same as well, so are the values in all rows. Marks only decide which formulas are recorded,
so they have a say in the tables and in nothing else.
-/

namespace Sentential

/-! ## What a spelling leaves open -/

/-- The tokens are of one kind; they are the same variable or literals of the same value, if they
are variables or literals at all. -/
def Token.Alike (t u : Token) : Prop :=
  t.kind = u.kind ∧ (t.kind = .var → t.lexeme = u.lexeme) ∧
    (t.kind = .literal → Formula.literalValue t.lexeme = Formula.literalValue u.lexeme)

instance (t u : Token) : Decidable (t.Alike u) :=
  inferInstanceAs (Decidable (_ ∧ _))

/-- The formulas have the same shape: the same kinds of parts in the same places, with the same
variables and literals of the same values. -/
inductive Formula.Alike : Formula → Formula → Prop where
  | literal {a b : Text} (h : literalValue a = literalValue b) : Alike (.literal a) (.literal b)
  | var (lexeme name : Text) : Alike (.var lexeme name) (.var lexeme name)
  | not {a b : Text} {f g : Formula} (h : Alike f g) : Alike (.not a f) (.not b g)
  | binary {op : Connective} {a b : Text} {f g h k : Formula} (hleft : Alike f h)
      (hright : Alike g k) : Alike (.binary op a f g) (.binary op b h k)

/-- The refusals have the same reason at the same place, if a token is at fault with tokens that
are alike. -/
inductive CompileError.Alike : CompileError → CompileError → Prop where
  | tokenMismatch {expected : Kind} {t u : Token} {position : Nat} (h : t.Alike u) :
      Alike (.tokenMismatch expected t position) (.tokenMismatch expected u position)
  | unexpectedEnd (position : Nat) : Alike (.unexpectedEnd position) (.unexpectedEnd position)
  | misplacedToken {t u : Token} {position : Nat} (h : t.Alike u) :
      Alike (.misplacedToken t position) (.misplacedToken u position)
  | tooDeep (limit position : Nat) : Alike (.tooDeep limit position) (.tooDeep limit position)

namespace Formula

theorem Alike.depth_eq {f g : Formula} (h : f.Alike g) : f.depth = g.depth := by
  induction h with
  | literal h => rfl
  | var lexeme name => rfl
  | not h ih => rw [depth, depth, ih]
  | binary hleft hright ihl ihr => rw [depth, depth, ihl, ihr]

theorem Alike.meaning_eq {f g : Formula} (h : f.Alike g) (v : Text → Bool) :
    f.meaning v = g.meaning v := by
  induction h with
  | literal h => exact h
  | var lexeme name => rfl
  | not h ih => rw [meaning, meaning, ih]
  | binary hleft hright ihl ihr => rw [meaning, meaning, ihl, ihr]

theorem Alike.names_eq {f g : Formula} (h : f.Alike g) : f.names = g.names := by
  induction h with
  | literal h => rfl
  | var lexeme name => rfl
  | not h ih => exact ih
  | binary hleft hright ihl ihr => rw [names, names, ihl, ihr]

/-- Formulas of the same shape have the same value, or the same variable fails. -/
theorem Alike.eval_eq {f g : Formula} (h : f.Alike g) (a : Assignment) : f.eval a = g.eval a := by
  rw [Formula.eval_eq, Formula.eval_eq, h.names_eq, h.meaning_eq]

theorem map_meaning_eq {fs gs : List Formula} (h : List.Forall₂ Alike fs gs) (v : Text → Bool) :
    fs.map (meaning v) = gs.map (meaning v) := by
  induction h with
  | nil => rfl
  | cons hf h ih => rw [List.map_cons, List.map_cons, hf.meaning_eq, ih]

end Formula

/-! ## States that look alike

Whether the parentheses of two texts carry their marks in the same places is a question that may
stay open while they are read. `marking` stands for the answer: if it is yes, the recorded formulas
are alike too. -/

/-- Everything that the descent looks at is alike in the states, and under `marking` the marks and
what they have recorded. -/
structure ParseState.Alike (marker : Option Char) (marking : Prop) (s t : ParseState) : Prop where
  rest : List.Forall₂ Token.Alike s.rest t.rest
  marks : marking →
    List.Forall₂ (fun a b : Token => a.Marked marker ↔ b.Marked marker) s.rest t.rest
  position : s.position = t.position
  nesting : s.nesting = t.nesting
  names : s.names = t.names
  marked : marking → List.Forall₂ Formula.Alike s.marked t.marked

namespace ParseState

variable {marker : Option Char} {marking : Prop} {s t : ParseState}

theorem forall₂_tail {α : Type} {R : α → α → Prop} {as bs : List α} (h : List.Forall₂ R as bs) :
    List.Forall₂ R as.tail bs.tail := by
  simpa using List.forall₂_drop 1 h

theorem Alike.advance (h : s.Alike marker marking t) : s.advance.Alike marker marking t.advance :=
  ⟨forall₂_tail h.rest, fun hm => forall₂_tail (h.marks hm), congrArg (· + 1) h.position,
    h.nesting, h.names, h.marked⟩

theorem Alike.enter (h : s.Alike marker marking t) : s.enter.Alike marker marking t.enter :=
  ⟨h.rest, h.marks, h.position, congrArg (· + 1) h.nesting, h.names, h.marked⟩

theorem Alike.leave (h : s.Alike marker marking t) : s.leave.Alike marker marking t.leave :=
  ⟨h.rest, h.marks, h.position, congrArg (· - 1) h.nesting, h.names, h.marked⟩

theorem Alike.meet (h : s.Alike marker marking t) (name : Text) :
    (s.meet name).Alike marker marking (t.meet name) := by
  unfold ParseState.meet
  rw [h.names]
  split
  · exact h
  · exact ⟨h.rest, h.marks, h.position, h.nesting, rfl, h.marked⟩

theorem mark_eq (s : ParseState) (marker : Option Char) (paren : Text) (f : Formula) :
    s.mark marker paren f = { s with marked := s.marked ++ recorded marker paren f } := by
  unfold mark recorded
  split <;> simp

theorem Alike.mark (h : s.Alike marker marking t) {a b : Text} {f g : Formula} (hf : f.Alike g)
    (hab : marking →
      (Token.Marked marker ⟨.openParen, a⟩ ↔ Token.Marked marker ⟨.openParen, b⟩)) :
    (s.mark marker a f).Alike marker marking (t.mark marker b g) := by
  rw [mark_eq, mark_eq, Token.recorded_eq, Token.recorded_eq]
  refine ⟨h.rest, h.marks, h.position, h.nesting, h.names, fun hm => ?_⟩
  refine List.rel_append (h.marked hm) ?_
  simp only [hab hm]
  split
  · exact .cons hf .nil
  · exact .nil

theorem Alike.rest_cases (h : s.Alike marker marking t) :
    (s.rest = [] ∧ t.rest = []) ∨
      ∃ kind a b ts us, s.rest = ⟨kind, a⟩ :: ts ∧ t.rest = ⟨kind, b⟩ :: us ∧
        Token.Alike ⟨kind, a⟩ ⟨kind, b⟩ ∧
        (marking → (Token.Marked marker ⟨kind, a⟩ ↔ Token.Marked marker ⟨kind, b⟩)) := by
  obtain ⟨hrest, hmarks⟩ := And.intro h.rest h.marks
  generalize s.rest = ts, t.rest = us at hrest hmarks
  cases hrest with
  | nil => exact .inl ⟨rfl, rfl⟩
  | @cons a b ts us hab htail =>
      obtain ⟨kind, a⟩ := a
      obtain ⟨kind', b⟩ := b
      obtain rfl : kind = kind' := hab.1
      exact .inr ⟨kind, a, b, ts, us, rfl, rfl, hab,
        fun hm => (List.forall₂_cons.mp (hmarks hm)).1⟩

end ParseState

/-! ## Reading side by side -/

namespace Parser

variable {o : ParseOptions} {marking : Prop}

/-- What two readings answer is alike: two refusals, or two formulas with the states behind
them. -/
inductive Agree (marker : Option Char) (marking : Prop) :
    Except CompileError (Formula × ParseState) → Except CompileError (Formula × ParseState) →
      Prop where
  | refused {e e' : CompileError} (h : e.Alike e') : Agree marker marking (.error e) (.error e')
  | accepted {f g : Formula} {s t : ParseState} (hf : f.Alike g) (hs : s.Alike marker marking t) :
      Agree marker marking (.ok (f, s)) (.ok (g, t))

/-- States that look alike are read alike, as phrases and as the chains of expressions that are
alike. -/
theorem agree (o : ParseOptions) (marking : Prop) :
    (∀ phrase s, ∀ t, s.Alike o.marker marking t →
      Agree o.marker marking (read o phrase s) (read o phrase t)) ∧
    ∀ tier left s, ∀ left' t, left.Alike left' → s.Alike o.marker marking t →
      Agree o.marker marking (chain o tier left s) (chain o tier left' t) := by
  apply descent
  case expression =>
      intro tier s hop hch t h
      rw [read, expression_eq, expression_eq, operand_eq_read, operand_eq_read]
      have hagree := hop t h
      generalize hs : read o tier.operand s = r, read o tier.operand t = r' at hagree
      cases hagree with
      | refused he => exact .refused he
      | accepted hf hs₁ => exact hch _ _ hs _ _ hf hs₁
  case chain =>
      intro tier left s ih left' t hleft h
      rw [chain_eq o tier left s, chain_eq o tier left' t]
      rcases h.rest_cases with ⟨hs, ht⟩ | ⟨kind, a, b, ts, us, hs, ht, -, -⟩
      · rw [hs, ht]
        exact .accepted hleft h
      · rw [hs, ht]
        cases kind with
        | connective op =>
            dsimp only
            split
            · rw [operand_eq_read, operand_eq_read]
              obtain ⟨hop, hstep⟩ := ih op a ts hs
              have hagree := hop t.advance h.advance
              generalize hr : read o tier.operand s.advance = r,
                read o tier.operand t.advance = r' at hagree
              cases hagree with
              | refused he => exact .refused he
              | @accepted f g s₁ t₁ hf hs₁ =>
                  have hcompound : (Formula.binary op a left f).Alike (.binary op b left' g) :=
                    .binary hleft hf
                  -- alike compounds are equally deep: the limit refuses both or neither
                  dsimp only
                  rw [hcompound.depth_eq, hs₁.position]
                  split
                  · exact .refused (.tooDeep _ _)
                  · exact hstep f s₁ hr _ _ hcompound hs₁
            · exact .accepted hleft h
        | negation | openParen | closeParen | literal | var => exact .accepted hleft h
  case factor =>
      intro s ih t h
      rw [read, factor_eq o s, factor_eq o t, h.position, h.nesting]
      rcases h.rest_cases with ⟨hs, ht⟩ | ⟨kind, a, b, ts, us, hs, ht, hab, hmarks⟩
      · rw [hs, ht]
        exact .refused (.unexpectedEnd _)
      · have ih' := fun phrase => ih ⟨kind, a⟩ ts hs phrase t.advance.enter h.advance.enter
        rw [hs, ht]
        cases kind with
        | literal => exact .accepted (.literal (hab.2.2 rfl)) h.advance
        | var =>
            obtain rfl : a = b := hab.2.1 rfl
            exact .accepted (.var a a) (h.advance.meet a)
        | negation =>
            dsimp only
            split
            · exact .refused (.tooDeep _ _)
            · have hagree := ih' .factor
              rw [read] at hagree
              generalize factor o s.advance.enter = r, factor o t.advance.enter = r' at hagree
              cases hagree with
              | refused he => exact .refused he
              | accepted hf hs₁ => exact .accepted (.not hf) hs₁.leave
        | openParen =>
            dsimp only
            split
            · exact .refused (.tooDeep _ _)
            · have hagree := ih' (.expression .loose)
              rw [read] at hagree
              generalize expression o .loose s.advance.enter = r,
                expression o .loose t.advance.enter = r' at hagree
              cases hagree with
              | refused he => exact .refused he
              | @accepted f g s₁ t₁ hf hs₁ =>
                  -- what follows the content closes both groups or neither
                  dsimp only
                  rw [hs₁.position]
                  rcases hs₁.rest_cases with ⟨hs', ht'⟩ | ⟨kind', c, d, ts', us', hs', ht', hcd, -⟩
                  · rw [hs', ht']
                    exact .refused (.unexpectedEnd _)
                  · rw [hs', ht']
                    dsimp only
                    split
                    · exact .accepted hf (hs₁.advance.leave.mark hf hmarks)
                    · exact .refused (.tokenMismatch hcd)
        | connective op | closeParen => exact .refused (.misplacedToken hab)

end Parser

/-! ## Statements and tables -/

theorem Table.values_byMeaning (s : Statement) :
    (Table.byMeaning s).values = (Table.allRows s.atoms.length).map fun row =>
      s.root.meaning (Column.truth s.atoms row) := by
  rw [values, byMeaning, List.map_map]
  rfl

namespace Statement

variable {o : ParseOptions} {text text' : Text} {ts us : List Token}

/-- Tokens that are alike are refused alike, or they are statements of one shape over the same
variables; and if the same parentheses are marked, the same formulas are recorded. -/
theorem ofTokens_alike (o : ParseOptions) (text text' : Text)
    (h : List.Forall₂ Token.Alike ts us) :
    (∃ e e', ofTokens o text ts = .error e ∧ ofTokens o text' us = .error e' ∧ e.Alike e') ∨
      ∃ s s', ofTokens o text ts = .ok s ∧ ofTokens o text' us = .ok s' ∧ s.root.Alike s'.root ∧
        s.atoms = s'.atoms ∧
        (List.Forall₂ (fun t u : Token => t.Marked o.marker ↔ u.Marked o.marker) ts us →
          List.Forall₂ Formula.Alike s.subExpressions s'.subExpressions) := by
  let marking := List.Forall₂ (fun t u : Token => t.Marked o.marker ↔ u.Marked o.marker) ts us
  have hstart : (ParseState.start ts).Alike o.marker marking (.start us) :=
    ⟨h, id, rfl, rfl, rfl, fun _ => .nil⟩
  have hagree := (Parser.agree o marking).1 (.expression .loose) _ _ hstart
  rw [Parser.read] at hagree
  rw [ofTokens, ofTokens]
  generalize Parser.expression o .loose (.start ts) = r,
    Parser.expression o .loose (.start us) = r' at hagree
  cases hagree with
  | refused he => exact .inl ⟨_, _, rfl, rfl, he⟩
  | @accepted f g s t hf hs =>
      dsimp only
      rw [hs.names, hs.position]
      rcases hs.rest_cases with ⟨hrest, hrest'⟩ | ⟨kind, a, b, _, _, hrest, hrest', hab, -⟩
      · rw [hrest, hrest']
        exact .inr ⟨_, _, rfl, rfl, hf, rfl, hs.marked⟩
      · rw [hrest, hrest']
        exact .inl ⟨_, _, rfl, rfl, .misplacedToken hab⟩

theorem meaning_eq_of_alike {s s' : Statement} (hroot : s.root.Alike s'.root)
    (hmarked : List.Forall₂ Formula.Alike s.subExpressions s'.subExpressions) (v : Text → Bool) :
    s.meaning v = s'.meaning v := by
  rw [meaning, meaning, hroot.meaning_eq, Formula.map_meaning_eq hmarked]

theorem atoms_eq_of_alike {o' : ParseOptions} {text' : Text} {s' : Statement}
    (h : parse o text = .ok s) (h' : parse o' text' = .ok s') (hroot : s.root.Alike s'.root) :
    s.atoms = s'.atoms :=
  (ascending_atoms (.parse h)).eq_of_mem_iff (ascending_atoms (.parse h')) fun x => by
    rw [mem_atoms_of_parse h, mem_atoms_of_parse h', hroot.names_eq]

/-- Two texts with tokens that are alike are both refused, for the same reason at the same token, or
are both statements: of the same shape, over the same variables, and with the same values in all
rows of their tables, whichever backends compute them. If the same parentheses carry the marker, the
tables are the same. -/
theorem parse_respelled (hlex : Token.lex o.marker text = .ok ts)
    (hlex' : Token.lex o.marker text' = .ok us) (h : List.Forall₂ Token.Alike ts us) :
    (∃ e e', parse o text = .error e ∧ parse o text' = .error e' ∧ e.Alike e') ∨
      ∃ s s', parse o text = .ok s ∧ parse o text' = .ok s' ∧ s.root.Alike s'.root ∧
        s.atoms = s'.atoms ∧
        (s.atoms.length ≤ Table.maxVariables → ∀ name name' b b', ∃ t t',
          Table.build s ⟨name, some b⟩ = .ok t ∧ Table.build s' ⟨name', some b'⟩ = .ok t' ∧
          t.values = t'.values ∧
          (List.Forall₂ (fun t u : Token => t.Marked o.marker ↔ u.Marked o.marker) ts us →
            t.same t' = true)) := by
  rcases ofTokens_alike o text text' h with hrefused | ⟨s, s', hs, hs', hroot, hatoms, hmarked⟩
  · rw [parse_of_lex hlex, parse_of_lex hlex']
    exact .inl hrefused
  · rw [← parse_of_lex hlex] at hs
    rw [← parse_of_lex hlex'] at hs'
    have hused := fun x => mem_atoms_of_used (x := x) (.parse hs)
    have hused' := fun x => mem_atoms_of_used (x := x) (.parse hs')
    refine .inr ⟨s, s', hs, hs', hroot, hatoms, fun hcount name name' b b' => ⟨_, _,
      Table.build_of_declared hcount hused name b,
      Table.build_of_declared (hatoms ▸ hcount) hused' name' b', ?_, fun hmarking => ?_⟩⟩
    · rw [Table.values_byMeaning, Table.values_byMeaning, ← hatoms]
      exact List.map_congr_left fun row _ => hroot.meaning_eq _
    · exact (Table.same_byMeaning_iff hatoms hused hused').mpr
        (meaning_eq_of_alike hroot (hmarked hmarking))

theorem parse_respelled_words_and_signs :
    ∃ ts us, Token.lex (some '*') "*(p and true) iff \\lnot q".toList = .ok ts ∧
      Token.lex (some '*') "*(p∧1)<->~q".toList = .ok us ∧ List.Forall₂ Token.Alike ts us ∧
      List.Forall₂ (fun t u : Token => t.Marked (some '*') ↔ u.Marked (some '*')) ts us ∧
      ∃ s s' t t', parse {} "*(p and true) iff \\lnot q".toList = .ok s ∧
        parse {} "*(p∧1)<->~q".toList = .ok s' ∧ s.root.Alike s'.root ∧
        Table.build s ⟨[], some .rowByRow⟩ = .ok t ∧
        Table.build s' ⟨[], some .columnByColumn⟩ = .ok t' ∧ t.same t' = true := by
  let ts : List Token := [⟨.openParen, "*(".toList⟩, ⟨.var, ['p']⟩, ⟨.connective .and, "and".toList⟩,
    ⟨.literal, "true".toList⟩, ⟨.closeParen, [')']⟩, ⟨.connective .iff, "iff".toList⟩,
    ⟨.negation, "\\lnot".toList⟩, ⟨.var, ['q']⟩]
  let us : List Token := [⟨.openParen, "*(".toList⟩, ⟨.var, ['p']⟩, ⟨.connective .and, ['∧']⟩,
    ⟨.literal, ['1']⟩, ⟨.closeParen, [')']⟩, ⟨.connective .iff, "<->".toList⟩,
    ⟨.negation, ['~']⟩, ⟨.var, ['q']⟩]
  let group : Formula := .binary .and "and".toList (.var ['p'] ['p']) (.literal "true".toList)
  let s : Statement := ⟨"*(p and true) iff \\lnot q".toList,
    .binary .iff "iff".toList group (.not "\\lnot".toList (.var ['q'] ['q'])),
    [['p'], ['q']], [group]⟩
  have hlex : Token.lex (some '*') "*(p and true) iff \\lnot q".toList = .ok ts := by
    decide +kernel
  have hlex' : Token.lex (some '*') "*(p∧1)<->~q".toList = .ok us := by decide +kernel
  have halike : List.Forall₂ Token.Alike ts us := by decide
  have hmarks : List.Forall₂ (fun t u : Token => t.Marked (some '*') ↔ u.Marked (some '*'))
      ts us := by decide
  have hparse : parse {} "*(p and true) iff \\lnot q".toList = .ok s := by decide +kernel
  rcases @parse_respelled {} _ _ _ _ hlex hlex' halike with
    ⟨e, -, he, -⟩ | ⟨s₁, s', hs, hs', hroot, -, htables⟩
  · rw [hparse] at he
    cases he
  · obtain rfl : s = s₁ := Except.ok.inj (hparse.symm.trans hs)
    obtain ⟨t, t', ht, ht', -, hsame⟩ := htables (by decide) [] [] .rowByRow .columnByColumn
    exact ⟨ts, us, hlex, hlex', halike, hmarks, s, s', t, t', hs, hs', hroot, ht, ht',
      hsame hmarks⟩

end Statement

end Sentential
