import Sentential.Proofs.Descent
import Sentential.Proofs.Munch
import Sentential.Report.Run

/-!
# Which limit a refusal names

The two limits may be equal, and then a refusal for depth does not say by its number which of them
is meant. A run has to know, since it shows a limit as it was asked for. It looks at the token
before the position: nesting is counted when a negation or an opening parenthesis has been read,
and the depth of a compound when its last operand has been, and no operand ends with either.
-/

namespace Sentential

/-- The token begins a negation or a group. -/
def Token.Begins (t : Token) : Prop :=
  t.kind = .negation ∨ t.kind = .openParen

namespace Derivation

theorem exists_last {phrase : Phrase} {ts : List Token} {f : Formula} (d : Derivation phrase ts f) :
    ∃ us t, ts = us ++ [t] ∧ ¬ t.Begins := by
  induction d with
  | operand d ih => exact ih
  | @compound tier op lexeme ts us f g h d e ihd ihe =>
      obtain ⟨vs, t, rfl, ht⟩ := ihe
      exact ⟨ts ++ ⟨.connective op, lexeme⟩ :: vs, t, by simp, ht⟩
  | literal lexeme | var lexeme => exact ⟨[], _, rfl, by simp [Token.Begins]⟩
  | @negation lexeme ts f d ih =>
      obtain ⟨us, t, rfl, ht⟩ := ih
      exact ⟨⟨.negation, lexeme⟩ :: us, t, rfl, ht⟩
  | @group left right ts f d ih =>
      exact ⟨⟨.openParen, left⟩ :: ts, ⟨.closeParen, right⟩, rfl, by simp [Token.Begins]⟩

end Derivation

namespace Parser

variable {o : ParseOptions} {tokens : List Token}

/-- A refusal for depth among the tokens: what stands before its position tells which limit has been
exceeded. -/
inductive Exceeds (o : ParseOptions) (tokens : List Token) : Nat → Nat → Prop where
  | nesting {t : Token} {position : Nat} (ht : tokens[position]? = some t) (hbegins : t.Begins) :
      Exceeds o tokens o.maxNesting (position + 1)
  | treeDepth {t : Token} {position : Nat} (ht : tokens[position]? = some t)
      (hbegins : ¬ t.Begins) : Exceeds o tokens o.maxTreeDepth (position + 1)

/-- The token before the place where the reading of a phrase ends begins nothing. -/
theorem last_of_read {phrase : Phrase} {s s' : ParseState} {f : Formula}
    (h : read o phrase s = .ok (f, s')) (hs : s.rest = tokens.drop s.position) :
    ∃ t position, tokens[position]? = some t ∧ ¬ t.Begins ∧ s'.position = position + 1 := by
  obtain ⟨ts, rest, d, hrest, -, -, rfl⟩ := read_eq_ok_iff.mp h
  obtain ⟨us, t, rfl, ht⟩ := d.exists_last
  refine ⟨t, s.position + us.length, ?_, ht, ?_⟩
  · rw [← List.getElem?_drop, ← hs, hrest]
    simp
  · simp [ParseState.after, Nat.add_assoc]

/-- Every refusal for depth names the limit that has been exceeded, whether of a phrase or of a
chain. -/
theorem exceeds_of_read (o : ParseOptions) (tokens : List Token) :
    (∀ phrase s, s.rest = tokens.drop s.position → ∀ limit position,
        read o phrase s = .error (.tooDeep limit position) → Exceeds o tokens limit position) ∧
      ∀ tier left s, s.rest = tokens.drop s.position → ∀ limit position,
        chain o tier left s = .error (.tooDeep limit position) →
          Exceeds o tokens limit position := by
  have hadvance : ∀ {s : ParseState}, s.rest = tokens.drop s.position →
      s.advance.rest = tokens.drop s.advance.position := by
    intro s hs
    show s.rest.tail = tokens.drop (s.position + 1)
    rw [hs, List.tail_drop]
  have hhead : ∀ {s : ParseState} {t : Token} {ts : List Token}, s.rest = tokens.drop s.position →
      s.rest = t :: ts → tokens[s.position]? = some t := by
    intro s t ts hs hrest
    rw [← List.head?_drop, ← hs, hrest]
    rfl
  apply descent (o := o)
  case expression =>
      intro tier s hop hch hs limit position h
      rw [read, expression_eq, operand_eq_read] at h
      split at h
      · next e he => exact hop hs limit position (he.trans h)
      · next f s₁ hf => exact hch f s₁ hf (rest_of_read hf hs) limit position h
  case chain =>
      intro tier left s ih hs limit position h
      rw [chain_eq] at h
      split at h
      · next op lexeme ts hrest =>
          obtain ⟨hop, hstep⟩ := ih op lexeme ts hrest
          split at h
          · rw [operand_eq_read] at h
            split at h
            · next e he => exact hop (hadvance hs) limit position (he.trans h)
            · next right s₁ hright =>
                split at h
                · obtain ⟨t, before, ht, hbegins, hposition⟩ := last_of_read hright (hadvance hs)
                  cases h
                  rw [hposition]
                  exact .treeDepth ht hbegins
                · exact hstep right s₁ hright (rest_of_read hright (hadvance hs)) limit position h
          · cases h
      · cases h
  case factor =>
      intro s ih hs limit position h
      rw [read, factor_eq] at h
      split at h
      · cases h
      · next t ts hrest =>
          have ih' := ih t ts hrest
          split at h
          · cases h
          · cases h
          · next hkind =>
              split at h
              · cases h
                exact .nesting (hhead hs hrest) (.inl hkind)
              · split at h
                · next e he => exact ih' .factor (hadvance hs) limit position (he.trans h)
                · cases h
          · next hkind =>
              split at h
              · cases h
                exact .nesting (hhead hs hrest) (.inr hkind)
              · split at h
                · next e he =>
                    exact ih' (.expression .loose) (hadvance hs) limit position (he.trans h)
                · split at h
                  · cases h
                  · split at h
                    · cases h
                    · cases h
          · cases h

end Parser

namespace Plan

variable {p : Plan} {text : Text}

/-- What a run takes for the limit of a refusal is the limit that has been exceeded. -/
theorem exceeded_of_parse {limit position : Nat}
    (h : Statement.parse p.options text = .error (.tooDeep limit position)) :
    limit = p.options.maxNesting ∧ p.exceeded text position = p.nestingShown ∨
      limit = p.options.maxTreeDepth ∧ p.exceeded text position = p.treeDepthShown := by
  rw [Statement.parse] at h
  rw [exceeded]
  cases hlex : Token.lex p.options.marker text with
  | error e =>
      rw [hlex] at h
      cases h
      obtain ⟨_, _, _, _, -, -, -, -, hword⟩ :=
        (Token.lexWords_eq_error_iff fun w hw => Token.opensLast_of_mem_wordsOf hw).mp hlex
      cases hword
  | ok tokens =>
      rw [hlex] at h
      simp only [Statement.ofTokens] at h
      split at h
      · next e he =>
          obtain rfl := Except.error.inj h
          cases (Parser.exceeds_of_read p.options tokens).1 (.expression .loose) (.start tokens) rfl
              limit position he with
          | nesting ht hbegins =>
              refine .inl ⟨rfl, ?_⟩
              simp only [Nat.add_sub_cancel, ht, Option.map_some]
              rcases hbegins with hkind | hkind
              · rw [hkind]
              · rw [hkind]
          | treeDepth ht hbegins =>
              refine .inr ⟨rfl, ?_⟩
              simp only [Nat.add_sub_cancel, ht, Option.map_some]
              split
              · next hkind => exact absurd (.inl (Option.some.inj hkind)) hbegins
              · next hkind => exact absurd (.inr (Option.some.inj hkind)) hbegins
              · rfl
      · split at h
        · cases h
        · cases h

/-- Where the limits were asked for as whole numbers, a run words every refusal as the refusal
words itself. -/
theorem refusal_eq_message (hnesting : p.nestingShown = Text.ofNat p.options.maxNesting)
    (htreeDepth : p.treeDepthShown = Text.ofNat p.options.maxTreeDepth) {e : CompileError}
    (h : Statement.parse p.options text = .error e) : p.refusal text e = e.message := by
  cases e with
  | tooDeep limit position =>
      have hshown : p.exceeded text position = Text.ofNat limit := by
        rcases exceeded_of_parse h with ⟨hlimit, hshown⟩ | ⟨hlimit, hshown⟩
        · rw [hshown, hnesting, hlimit]
        · rw [hshown, htreeDepth, hlimit]
      exact congrArg (CompileError.depthMessage · position) hshown
  | unknownToken | tokenMismatch | unexpectedEnd | misplacedToken => rfl

end Plan

end Sentential
