import Sentential.Formula.Parser

/-!
# The grammar of expressions

What a list of tokens may say, written down without a reader. There are three tiers of expressions
and below them the factors. An expression of a tier is an operand of that tier, or a shorter
expression of the same tier, one of the tier's connectives, and an operand; an operand is a phrase
of the next tighter kind. That left recursion is all there is to say about grouping, and the
stratification is all there is to say about binding strength.

A derivation is a value, not only a fact, because two things about it leave no trace in the formula:
how deep negations and groups lie in each other, and which groups carry the marker. Both are
functions on it. The formula alone carries the third thing a limit speaks of, the depth of its
compounds.
-/

namespace Sentential

/-- What the grammar derives: an expression of some tier, or a factor. -/
inductive Phrase where
  | expression (tier : Tier)
  | factor
  deriving DecidableEq, Repr

namespace Tier

/-- The connectives of a tier. -/
def connectives : Tier → List Connective
  | loose => [.iff]
  | middle => [.implies]
  | tight => [.and, .or, .xor, .nand]

/-- What stands on the right of a connective of a tier. -/
def operand : Tier → Phrase
  | loose => .expression .middle
  | middle => .expression .tight
  | tight => .factor

theorem mem_connectives {tier : Tier} {op : Connective} :
    op ∈ tier.connectives ↔ op.tier = tier := by
  cases tier <;> cases op <;> decide

end Tier

/-- How loosely a phrase binds: its operators are of lower rank. A factor has none. -/
def Phrase.rank : Phrase → Nat
  | expression tier => tier.rank + 1
  | factor => 0

theorem Tier.rank_operand (tier : Tier) : tier.operand.rank = tier.rank := by
  cases tier <;> rfl

/-- The ways to derive a list of tokens from a phrase, each with the formula it builds. A compound
is built from its left operand, its right operand and the lexeme of the connective, and a group
yields what it holds. -/
inductive Derivation : Phrase → List Token → Formula → Type where
  | operand {tier : Tier} {ts : List Token} {f : Formula} (d : Derivation tier.operand ts f) :
      Derivation (.expression tier) ts f
  | compound {tier : Tier} {op : Connective} {lexeme : Text} {ts us : List Token}
      {f g : Formula} (h : op ∈ tier.connectives) (d : Derivation (.expression tier) ts f)
      (e : Derivation tier.operand us g) :
      Derivation (.expression tier) (ts ++ ⟨.connective op, lexeme⟩ :: us)
        (.binary op lexeme f g)
  | literal (lexeme : Text) : Derivation .factor [⟨.literal, lexeme⟩] (.literal lexeme)
  | var (lexeme : Text) : Derivation .factor [⟨.var, lexeme⟩] (.var lexeme lexeme)
  | negation {lexeme : Text} {ts : List Token} {f : Formula} (d : Derivation .factor ts f) :
      Derivation .factor (⟨.negation, lexeme⟩ :: ts) (.not lexeme f)
  | group {left right : Text} {ts : List Token} {f : Formula}
      (d : Derivation (.expression .loose) ts f) :
      Derivation .factor (⟨.openParen, left⟩ :: (ts ++ [⟨.closeParen, right⟩])) f

/-- What the closing of a group records: its formula, if its parenthesis carries the marker. -/
def recorded (marker : Option Char) (paren : Text) (f : Formula) : List Formula :=
  if marker.isSome && paren.head? == marker then [f] else []

namespace Derivation

/-- How deep negations and groups lie in each other. -/
def nesting {phrase : Phrase} {ts : List Token} {f : Formula} : Derivation phrase ts f → Nat
  | operand d => d.nesting
  | compound _ d e => max d.nesting e.nesting
  | literal _ | var _ => 0
  | negation d | group d => d.nesting + 1

/-- The formulas of the marked groups, in the order in which the groups are closed. -/
def marks (marker : Option Char) {phrase : Phrase} {ts : List Token} {f : Formula} :
    Derivation phrase ts f → List Formula
  | operand d => d.marks marker
  | compound _ d e => d.marks marker ++ e.marks marker
  | literal _ | var _ => []
  | negation d => d.marks marker
  | @group left _ _ f d => d.marks marker ++ recorded marker left f

end Derivation

namespace Formula

/-! A part of a formula is the formula itself or a part of one of its immediate parts, so what is
said of all parts may be checked constructor by constructor. -/

theorem at?_not {lexeme : Text} {f g : Formula} {path : List Nat} :
    (not lexeme f).at? path = some g ↔
      (path = [] ∧ not lexeme f = g) ∨ ∃ rest, path = 0 :: rest ∧ f.at? rest = some g := by
  match path with
  | [] => simp [at?]
  | 0 :: path => simp [at?, children]
  | (i + 1) :: path => simp [at?, children]

theorem at?_binary {op : Connective} {lexeme : Text} {f g h : Formula} {path : List Nat} :
    (binary op lexeme f g).at? path = some h ↔
      (path = [] ∧ binary op lexeme f g = h) ∨ (∃ rest, path = 0 :: rest ∧ f.at? rest = some h) ∨
        ∃ rest, path = 1 :: rest ∧ g.at? rest = some h := by
  match path with
  | [] => simp [at?]
  | 0 :: path => simp [at?, children]
  | 1 :: path => simp [at?, children]
  | (i + 2) :: path => simp [at?, children]

/-- No compound in the formula, at any place, is deeper than the limit. -/
def CompoundsWithin (limit : Nat) (f : Formula) : Prop :=
  ∀ path op lexeme g h, f.at? path = some (.binary op lexeme g h) →
    (binary op lexeme g h).depth ≤ limit

@[simp] theorem compoundsWithin_literal (limit : Nat) (lexeme : Text) :
    (literal lexeme).CompoundsWithin limit := by
  intro path op lexeme' g h hat
  cases path <;> simp [at?, children] at hat

@[simp] theorem compoundsWithin_var (limit : Nat) (lexeme name : Text) :
    (var lexeme name).CompoundsWithin limit := by
  intro path op lexeme' g h hat
  cases path <;> simp [at?, children] at hat

@[simp] theorem compoundsWithin_not {limit : Nat} {lexeme : Text} {f : Formula} :
    (not lexeme f).CompoundsWithin limit ↔ f.CompoundsWithin limit := by
  constructor
  · intro hf path op lexeme' g h hat
    exact hf (0 :: path) op lexeme' g h (at?_not.mpr (.inr ⟨path, rfl, hat⟩))
  · intro hf path op lexeme' g h hat
    obtain ⟨-, heq⟩ | ⟨rest, -, hat⟩ := at?_not.mp hat
    · cases heq
    · exact hf rest op lexeme' g h hat

@[simp] theorem compoundsWithin_binary {limit : Nat} {op : Connective} {lexeme : Text}
    {f g : Formula} :
    (binary op lexeme f g).CompoundsWithin limit ↔
      (binary op lexeme f g).depth ≤ limit ∧ f.CompoundsWithin limit ∧ g.CompoundsWithin limit := by
  constructor
  · intro hf
    refine ⟨hf [] op lexeme f g rfl, ?_, ?_⟩
    · intro path op' lexeme' h k hat
      exact hf (0 :: path) op' lexeme' h k (at?_binary.mpr (.inr (.inl ⟨path, rfl, hat⟩)))
    · intro path op' lexeme' h k hat
      exact hf (1 :: path) op' lexeme' h k (at?_binary.mpr (.inr (.inr ⟨path, rfl, hat⟩)))
  · rintro ⟨hd, hf, hg⟩ path op' lexeme' h k hat
    obtain ⟨-, heq⟩ | ⟨rest, -, hat⟩ | ⟨rest, -, hat⟩ := at?_binary.mp hat
    · rw [← heq]
      exact hd
    · exact hf rest op' lexeme' h k hat
    · exact hg rest op' lexeme' h k hat

/-- Every formula keeps the limit that its own depth is. -/
theorem compoundsWithin_depth (f : Formula) : ∀ {limit : Nat}, f.depth ≤ limit →
    f.CompoundsWithin limit := by
  induction f with
  | literal lexeme => simp
  | var lexeme name => simp
  | not lexeme f ih =>
      intro limit h
      rw [depth] at h
      exact compoundsWithin_not.mpr (ih (by omega))
  | binary op lexeme f g ihf ihg =>
      intro limit h
      refine compoundsWithin_binary.mpr ⟨h, ihf ?_, ihg ?_⟩ <;> rw [depth] at h <;> omega

end Formula

end Sentential
