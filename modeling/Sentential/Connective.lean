import Sentential.Text.Basic

/-!
# Connectives

The six binary connectives, how tightly they bind, what they mean and how they are named. The
biconditional binds loosest, then the implication; conjunction, both disjunctions and the negated
conjunction share the tightest tier, and every tier groups to the left.
-/

namespace Sentential

/-- How tightly a connective binds its operands. -/
inductive Tier where
  | loose
  | middle
  | tight
  deriving DecidableEq, Repr

/-- A connective of two operands. -/
inductive Connective where
  | and
  | or
  | xor
  | nand
  | implies
  | iff
  deriving DecidableEq, Repr

namespace Connective

/-- The tier in which the connective is read. -/
def tier : Connective → Tier
  | and | or | xor | nand => .tight
  | implies => .middle
  | iff => .loose

/-- The truth value of the compound, from those of its operands. -/
def apply : Connective → Bool → Bool → Bool
  | and, a, b => a && b
  | or, a, b => a || b
  | xor, a, b => a != b
  | nand, a, b => !(a && b)
  | implies, a, b => !a || b
  | iff, a, b => a == b

/-- The word that stands for the connective where no other spelling is given. -/
def word : Connective → Text
  | and => "and".toList
  | or => "or".toList
  | xor => "xor".toList
  | nand => "nand".toList
  | implies => "implies".toList
  | iff => "iff".toList

/-- The command that typesets the connective. -/
def latex : Connective → Text
  | and => "\\land".toList
  | or => "\\lor".toList
  | xor => "\\oplus".toList
  | nand => "\\uparrow".toList
  | implies => "\\implies".toList
  | iff => "\\iff".toList

end Connective

end Sentential
