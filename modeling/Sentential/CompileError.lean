import Sentential.Token.Basic
import Sentential.Text.Quoted

/-!
# Why an expression is refused

The reasons for which a text is no statement, each with the token at fault and its place among the
tokens, and the wording of each.
-/

namespace Sentential

/-- The reason for which a text is refused. Positions count tokens. -/
inductive CompileError where
  /-- The rest of a word begins with no token. -/
  | unknownToken (word : Text)
  /-- A group ends with another token than a closing parenthesis. -/
  | tokenMismatch (expected : Kind) (found : Token) (position : Nat)
  /-- The text ends where an operand or a closing parenthesis has to follow. -/
  | unexpectedEnd (position : Nat)
  /-- A token stands where no token of its kind can. -/
  | misplacedToken (token : Token) (position : Nat)
  /-- Groups, negations or compounds lie deeper in each other than the limit allows. -/
  | tooDeep (limit : Nat) (position : Nat)
  deriving DecidableEq, Repr

namespace CompileError

private def atIndex (position : Nat) : Text :=
  " at token index ".toList ++ Text.ofNat position

/-- The wording of a refusal for depth at a position, with the limit as it is shown. -/
def depthMessage (limit : Text) (position : Nat) : Text :=
  "Expression exceeds the depth limit of ".toList ++ limit ++ atIndex position

/-- The wording of a refusal. -/
def message : CompileError → Text
  | unknownToken word => "Unknown token ".toList ++ Text.quoted word
  | tokenMismatch expected found position =>
    "Required ".toList ++ expected.label ++ ", but found ".toList ++ found.kind.label ++
      ' ' :: Text.quoted found.lexeme ++ atIndex position
  | unexpectedEnd position =>
    "Expected an expression".toList ++ atIndex position ++ ", but the text ended".toList
  | misplacedToken token position =>
    "Incorrectly placed token ".toList ++ Text.quoted token.lexeme ++ atIndex position
  | tooDeep limit position => depthMessage (Text.ofNat limit) position

end CompileError

end Sentential
