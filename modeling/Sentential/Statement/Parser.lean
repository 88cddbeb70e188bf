import Sentential.Statement.Basic
import Sentential.Formula.Parser
import Sentential.Token.Lexer

/-!
# From a text to a statement

The tokens of the text are read as one expression of the loosest tier, which must use up all of
them.
-/

namespace Sentential.Statement

/-- The statement that a list of tokens is. -/
def ofTokens (o : ParseOptions) (text : Text) (tokens : List Token) :
    Except CompileError Statement :=
  match Parser.expression o .loose (.start tokens) with
  | .error e => .error e
  | .ok (root, s) =>
    match s.rest with
    | [] => .ok ⟨text, root, Text.sortedSet s.names, s.marked⟩
    | t :: _ => .error (.misplacedToken t s.position)

/-- The statement that a text is. -/
def parse (o : ParseOptions) (text : Text) : Except CompileError Statement :=
  match Token.lex o.marker text with
  | .error e => .error e
  | .ok tokens => ofTokens o text tokens

end Sentential.Statement
