import Reckoner.Token

/-!
# Errors of the grammar

A production fails at the first token that cannot continue it, and its error carries that token
and what was looked for; or it meets a lexeme that is no token.
-/

namespace Reckoner

/-- What a production was looking for. -/
inductive Expected
  | closeParen
  | argumentEnd
  | functionName
  | paramsOpen
  | paramsClose
  | defKeyword
  | externKeyword
deriving DecidableEq

inductive ParseError
  | unexpected (expected : Expected) (found : Token)
  | noExpression (found : Token)
  | lex (e : LexError)
deriving DecidableEq

def Expected.text : Expected → String
  | .closeParen => "')'"
  | .argumentEnd => "')' or ',' in argument list"
  | .functionName => "function name in prototype"
  | .paramsOpen => "'(' in prototype"
  | .paramsClose => "')' in prototype"
  | .defKeyword => "'def'"
  | .externKeyword => "'extern'"

def ParseError.message : ParseError → String
  | .unexpected expected found => "expected " ++ expected.text ++ ", found " ++ found.description
  | .noExpression found =>
    "unknown token when expecting an expression, found " ++ found.description
  | .lex e => e.message

end Reckoner
