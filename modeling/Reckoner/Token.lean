import Reckoner.Decimal.Layout
import Reckoner.Text.Quoted

/-!
# Tokens

The units that the grammar is made of, the one way in which a lexeme can be malformed, and the
two texts of a token: `description` for diagnostics and `dump` for listings of the token stream.
-/

namespace Reckoner

inductive Token
  | eof
  | defKeyword
  | externKeyword
  | ident (name : String)
  | number (value : Float)
  | operator (symbol : Char)
deriving DecidableEq

/-- A run of digits and points that spells no number. -/
inductive LexError
  | malformedNumber (text : String)
deriving DecidableEq

/-- One result of lexing. -/
abbrev Lexed := Except LexError Token

namespace Token

/-- The token of a word: a keyword only if it is exactly that word. -/
def ofWord (word : String) : Token :=
  if word = "def" then .defKeyword
  else if word = "extern" then .externKeyword
  else .ident word

def description : Token → String
  | .eof => "end of input"
  | .defKeyword => "'def'"
  | .externKeyword => "'extern'"
  | .ident name => "identifier '" ++ name ++ "'"
  | .number value => "number " ++ Decimal.Layout.plain.text value
  | .operator symbol => "'" ++ symbol.toString ++ "'"

/-- The token as one unambiguous item.  Names are letters and digits and need no escapes. -/
def dump : Token → String
  | .eof => "Eof"
  | .defKeyword => "Def"
  | .externKeyword => "Extern"
  | .ident name => "Ident(\"" ++ name ++ "\")"
  | .number value => "Number(" ++ Decimal.Layout.literal.text value ++ ")"
  | .operator symbol => "Operator(" ++ Text.quoteChar symbol ++ ")"

end Token

def LexError.message : LexError → String
  | .malformedNumber text => "malformed number literal '" ++ text ++ "'"

namespace Lexed

/-- The result that stands for the end of the source. -/
def isEnd : Lexed → Bool
  | .ok .eof => true
  | _ => false

theorem isEnd_iff {r : Lexed} : r.isEnd = true ↔ r = .ok .eof := by
  rcases r with e | t
  · simp [isEnd]
  · cases t <;> simp [isEnd]

/-- One line of a token listing, malformed lexemes in place. -/
def dumpLine : Lexed → String
  | .ok token => token.dump ++ "\n"
  | .error e => "error: " ++ e.message ++ "\n"

end Lexed

end Reckoner
