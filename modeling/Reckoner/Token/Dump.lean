import Reckoner.Sink
import Reckoner.Token.Lexer

/-!
# Token listings

The listing of a text has one line for each result of lexing it, up to the end.
-/

namespace Reckoner

namespace Lexer

/-- Writes the lines of a token listing one after another. -/
def dumpLines (results : List Lexed) : EStateM SinkFull Sink Unit :=
  results.forM fun r => Sink.writeText r.dumpLine

def dumpText (text : List Char) : EStateM SinkFull Sink Unit :=
  dumpLines (ofText text).results

end Lexer

end Reckoner
