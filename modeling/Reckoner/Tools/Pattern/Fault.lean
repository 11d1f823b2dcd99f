import Reckoner.Tools.Pattern.Place

/-!
# Faults of a pattern

Why a text is no pattern, and which part of it is to blame.
-/

namespace Reckoner.Pattern

/-- How deep a pattern may be nested. -/
def depthLimit : Nat := 250

inductive Cause
  -- escapes
  | escapeCut
  | escapeUnknown
  | backreference
  | hexEmpty
  | hexNotDigit
  | hexNotScalar
  | propertyMalformed
  | wordEdgeUnclosed
  | wordEdgeUnknown
  | wordEdgeCut
  -- sets of characters
  | setUnclosed
  | setMember
  | rangeBound
  | rangeReversed
  -- repetitions
  | nothingRepeated
  | countUnclosed
  | countMissing
  | countTooBig
  | countReversed
  -- groups
  | groupUnclosed
  | groupUnopened
  | lookAround
  | nameCut
  | nameInvalid
  | nameEmpty
  | nameRepeated
  | flagCut
  | flagUnknown
  | flagRepeated
  | negationRepeated
  | negationDangling
  | tooDeep
  -- what is read but has no meaning here
  | unicodeOff
  | invalidUtf8
  | propertyUnknown
  | propertyValueUnknown
  | shorthandUnavailable
  | caseUnavailable
deriving DecidableEq

structure Fault where
  cause : Cause
  span : Span
  /-- Where the same thing stands for the first time. -/
  earlier : Option Span := none
deriving DecidableEq

/-- What a fault shows of the pattern. -/
def Fault.spans (f : Fault) : List Span :=
  f.span :: f.earlier.toList

def Cause.message : Cause → String
  | .escapeCut => "incomplete escape sequence, reached end of pattern prematurely"
  | .escapeUnknown => "unrecognized escape sequence"
  | .backreference => "backreferences are not supported"
  | .hexEmpty => "hexadecimal literal empty"
  | .hexNotDigit => "invalid hexadecimal digit"
  | .hexNotScalar => "hexadecimal literal is not a Unicode scalar value"
  | .propertyMalformed => "invalid Unicode character class"
  | .wordEdgeUnclosed =>
    "special word boundary assertion is either unclosed or contains an invalid character"
  | .wordEdgeUnknown =>
    "unrecognized special word boundary assertion, " ++
      "valid choices are: start, end, start-half or end-half"
  | .wordEdgeCut =>
    "found either the beginning of a special word boundary or a bounded repetition " ++
      "on a \\b with an opening brace, but no closing brace"
  | .setUnclosed => "unclosed character class"
  | .setMember => "invalid escape sequence found in character class"
  | .rangeBound => "invalid range boundary, must be a literal"
  | .rangeReversed => "invalid character class range, the start must be <= the end"
  | .nothingRepeated => "repetition operator missing expression"
  | .countUnclosed => "unclosed counted repetition"
  | .countMissing => "repetition quantifier expects a valid decimal"
  | .countTooBig => "decimal literal invalid"
  | .countReversed => "invalid repetition count range, the start must be <= the end"
  | .groupUnclosed => "unclosed group"
  | .groupUnopened => "unopened group"
  | .lookAround => "look-around, including look-ahead and look-behind, is not supported"
  | .nameCut => "unclosed capture group name"
  | .nameInvalid => "invalid capture group character"
  | .nameEmpty => "empty capture group name"
  | .nameRepeated => "duplicate capture group name"
  | .flagCut => "expected flag but got end of regex"
  | .flagUnknown => "unrecognized flag"
  | .flagRepeated => "duplicate flag"
  | .negationRepeated => "flag negation operator repeated"
  | .negationDangling => "dangling flag negation operator"
  | .tooDeep =>
    "exceed the maximum number of nested parentheses/brackets (" ++ toString depthLimit ++ ")"
  | .unicodeOff => "Unicode not allowed here"
  | .invalidUtf8 => "pattern can match invalid UTF-8"
  | .propertyUnknown => "Unicode property not found"
  | .propertyValueUnknown => "Unicode property value not found"
  | .shorthandUnavailable =>
    "Unicode-aware Perl class not found (make sure the unicode-perl feature is enabled)"
  | .caseUnavailable =>
    "Unicode-aware case insensitivity matching is not available " ++
      "(make sure the unicode-case feature is enabled)"

end Reckoner.Pattern
