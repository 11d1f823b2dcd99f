import Reckoner.Text.Unseen
import Reckoner.Text.Attaching

/-!
# Quoted characters

The written form of a character between single quotes.  A quote, a backslash and four controls
have a letter of their own, a character that the eye could not identify is written by its
number, and every other character stands for itself.
-/

namespace Reckoner.Text

/-- The letter after the backslash, for the characters that have one. -/
def escapeLetter? (c : Char) : Option Char :=
  if c = '\x00' then some '0'
  else if c = '\t' then some 't'
  else if c = '\r' then some 'r'
  else if c = '\n' then some 'n'
  else if c = '\\' then some '\\'
  else if c = '\x27' then some '\x27'
  else none

/-- The number of a character in lower-case hexadecimal, without leading zeros. -/
def hexDigits (c : Char) : List Char :=
  Nat.toDigits 16 c.toNat

/-- The text of one character inside single quotes. -/
def escapeChar (c : Char) : List Char :=
  match escapeLetter? c with
  | some l => ['\\', l]
  | none =>
    if isUnseen c || isAttaching c then ['\\', 'u', '\x7b'] ++ hexDigits c ++ ['\x7d']
    else [c]

/-- A character between single quotes. -/
def quoteChar (c : Char) : String :=
  String.ofList (['\x27'] ++ escapeChar c ++ ['\x27'])

end Reckoner.Text
