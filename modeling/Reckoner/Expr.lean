import Reckoner.Decimal.Layout

/-!
# Expressions and what is made of them

An expression is a number, a name, two operands joined by an operator, or a call.  A prototype
names a function and its parameters; a definition gives a prototype a body.  An expression that
stands by itself becomes the body of the anonymous prototype, whose name is empty, so that no
source text can call it.

The text of an expression writes operators first and puts parentheses around every operation, so
that the grouping shows.
-/

namespace Reckoner

inductive Expr
  | literal (value : Float)
  | var (name : String)
  | binary (op : Char) (left right : Expr)
  | call (callee : String) (args : List Expr)
deriving Inhabited

structure Prototype where
  name : String
  params : List String
deriving DecidableEq, Inhabited

structure Definition where
  proto : Prototype
  body : Expr
deriving Inhabited

namespace Expr

mutual

def text : Expr → String
  | .literal value => Decimal.Layout.plain.text value
  | .var name => name
  | .binary op left right =>
    "(" ++ op.toString ++ " " ++ left.text ++ " " ++ right.text ++ ")"
  | .call callee args => callee ++ "(" ++ String.intercalate ", " (texts args) ++ ")"

/-- The text of each expression of a list. -/
def texts : List Expr → List String
  | [] => []
  | e :: es => e.text :: texts es

end

theorem texts_cons (e : Expr) (es : List Expr) : texts (e :: es) = e.text :: texts es := by
  simp [texts]

end Expr

namespace Prototype

/-- The prototype of an expression that stands by itself. -/
def anonymous : Prototype := ⟨"", []⟩

def isAnonymous (p : Prototype) : Bool :=
  p.name = ""

def text (p : Prototype) : String :=
  (if p.isAnonymous then "<anonymous>" else p.name) ++ "(" ++
    String.intercalate " " p.params ++ ")"

end Prototype

namespace Definition

def anonymous (body : Expr) : Definition := ⟨.anonymous, body⟩

def text (d : Definition) : String :=
  "def " ++ d.proto.text ++ " " ++ d.body.text

end Definition

end Reckoner
