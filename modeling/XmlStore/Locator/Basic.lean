/-
Locators: paths that pick out elements of a document.

A locator is a sequence of segments. Each segment moves from the elements picked so far to their children, or to the children
of anything at or below them, by a name test and then by predicates in order. A relative locator starts at a context node, any
other at the document itself.
-/

namespace XmlStore

/-- where a segment looks for its elements -/
inductive Axis where
  /-- among the children -/
  | child
  /-- among the children of the node and of everything below it -/
  | descendant
  deriving DecidableEq, Repr, Inhabited

/-- a filter on the elements that passed the name test of a segment -/
inductive Predicate where
  /-- keeps the one at this place, counted from 1 among the candidates of one parent -/
  | position (place : Nat)
  /-- keeps those that carry the attribute -/
  | hasAttribute (name : String)
  /-- keeps those whose attribute has the value that the literal stands for -/
  | attributeEquals (name literal : String)
  deriving DecidableEq, Repr, Inhabited

/-- one step of a locator -/
structure Segment where
  axis : Axis
  /-- an element name, or `*` for any -/
  name : String
  predicates : List Predicate
  deriving DecidableEq, Repr, Inhabited

/-- a path of segments, from the document or from a context node -/
structure Locator where
  relative : Bool
  segments : List Segment
  deriving DecidableEq, Repr, Inhabited

/-- the value that a literal stands for: what is between its quotes if it has the same quote at both ends, else itself -/
def Predicate.literalValue (literal : String) : String :=
  match literal.toList with
  | quote :: rest =>
    if (quote = '"' ∨ quote = '\'') ∧ rest.getLast? = some quote then String.ofList rest.dropLast else literal
  | [] => literal

/-- whether an element name passes the name test -/
def Segment.matchesName (segment : Segment) (name : String) : Bool :=
  segment.name == "*" || segment.name == name

def Segment.plain (axis : Axis) (name : String) : Segment :=
  ⟨axis, name, []⟩

end XmlStore
