/-
The textual form of locators.

Every segment is written after its separator, `/` or `//`, and is followed by its predicates in brackets. A relative locator
whose first segment looks among the children has no separator in front of it.
-/
import XmlStore.Locator.Basic

namespace XmlStore

/-- the separator that leads to a segment -/
def Axis.separator : Axis → List Char
  | .child => ['/']
  | .descendant => ['/', '/']

def Predicate.render : Predicate → List Char
  | .position place => '[' :: Nat.toDigits 10 place ++ [']']
  | .hasAttribute name => '[' :: '@' :: name.toList ++ [']']
  | .attributeEquals name literal => '[' :: '@' :: name.toList ++ '=' :: literal.toList ++ [']']

def Segment.render (segment : Segment) : List Char :=
  segment.name.toList ++ segment.predicates.flatMap Predicate.render

/-- segments, each after its separator -/
def renderSegments (segments : List Segment) : List Char :=
  segments.flatMap fun segment => segment.axis.separator ++ segment.render

def Locator.render (locator : Locator) : List Char :=
  match locator.relative, locator.segments with
  | true, ⟨.child, name, predicates⟩ :: rest => Segment.render ⟨.child, name, predicates⟩ ++ renderSegments rest
  | _, segments => renderSegments segments

def Locator.display (locator : Locator) : String :=
  String.ofList locator.render

end XmlStore
