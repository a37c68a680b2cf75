/-
Building a locator step by step.

A builder only records what it is told. Predicates given before there is a segment are kept apart as dangling. `render` writes
everything down in the order of the calls, whether or not it makes a locator; `locator` is the strict reading, which refuses
names and places that would not come back from their text.
-/
import XmlStore.Locator.Parser
import XmlStore.Locator.Printer

namespace XmlStore

/-- a locator in the making -/
structure LocatorBuilder where
  segments : List Segment
  /-- predicates that came before the first segment -/
  dangling : List Predicate
  deriving DecidableEq, Repr

namespace LocatorBuilder

def empty : LocatorBuilder := ⟨[], []⟩

/-- starts at a child of the document -/
def root (name : String) : LocatorBuilder := ⟨[.plain .child name], []⟩

/-- starts anywhere in the document -/
def search (name : String) : LocatorBuilder := ⟨[.plain .descendant name], []⟩

/-- starts at a child of the document if `absolute`, else anywhere in it -/
def withRoot (name : String) (absolute : Bool) : LocatorBuilder :=
  if absolute then root name else search name

/-- one call on a builder -/
inductive Call where
  | goTo (name : String)
  | position (place : Nat)
  | carrying (name : String) (value : Option String)
  deriving DecidableEq, Repr

/-- the segments with one more predicate on the last of them, if there is one -/
def addToLast (predicate : Predicate) : List Segment → Option (List Segment)
  | [] => none
  | [segment] => some [{ segment with predicates := segment.predicates ++ [predicate] }]
  | segment :: rest => (addToLast predicate rest).map (segment :: ·)

/-- puts a predicate on the last segment -/
def filter (builder : LocatorBuilder) (predicate : Predicate) : LocatorBuilder :=
  match addToLast predicate builder.segments with
  | some segments => { builder with segments }
  | none => { builder with dangling := builder.dangling ++ [predicate] }

/-- the predicate for an attribute, with a literal taken as it stands or without one -/
def attributePredicate (name : String) : Option String → Predicate
  | none => .hasAttribute name
  | some literal => .attributeEquals name literal

def call (builder : LocatorBuilder) : Call → LocatorBuilder
  | .goTo name => { builder with segments := builder.segments ++ [.plain .child name] }
  | .position place => builder.filter (.position place)
  | .carrying name value => builder.filter (attributePredicate name value)

def calls (builder : LocatorBuilder) (given : List Call) : LocatorBuilder :=
  given.foldl call builder

/-- everything that was said, in order -/
def render (builder : LocatorBuilder) : String :=
  String.ofList (builder.dangling.flatMap Predicate.render ++ Locator.render ⟨false, builder.segments⟩)

/-- what is wrong with the name or the place of a predicate, if it would not come back from its text -/
def predicateError : Predicate → Option LocatorError
  | .hasAttribute name => if isName name then none else some (.invalidSegmentName name)
  | .attributeEquals name _ => if isName name then none else some (.invalidSegmentName name)
  | .position place => if place = 0 then some (.malformed (.invalidPosition "0") 0) else none

/-- what is wrong with a segment: its name, or else its first bad predicate -/
def segmentError (segment : Segment) : Option LocatorError :=
  if segment.name ≠ "*" ∧ ¬ isName segment.name then some (.invalidSegmentName segment.name)
  else segment.predicates.findSome? predicateError

/-- the locator that was built, if its names and places can be written -/
def locator (builder : LocatorBuilder) : Except LocatorError Locator :=
  if builder.dangling ≠ [] then .error .danglingPredicate
  else if builder.segments = [] then .error .empty
  else match builder.segments.findSome? segmentError with
    | some error => .error error
    | none => .ok ⟨false, builder.segments⟩

/-- the locator that the rendered text stands for -/
def resolve (builder : LocatorBuilder) : Except LocatorError Locator :=
  Locator.parse builder.render

end LocatorBuilder

end XmlStore
