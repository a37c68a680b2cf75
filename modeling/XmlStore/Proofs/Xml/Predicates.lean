/-
Predicates that look at one element.

A position counts among the candidates of one parent. Every other predicate looks at an element's own attributes, so it leaves of a
group those that pass it (`Predicate.passes`), and it does not matter when it is asked: on the last segment of a locator it leaves
of what the locator picks out the elements that pass.

Main statements:
- `applyPredicate_eq_filter`: a predicate without a place is a filter.
- `Document.select_narrowed`: one more such predicate on the last segment filters what the locator picks out.
-/
import XmlStore.Proofs.Locator.Building
import XmlStore.Proofs.Xml.Ends

namespace XmlStore

open Xml

/-- a predicate that does not count places -/
def Predicate.Unplaced : Predicate → Prop
  | .position _ => False
  | .hasAttribute _ => True
  | .attributeEquals _ _ => True

/-- whether attributes are as a predicate asks for; no attributes tell a place -/
def Predicate.passes (attributes : Attributes) : Predicate → Bool
  | .position _ => false
  | .hasAttribute name => (attributes.get? name).isSome
  | .attributeEquals name literal => attributes.get? name == some (literalValue literal)

/-- the locator with one more predicate on its last segment, if it has a segment -/
def Locator.narrowed (l : Locator) (predicate : Predicate) : Locator :=
  { l with segments := (LocatorBuilder.addToLast predicate l.segments).getD [] }

namespace Xml

variable {ι : Type} {predicate : Predicate}

theorem applyPredicate_eq_filter (h : predicate.Unplaced) (group : List (Element ι)) :
    applyPredicate group predicate = group.filter fun e => predicate.passes e.attributes := by
  cases predicate with
  | position place => exact absurd h id
  | hasAttribute name => rfl
  | attributeEquals name literal => rfl

/-! ## One more predicate -/

theorem applySegment_append (segment : Segment) (predicate : Predicate) (group : List (Element ι)) :
    applySegment { segment with predicates := segment.predicates ++ [predicate] } group =
      applyPredicate (applySegment segment group) predicate := by
  rw [applySegment, applySegment, List.foldl_append]
  rfl

theorem stepFrom_append (h : predicate.Unplaced) (segment : Segment) (below : Forest ι) :
    stepFrom { segment with predicates := segment.predicates ++ [predicate] } below =
      (stepFrom segment below).filter fun e => predicate.passes e.attributes := by
  rw [stepFrom, stepFrom, List.filter_flatMap]
  refine List.flatMap_congr fun group _ => ?_
  rw [applySegment_append, applyPredicate_eq_filter h]

/-- what one last segment leaves of what another reaches, it leaves of the ends -/
theorem Forest.ends_filter {last last' : Segment} {keeps : Element ι → Bool}
    (step : ∀ below : Forest ι, stepFrom last' below = (stepFrom last below).filter keeps) (segments : List Segment) (f : Forest ι) :
    f.ends (segments ++ [last']) = (f.ends (segments ++ [last])).filter keeps := by
  induction segments generalizing f with
  | nil => exact step f
  | cons segment rest ih =>
    rw [List.cons_append, List.cons_append, ends_cons_concat, ends_cons_concat, List.filter_flatMap]
    exact List.flatMap_congr fun e _ => ih e.children

/-- **A predicate without a place** on the last segment leaves of what the locator picks out the elements that pass it. -/
theorem Document.select_narrowed {d : Document} (hd : d.Numbered) (h : predicate.Unplaced) (l : Locator) :
    d.select (l.narrowed predicate) = (d.select l).filter fun e => predicate.passes e.attributes := by
  rw [select_eq_picked hd, select_eq_picked hd, Forest.picked, Forest.picked, List.filter_filter]
  refine List.filter_congr ?_
  intro e _
  rcases List.eq_nil_or_concat l.segments with hl | ⟨segments, last, hl⟩
  · simp [Locator.narrowed, hl, LocatorBuilder.addToLast, Forest.ends]
  · rw [List.concat_eq_append] at hl
    rw [Locator.narrowed, hl, LocatorBuilder.addToLast_concat, Option.getD_some, Forest.ends_filter (stepFrom_append h last),
      Bool.eq_iff_iff]
    simp [and_comm]

end Xml

end XmlStore
