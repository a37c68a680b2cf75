/-
What a builder renders.

Every call adds a piece of text after what was there before: its own step or predicate, written down as it was given. That is so
although the builder keeps no text. A predicate goes to the last segment, which is what is rendered last, or it dangles, and then there
is no segment yet and all that is rendered are those that dangle.

Main statements:
- `LocatorBuilder.render_call`: what one call adds.
- `LocatorBuilder.render_calls`: what is rendered after any calls from any start.
-/
import XmlStore.Proofs.Locator.Building

namespace XmlStore.LocatorBuilder

/-! ## The pieces -/

def Call.text : Call → String
  | .goTo name => "/" ++ name
  | .position place => "[" ++ toString place ++ "]"
  | .carrying name none => "[@" ++ name ++ "]"
  | .carrying name (some value) => "[@" ++ name ++ "=" ++ value ++ "]"

def Start.text : Start → String
  | .empty => ""
  | .root name => "/" ++ name
  | .search name => "//" ++ name

/-- the text of calls, one after the other -/
def textOf (given : List Call) : String :=
  String.join (given.map Call.text)

theorem textOf_cons (call : Call) (given : List Call) : textOf (call :: given) = call.text ++ textOf given := by
  simp [textOf, String.join_cons]

/-! ## One call -/

variable {builder : LocatorBuilder}

theorem render_goTo (name : String) : (builder.call (.goTo name)).render = builder.render ++ (Call.goTo name).text := by
  apply String.toList_inj.1
  simp [call, render, Locator.render, renderSegments, Segment.plain, Segment.render, Axis.separator, Call.text]

/-- a predicate is rendered last, whether it goes to the last segment or dangles -/
theorem render_filter (p : Predicate) : (builder.filter p).render = builder.render ++ String.ofList p.render := by
  obtain ⟨segments, dangling⟩ := builder
  apply String.toList_inj.1
  rcases List.eq_nil_or_concat segments with rfl | ⟨segments, last, rfl⟩
  · simp [filter, addToLast, render, Locator.render, renderSegments]
  · rw [List.concat_eq_append, filter_concat]
    simp [render, Locator.render, renderSegments, Segment.render]

theorem ofList_render_position (place : Nat) : String.ofList (Predicate.render (.position place)) = (Call.position place).text := by
  apply String.toList_inj.1
  simp [Predicate.render, Call.text]

theorem ofList_render_attribute (name : String) (value : Option String) :
    String.ofList (attributePredicate name value).render = (Call.carrying name value).text := by
  apply String.toList_inj.1
  cases value <;> simp [attributePredicate, Predicate.render, Call.text]

/-- **One call** adds its text. -/
theorem render_call (call : Call) : (builder.call call).render = builder.render ++ call.text := by
  cases call with
  | goTo name => exact render_goTo name
  | position place => rw [LocatorBuilder.call, render_filter, ofList_render_position]
  | carrying name value => rw [LocatorBuilder.call, render_filter, ofList_render_attribute]

/-! ## All calls -/

theorem render_of_calls (given : List Call) : (builder.calls given).render = builder.render ++ textOf given := by
  induction given generalizing builder with
  | nil => simp [calls, textOf]
  | cons call given ih =>
    have rest : ((builder.call call).calls given).render = (builder.call call).render ++ textOf given := ih
    rw [calls] at rest
    rw [calls, List.foldl_cons, rest, render_call, textOf_cons, String.append_assoc]

theorem render_start (start : Start) : start.builder.render = start.text := by
  apply String.toList_inj.1
  cases start <;>
    simp [Start.builder, Start.text, empty, root, search, render, Locator.render, renderSegments, Segment.plain, Segment.render,
      Axis.separator]

/-- **What is rendered** is the text to begin with and then the text of each call, in the order of the calls and just as they were
given, predicates before the first segment among them. -/
theorem render_calls (given : List Call) :
    (∀ start : Start, (start.builder.calls given).render = start.text ++ textOf given) ∧
      ∀ name absolute, ((withRoot name absolute).calls given).render =
        (if absolute then "/" else "//") ++ name ++ textOf given := by
  have started (start : Start) : (start.builder.calls given).render = start.text ++ textOf given := by
    rw [render_of_calls, render_start]
  refine ⟨started, fun name absolute => ?_⟩
  cases absolute with
  | true => exact started (.root name)
  | false => exact started (.search name)

example : (Start.empty.builder.calls [.position 2, .goTo "a/b", .carrying "k" (some "]"), .position 0]).render =
    "[2]/a/b[@k=]][0]" := by
  decide +kernel

end XmlStore.LocatorBuilder
