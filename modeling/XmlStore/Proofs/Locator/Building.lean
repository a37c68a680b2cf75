/-
Built locators, and the texts that are rendered for them.

A builder keeps every predicate that it was told, in order. Its strict reading looks at names and places and takes the value of an
attribute test as it stands; in the rendered text the same value ends where a bracket or a quote ends it. So the two readings agree as
long as every value that was given is a literal, and a value that is none is read as something else.

Main statements:
- `LocatorBuilder.predicates_calls`: what was said is kept, in order.
- `LocatorBuilder.locator_eq_ok_iff`: what the strict reading asks for.
- `LocatorBuilder.resolve_iff`: when the rendered text stands for the locator that was built.
-/
import XmlStore.Locator.Builder
import XmlStore.Proofs.Locator.Rereading

namespace XmlStore.LocatorBuilder

/-! ## What is kept -/

/-- how building starts -/
inductive Start where
  | empty
  | root (name : String)
  | search (name : String)

/-- the builder to begin with -/
def Start.builder : Start → LocatorBuilder
  | .empty => .empty
  | .root name => .root name
  | .search name => .search name

/-- the predicate that a call gives -/
def Call.predicate? : Call → Option Predicate
  | .goTo _ => none
  | .position place => some (.position place)
  | .carrying name value => some (attributePredicate name value)

def predicates (builder : LocatorBuilder) : List Predicate :=
  builder.dangling ++ builder.segments.flatMap Segment.predicates

theorem addToLast_concat (predicate : Predicate) (segments : List Segment) (last : Segment) :
    addToLast predicate (segments ++ [last]) =
      some (segments ++ [{ last with predicates := last.predicates ++ [predicate] }]) := by
  induction segments with
  | nil => rfl
  | cons segment rest ih =>
    obtain ⟨next, others, e⟩ := List.exists_cons_of_ne_nil (show rest ++ [last] ≠ [] by simp)
    rw [List.cons_append, e, addToLast, ← e, ih]
    · rfl
    · simp

/-- a predicate goes to the last segment -/
theorem filter_concat (segments : List Segment) (last : Segment) (dangling : List Predicate) (predicate : Predicate) :
    filter ⟨segments ++ [last], dangling⟩ predicate =
      ⟨segments ++ [{ last with predicates := last.predicates ++ [predicate] }], dangling⟩ := by
  rw [filter, addToLast_concat]

theorem predicates_filter (builder : LocatorBuilder) (predicate : Predicate) :
    (builder.filter predicate).predicates = builder.predicates ++ [predicate] := by
  obtain ⟨segments, dangling⟩ := builder
  rcases List.eq_nil_or_concat segments with rfl | ⟨segments, last, rfl⟩
  · simp [filter, addToLast, predicates]
  · rw [List.concat_eq_append, filter_concat]
    simp [predicates]

/-- **What was said is kept**, in the order of the calls. -/
theorem predicates_calls (builder : LocatorBuilder) (given : List Call) :
    (builder.calls given).predicates = builder.predicates ++ given.filterMap Call.predicate? := by
  induction given generalizing builder with
  | nil => simp [calls]
  | cons call given ih =>
    have rest := ih (builder.call call)
    rw [calls] at rest
    rw [calls, List.foldl_cons, rest, List.filterMap_cons]
    cases call with
    | goTo name => simp [LocatorBuilder.call, Call.predicate?, predicates, Segment.plain]
    | position place => simp [LocatorBuilder.call, Call.predicate?, predicates_filter]
    | carrying name value => simp [LocatorBuilder.call, Call.predicate?, predicates_filter]

theorem predicate?_eq_position {call : Call} {place : Nat} :
    call.predicate? = some (.position place) ↔ call = .position place := by
  cases call with
  | goTo name => simp [Call.predicate?]
  | position place => simp [Call.predicate?]
  | carrying name value => cases value <;> simp [Call.predicate?, attributePredicate]

theorem predicate?_eq_attributeEquals {call : Call} {name literal : String} :
    call.predicate? = some (.attributeEquals name literal) ↔ call = .carrying name (some literal) := by
  cases call with
  | goTo name => simp [Call.predicate?]
  | position place => simp [Call.predicate?]
  | carrying name value => cases value <;> simp [Call.predicate?, attributePredicate]

theorem predicates_start (start : Start) : start.builder.predicates = [] := by
  cases start <;> rfl

/-! ## The strict reading -/

theorem segmentError_eq_none {segment : Segment} :
    segmentError segment = none ↔
      (segment.name = "*" ∨ isName segment.name = true) ∧ ∀ p ∈ segment.predicates, predicateError p = none := by
  unfold segmentError
  split
  · rename_i bad
    simp [bad.1, bad.2]
  · rename_i good
    have named : segment.name = "*" ∨ isName segment.name = true := by
      by_cases any : segment.name = "*"
      · exact Or.inl any
      · exact Or.inr (by simpa [any] using good)
    simp [named]

/-- **What the strict reading asks for**: segments, no predicate before them, and names and places that can be written. -/
theorem locator_eq_ok_iff {builder : LocatorBuilder} {l : Locator} :
    builder.locator = .ok l ↔
      builder.dangling = [] ∧ builder.segments ≠ [] ∧ (∀ segment ∈ builder.segments, segmentError segment = none) ∧
        l = ⟨false, builder.segments⟩ := by
  unfold locator
  split
  · rename_i dangling
    simp [dangling]
  · rename_i kept
    split
    · rename_i none
      simp [none]
    · rename_i some
      split
      · rename_i error found
        obtain ⟨segment, hs, e⟩ := List.exists_of_findSome?_eq_some found
        have bad : ¬ ∀ segment ∈ builder.segments, segmentError segment = none := fun good => by
          rw [good segment hs] at e
          cases e
        simp [bad]
      · rename_i good
        have kept : builder.dangling = [] := Decidable.not_not.1 kept
        have checked := List.findSome?_eq_none_iff.1 good
        constructor
        · intro h
          exact ⟨kept, some, checked, (Except.ok.inj h).symm⟩
        · rintro ⟨-, -, -, rfl⟩
          rfl

/-- what comes out of the strict reading can be written if its places are words and its values are literals -/
theorem writable_iff {builder : LocatorBuilder} {l : Locator} (h : builder.locator = .ok l)
    (words : ∀ place, .position place ∈ builder.predicates → place < UInt64.size) :
    l.Writable ↔ ∀ name literal, .attributeEquals name literal ∈ builder.predicates →
      QuotedLiteral literal.toList ∨ BareLiteral literal.toList := by
  obtain ⟨dangling, some, good, rfl⟩ := locator_eq_ok_iff.1 h
  have mem {p : Predicate} : p ∈ builder.predicates ↔ ∃ segment ∈ builder.segments, p ∈ segment.predicates := by
    simp [predicates, dangling]
  constructor
  · intro writable name literal hp
    obtain ⟨segment, hs, hp⟩ := mem.1 hp
    exact ((writable.segments segment hs).predicates _ hp).2
  · intro literals
    refine ⟨some, by simp, fun segment hs => ?_⟩
    obtain ⟨name, checked⟩ := segmentError_eq_none.1 (good segment hs)
    refine ⟨name, fun p hp => ?_⟩
    have known : p ∈ builder.predicates := mem.2 ⟨segment, hs, hp⟩
    have fine := checked p hp
    cases p with
    | position place =>
      have one : place ≠ 0 := by rintro rfl; cases fine
      exact ⟨Nat.one_le_iff_ne_zero.2 one, words place known⟩
    | hasAttribute name =>
      have named : isName name = true := by simpa [predicateError] using fine
      exact named
    | attributeEquals name literal =>
      have named : isName name = true := by simpa [predicateError] using fine
      exact ⟨named, literals name literal known⟩

/-! ## The rendered text -/

/-- what is rendered for a locator is its textual form -/
theorem render_of_locator {builder : LocatorBuilder} {l : Locator} (h : builder.locator = .ok l) : builder.render = l.display := by
  obtain ⟨dangling, -, -, rfl⟩ := locator_eq_ok_iff.1 h
  simp [render, Locator.display, dangling]

/-- **The rendered text stands for the locator that was built** exactly if every value that was given is a literal: it is in quotes and
has none of them inside, or it has no closing bracket, does not begin with a quote, and neither begins nor ends with a blank. -/
theorem resolve_iff {start : Start} {given : List Call} {l : Locator}
    (words : ∀ place, .position place ∈ given → place < UInt64.size)
    (h : (start.builder.calls given).locator = .ok l) :
    (start.builder.calls given).resolve = .ok l ↔
      ∀ name literal, .carrying name (some literal) ∈ given → QuotedLiteral literal.toList ∨ BareLiteral literal.toList := by
  have said (p : Predicate) : p ∈ (start.builder.calls given).predicates ↔ ∃ call ∈ given, call.predicate? = some p := by
    rw [predicates_calls, predicates_start, List.nil_append, List.mem_filterMap]
  have places : ∀ place, .position place ∈ (start.builder.calls given).predicates → place < UInt64.size := by
    intro place hp
    obtain ⟨call, hc, e⟩ := (said _).1 hp
    exact words place (predicate?_eq_position.1 e ▸ hc)
  have values (name literal : String) :
      .attributeEquals name literal ∈ (start.builder.calls given).predicates ↔ .carrying name (some literal) ∈ given := by
    simp [said, predicate?_eq_attributeEquals]
  have written : (start.builder.calls given).resolve = .ok l ↔ l.Writable := by
    rw [resolve, render_of_locator h]
    exact ⟨Locator.writable_of_parse, Locator.parse_display⟩
  rw [written, writable_iff h places]
  exact forall₂_congr fun name literal => by rw [values]

theorem resolve_iff_quotedBracket :
    let given : List Call := [.goTo "book", .carrying "id" (some "'a]b'"), .position 2]
    let l : Locator := ⟨false, [⟨.descendant, "shelf", []⟩, ⟨.child, "book", [.attributeEquals "id" "'a]b'", .position 2]⟩]⟩
    (∀ place, .position place ∈ given → place < UInt64.size) ∧ ((Start.search "shelf").builder.calls given).locator = .ok l ∧
      ((Start.search "shelf").builder.calls given).resolve = .ok l := by
  intro given l
  have words : ∀ place, .position place ∈ given → place < UInt64.size := by
    intro place hp
    obtain rfl : place = 2 := by simpa [given] using hp
    decide
  have built : ((Start.search "shelf").builder.calls given).locator = .ok l := by decide +kernel
  refine ⟨words, built, (resolve_iff words built).2 ?_⟩
  intro name literal hv
  obtain ⟨rfl, rfl⟩ : name = "id" ∧ literal = "'a]b'" := by simpa [given] using hv
  exact Or.inl ⟨'\'', ['a', ']', 'b'], Or.inr rfl, by decide, by decide⟩

/-- a value that closes the bracket itself: what is rendered for it is a locator, and another one -/
theorem resolve_closingValue :
    let b := (Start.root "a").builder.calls [.carrying "k" (some "x][1")]
    let l : Locator := ⟨false, [⟨.child, "a", [.attributeEquals "k" "x][1"]⟩]⟩
    let other : Locator := ⟨false, [⟨.child, "a", [.attributeEquals "k" "x", .position 1]⟩]⟩
    b.locator = .ok l ∧ b.resolve = .ok other ∧ other ≠ l := by
  decide +kernel

end XmlStore.LocatorBuilder
