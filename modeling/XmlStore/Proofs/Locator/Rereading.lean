/-
Written locators, read again.

`Locator.Writable` says of the parts of a locator what their textual form needs to be read as those parts again: names are names,
places are words from 1 on, and the literal of an attribute test stands between quotes or ends where the bracket closes it. The
textual form of such a locator is written by the rules of the grammar, and no other locator has any text that is.

Main statements:
- `Locator.parse_display`: a locator that can be written is read back from its textual form.
- `Locator.writable_of_parse`: every locator that is read can be written.
- `Locator.display_agrees`: so no other locator is read back.
-/
import XmlStore.Proofs.Locator.Grammar

namespace XmlStore

open Text

/-! ## What can be written -/

/-- what a predicate must be to be read back -/
def Predicate.Writable : Predicate → Prop
  | .position place => 1 ≤ place ∧ place < UInt64.size
  | .hasAttribute name => isName name = true
  | .attributeEquals name literal => isName name = true ∧ (QuotedLiteral literal.toList ∨ BareLiteral literal.toList)

/-- what a segment must be to be read back -/
structure Segment.Writable (segment : Segment) : Prop where
  name : segment.name = "*" ∨ isName segment.name = true
  predicates : ∀ p ∈ segment.predicates, p.Writable

/-- what a locator must be to be read back -/
structure Locator.Writable (l : Locator) : Prop where
  nonempty : l.segments ≠ []
  start : l.relative = true → ∀ segment ∈ l.segments.head?, segment.axis = .child
  segments : ∀ segment ∈ l.segments, segment.Writable

/-! ## The textual form is written by the rules -/

theorem Series.flatMap {α : Type} {text : α → List Char → Prop} {f : α → List Char} {as : List α} (h : ∀ a ∈ as, text a (f a)) :
    Series text as (as.flatMap f) := by
  induction as with
  | nil => exact .nil
  | cons a as ih => exact .cons (h a List.mem_cons_self) (ih fun b hb => h b (List.mem_cons_of_mem a hb))

theorem Predicate.Writable.spelled {p : Predicate} (h : p.Writable) : p.Spelled p.render := by
  have none : Blanks [] := by simp [Blanks]
  -- the textual form has no blanks, no sign, and no more digits than it needs
  have bracketed {body : List Char} (hp : p.Body body) (e : p.render = '[' :: body ++ [']']) : p.Spelled p.render := by
    have spelled : p.Spelled ('[' :: [] ++ body ++ [] ++ [']']) := .mk none hp none
    rw [e]
    simpa using spelled
  cases p with
  | position place =>
    refine bracketed (.position (Or.inl rfl) Nat.toDigits_ne_nil ?_ ?_ h.1 h.2) rfl
    · exact fun c hc => Nat.isDigit_of_mem_toDigits (by decide) (by decide) hc
    · exact Nat.ofDigitChars_toDigits (by decide) (by decide)
  | hasAttribute name => exact bracketed (.hasAttribute h) rfl
  | attributeEquals name literal => exact bracketed (.attributeEquals h.1 none none h.2) (by simp [render])

theorem Segment.Writable.spelled {segment : Segment} (h : segment.Writable) : segment.Spelled segment.render :=
  .mk h.name (Series.flatMap fun p hp => (h.predicates p hp).spelled)

theorem Locator.Writable.spelled {l : Locator} (h : l.Writable) : l.Spelled l.render := by
  obtain ⟨relative, segments⟩ := l
  obtain ⟨segment, segments, rfl⟩ := List.exists_cons_of_ne_nil h.nonempty
  have steps {l : List Segment} (hl : ∀ s ∈ l, s ∈ segment :: segments) : Series Segment.Step l (renderSegments l) :=
    Series.flatMap fun s hs => .mk (h.segments s (hl s hs)).spelled
  cases relative with
  | false => exact .absolute (steps fun _ hs => hs)
  | true =>
    have child : segment.axis = .child := h.start rfl segment rfl
    have first := (h.segments segment List.mem_cons_self).spelled
    obtain ⟨axis, name, predicates⟩ := segment
    obtain rfl : axis = .child := child
    exact .relative rfl first (steps fun _ hs => List.mem_cons_of_mem _ hs)

/-! ## What is written by the rules can be written -/

theorem Series.exists_of_mem {α : Type} {text : α → List Char → Prop} {as : List α} {s : List Char} (h : Series text as s) {a : α}
    (ha : a ∈ as) : ∃ t, text a t := by
  induction h with
  | nil => exact absurd ha List.not_mem_nil
  | cons h _ ih =>
    rcases List.mem_cons.1 ha with rfl | ha
    · exact ⟨_, h⟩
    · exact ih ha

theorem Predicate.Spelled.writable {p : Predicate} {s : List Char} (h : p.Spelled s) : p.Writable := by
  obtain ⟨-, h, -⟩ := h
  cases h with
  | position _ _ _ _ one word => exact ⟨one, word⟩
  | hasAttribute hn => exact hn
  | attributeEquals hn _ _ hl => exact ⟨hn, hl⟩

theorem Segment.Spelled.writable {segment : Segment} {s : List Char} (h : segment.Spelled s) : segment.Writable := by
  obtain ⟨hn, hp⟩ := h
  exact ⟨hn, fun p hm => (hp.exists_of_mem hm).elim fun _ spelled => spelled.writable⟩

theorem Locator.Spelled.writable {l : Locator} {s : List Char} (h : l.Spelled s) : l.Writable := by
  have step {segment : Segment} : (∃ t, segment.Step t) → segment.Writable := fun ⟨_, ⟨spelled⟩⟩ => spelled.writable
  cases h with
  | absolute row => exact ⟨by simp, by simp, fun _ hs => step (row.exists_of_mem hs)⟩
  | relative child spelled row =>
    refine ⟨by simp, by simpa using child, ?_⟩
    intro segment hs
    rcases List.mem_cons.1 hs with rfl | hs
    · exact spelled.writable
    · exact step (row.exists_of_mem hs)

namespace Locator

/-! ## Reading the textual form -/

/-- **A locator that can be written is read back.** -/
theorem parse_display {l : Locator} (h : l.Writable) : parse l.display = .ok l := by
  have none : Blanks [] := by simp [Blanks]
  exact parse_of_written ⟨[], l.render, [], none, h.spelled, none, by simp [display]⟩

/-- **What is read can be written.** -/
theorem writable_of_parse {text : String} {l : Locator} (h : parse text = .ok l) : l.Writable := by
  obtain ⟨-, s, -, -, spelled, -, -⟩ := written_of_parse h
  exact spelled.writable

/-- **Writing and reading agree** exactly on the locators that can be written, and only such are ever read. -/
theorem display_agrees :
    (∀ l : Locator, parse l.display = .ok l ↔ l.Writable) ∧
      ∀ text l, parse text = .ok l → l.Writable ∧ parse l.display = .ok l := by
  refine ⟨fun l => ⟨fun h => writable_of_parse h, parse_display⟩, ?_⟩
  intro text l h
  have writable := writable_of_parse h
  exact ⟨writable, parse_display writable⟩

theorem display_agrees_blanks :
    let l : Locator := ⟨false, [⟨.descendant, "a", [.attributeEquals "k" "x y", .position 2]⟩, ⟨.child, "*", []⟩]⟩
    parse "  //a[ @k = x y ][+02]/* " = .ok l ∧ l.display = "//a[@k=x y][2]/*" ∧ parse l.display = .ok l := by
  intro l
  have read : parse "  //a[ @k = x y ][+02]/* " =
      .ok ⟨false, [⟨.descendant, "a", [.attributeEquals "k" "x y", .position 2]⟩, ⟨.child, "*", []⟩]⟩ := by
    decide +kernel
  exact ⟨read, by decide +kernel, (display_agrees.2 _ _ read).2⟩

end Locator

end XmlStore
