/-
Changes that locators do not see.

A locator looks at the elements, at their names, and at the attributes that its predicates ask for. All that it looks at is the outline
of the content: the elements without texts and comments between them, and with the attributes of some names only (`Forest.outline`). So a
change of one element that keeps the outline keeps what a locator picks out, and places among it, also when the content is written and
read again. Setting a text is such a change, and so is setting or removing an attribute that no predicate asks for.

Main statements:
- `Forest.picked_modify`: segments that do not see a change of the first element that they pick out pick it out first afterwards.
- `Document.select_unseen`: so does a locator after the content was written and read again.
- `Forest.text_withText`, `Forest.textWith_eq`: the string value once a text was set.
-/
import XmlStore.Proofs.Xml.Locality

namespace XmlStore

open Xml

/-- a segment that asks for no attributes but those of some names -/
def Segment.AsksOnly (looked : String → Bool) (segment : Segment) : Prop :=
  ∀ predicate ∈ segment.predicates, ∀ asked ∈ predicate.attribute?, looked asked = true

namespace Xml

variable {ι : Type}

/-! ## Attributes that are looked at -/

namespace Attributes

variable {looked : String → Bool} {name : String}

/-- the attributes of some names -/
def among (looked : String → Bool) (attributes : Attributes) : Attributes :=
  attributes.filter fun a => looked a.1

theorem get?_among {asked : String} (h : looked asked = true) (attributes : Attributes) :
    (attributes.among looked).get? asked = attributes.get? asked := by
  induction attributes with
  | nil => rfl
  | cons first rest ih =>
    obtain ⟨key, value⟩ := first
    by_cases kept : looked key = true
    · have shown : among looked ((key, value) :: rest) = (key, value) :: among looked rest := List.filter_cons_of_pos kept
      rw [get?] at ih
      rw [shown, get?, get?, List.lookup_cons, List.lookup_cons, ih]
      rfl
    · have other : asked ≠ key := fun same => kept (same ▸ h)
      have dropped : among looked ((key, value) :: rest) = among looked rest := List.filter_cons_of_neg kept
      rw [dropped, ih, get?, get?, List.lookup_cons, beq_false_of_ne other]

end Attributes

/-! ## The outline of content -/

/-- the elements of the content, without anything else between them and with the attributes of some names only -/
def Forest.outline (looked : String → Bool) : Forest ι → Forest ι
  | .nil => .nil
  | .leaf _ _ _ next => next.outline looked
  | .element mark name attributes children next =>
    .element mark name (attributes.among looked) (children.outline looked) (next.outline looked)

/-- an element with the outline of what is below it -/
def Element.outline (looked : String → Bool) (e : Element ι) : Element ι :=
  ⟨e.mark, e.name, e.attributes.among looked, e.children.outline looked⟩

theorem replaces_outline (looked : String → Bool) :
    Replaces (Element.outline looked) (Forest.outline looked : Forest ι → Forest ι) :=
  .of_cases rfl (fun _ _ _ _ => ⟨rfl, rfl⟩) (fun _ _ _ _ _ => rfl) fun _ => rfl

theorem overlooks_outline {looked : String → Bool} {segment : Segment} (h : segment.AsksOnly looked) :
    Overlooks segment (Element.outline looked : Element ι → Element ι) :=
  ⟨fun _ => rfl, fun predicate hp asked ha e => Attributes.get?_among (h predicate hp asked ha) e.attributes⟩

/-- a change of elements that keeps their outlines -/
def Unseen (looked : String → Bool) (change : Element ι → Element ι) : Prop :=
  ∀ e, (change e).outline looked = e.outline looked

section Changes

variable {looked : String → Bool} {change : Element ι → Element ι}

theorem Unseen.mark_eq (h : Unseen looked change) (e : Element ι) : (change e).mark = e.mark :=
  congrArg (·.mark) (h e)

theorem Forest.outline_withText (looked : String → Bool) (fresh : ι) (text : String) (f : Forest ι) :
    (f.withText fresh text).outline looked = f.outline looked := by
  induction f with
  | nil =>
    rw [withText]
    split <;> rfl
  | leaf mark kind value next ih =>
    rw [withText]
    split
    · split <;> rfl
    · exact ih
  | element mark name attributes children next _ ihn => rw [withText, outline, outline, ihn]

theorem unseen_withText (fresh : ι) (text : String) :
    Unseen looked fun e : Element ι => { e with children := e.children.withText fresh text } := by
  intro e
  rw [Element.outline, Element.outline, Forest.outline_withText]

namespace Forest

variable [DecidableEq ι]

theorem outline_modify (unseen : Unseen looked change) (f : Forest ι) (mark : ι) :
    (f.modify mark change).outline looked = f.outline looked := by
  induction f with
  | nil => rfl
  | leaf i kind value next ih => exact ih
  | element i name attributes children next ihc ihn =>
    rw [modify]
    split
    · have same := unseen ⟨i, name, attributes, children⟩
      simp only [Element.outline, Element.mk.injEq] at same
      obtain ⟨-, names, attributes, children⟩ := same
      simp only [outline, names, attributes, children]
    · rw [outline, outline, ihc, ihn]

theorem mem_allElements_modify {f : Forest ι} (hf : f.marks.Nodup) {e : Element ι} (he : e ∈ f.allElements)
    (same : (change e).mark = e.mark) : change e ∈ (f.modify e.mark change).allElements := by
  induction f with
  | nil => exact absurd he List.not_mem_nil
  | leaf i kind value next ih =>
    rw [marks_leaf, List.nodup_cons] at hf
    exact ih hf.2 he
  | element i name attributes children next ihc ihn =>
    have apart := apart hf
    have known : ∀ {g : Forest ι}, e ∈ g.allElements → e.mark ∈ g.marks := fun h => mem_marks_of_mem (mem_allElements.1 h)
    rw [allElements_element, List.mem_cons, List.mem_append] at he
    rw [modify]
    rcases he with rfl | he | he
    · rw [if_pos rfl, allElements_element]
      generalize change ⟨i, name, attributes, children⟩ = changed at same ⊢
      cases changed
      cases same
      exact List.mem_cons_self
    · have other : i ≠ e.mark := fun eq => apart.notBelow (eq ▸ known he)
      rw [if_neg other, allElements_element]
      exact List.mem_cons_of_mem _ (List.mem_append_left _ (ihc apart.below he))
    · have other : i ≠ e.mark := fun eq => apart.notBeside (eq ▸ known he)
      rw [if_neg other, allElements_element]
      exact List.mem_cons_of_mem _ (List.mem_append_right _ (ihn apart.beside he))

/-- **A change that is not seen** leaves the first element that segments pick out the first one. -/
theorem picked_modify {f : Forest ι} (hf : f.marks.Nodup) {segments : List Segment} {first : Element ι} {rest : List (Element ι)}
    (hits : f.picked segments = first :: rest) (asks : ∀ segment ∈ segments, segment.AsksOnly looked)
    (unseen : Unseen looked change) (distinct : (f.modify first.mark change).marks.Nodup) :
    ∃ rest', (f.modify first.mark change).picked segments = change first :: rest' := by
  have outlined : ∀ {g : Forest ι}, g.marks.Nodup →
      (g.outline looked).picked segments = (g.picked segments).map (Element.outline looked) := fun hg =>
    (replaces_outline looked).picked hg (fun _ _ _ _ same => congrArg (·.mark) same)
      fun segment hs => overlooks_outline (asks segment hs)
  -- both contents have one outline, so the marks of what is picked out are the same, and a mark tells the element
  have same := outlined distinct
  rw [outline_modify unseen, outlined hf, hits, List.map_cons] at same
  obtain ⟨found, rest', picked, foundOutline, -⟩ := List.map_eq_cons_iff.1 same.symm
  refine ⟨rest', ?_⟩
  have there : first ∈ f.allElements := mem_allElements_of_mem_ends (mem_picked.1 (hits ▸ List.mem_cons_self))
  have foundThere : found ∈ (f.modify first.mark change).allElements :=
    mem_allElements_of_mem_ends (mem_picked.1 (picked ▸ List.mem_cons_self))
  have marks : found.mark = (change first).mark := (congrArg (·.mark) foundOutline).trans (unseen.mark_eq first).symm
  rw [picked, eq_of_mark_eq distinct foundThere (mem_allElements_modify hf there (unseen.mark_eq first)) marks]

end Forest

end Changes

/-- **A locator does not see** such a change either when the content is written and read again. -/
theorem Document.select_unseen {d : Document} (hd : d.Numbered) {l : Locator} {first : Element Nat} {rest : List (Element Nat)}
    (hits : d.select l = first :: rest) {looked : String → Bool} (asks : ∀ segment ∈ l.segments, segment.AsksOnly looked)
    {change : Element Nat → Element Nat} (unseen : Unseen looked change)
    (distinct : (d.attached.modify first.mark change).marks.Nodup) :
    ∃ first' rest', (ofForest (d.attached.modify first.mark change).erase.joinTexts).select l = first' :: rest' ∧
      (change first).Alike first' := by
  rw [select_eq_picked hd] at hits
  obtain ⟨rest', picked⟩ := Forest.picked_modify hd.attached hits asks unseen distinct
  obtain ⟨renumber, again⟩ := select_reread distinct
  have here := again l
  rw [picked, List.map_cons] at here
  exact ⟨_, _, here, (change first).alike_renewed renumber⟩

/-! ## Texts that are set -/

namespace Forest

/-- the string value of siblings with a text in place of what their first text or CDATA says, or after all of them if there is none -/
def textWith (text : String) : Forest ι → String
  | .nil => text
  | .leaf _ kind _ next => if kind.isText then text ++ next.text else next.textWith text
  | .element _ _ _ children next => children.text ++ next.textWith text

/-- **The string value once a text was set.** -/
theorem text_withText (fresh : ι) (text : String) (f : Forest ι) : (f.withText fresh text).text = f.textWith text := by
  have gone : ∀ {shown : String}, text.isEmpty = true → text ++ shown = shown := by
    intro shown empty
    rw [String.isEmpty_iff.1 empty, String.empty_append]
  induction f with
  | nil =>
    rw [withText, textWith]
    split
    · rename_i empty
      rw [Forest.text, String.isEmpty_iff.1 empty]
    · exact String.append_empty
  | leaf mark kind value next ih =>
    rw [withText, textWith]
    split
    · split
      · rename_i empty
        rw [gone empty]
      · rfl
    · rename_i comment
      rw [Forest.text, if_neg comment, ih]
  | element mark name attributes children next _ ihn => rw [withText, textWith, Forest.text, ihn]

/-- the text stands between what is before and what is after the first text or CDATA, or after everything -/
theorem textWith_eq (f : Forest ι) :
    (∃ (before : Forest ι) (mark : ι) (kind : LeafKind) (value : String) (after : Forest ι),
      f = before.append (.leaf mark kind value after) ∧ kind.isText = true ∧ before.hasText = false ∧
        ∀ text, f.textWith text = before.text ++ text ++ after.text) ∨
    (f.hasText = false ∧ ∀ text, f.textWith text = f.text ++ text) := by
  induction f with
  | nil => exact Or.inr ⟨rfl, fun text => (String.empty_append).symm⟩
  | leaf mark kind value next ih =>
    by_cases hk : kind.isText = true
    · refine Or.inl ⟨.nil, mark, kind, value, next, rfl, hk, rfl, fun text => ?_⟩
      rw [textWith, if_pos hk, Forest.text, String.empty_append]
    · have comment : kind.isText = false := Bool.not_eq_true _ ▸ hk
      rcases ih with ⟨before, mark', kind', value', after, rfl, hk', none, whole⟩ | ⟨none, whole⟩
      · refine Or.inl ⟨.leaf mark kind value before, mark', kind', value', after, rfl, hk', ?_, fun text => ?_⟩
        · rw [hasText, comment, none]
          rfl
        · rw [textWith, if_neg hk, whole, Forest.text, if_neg hk]
      · refine Or.inr ⟨?_, fun text => ?_⟩
        · rw [hasText, comment, none]
          rfl
        · rw [textWith, if_neg hk, whole, Forest.text, if_neg hk]
  | element mark name attributes children next _ ihn =>
    rcases ihn with ⟨before, mark', kind', value', after, rfl, hk', none, whole⟩ | ⟨none, whole⟩
    · refine Or.inl ⟨.element mark name attributes children before, mark', kind', value', after, rfl, hk', none, fun text => ?_⟩
      simp only [textWith, whole, Forest.text, String.append_assoc]
    · refine Or.inr ⟨none, fun text => ?_⟩
      simp only [textWith, whole, Forest.text, String.append_assoc]

/-- a text is all of the string value if nothing is left without it -/
theorem textWith_alone {f : Forest ι} (alone : f.textWith "" = "") (text : String) : f.textWith text = text := by
  rcases f.textWith_eq with ⟨before, mark, kind, value, after, -, -, -, whole⟩ | ⟨-, whole⟩
  · rw [whole, String.append_empty, String.append_eq_empty_iff] at alone
    rw [whole, alone.1, alone.2, String.empty_append, String.append_empty]
  · rw [whole, String.append_empty] at alone
    rw [whole, alone, String.empty_append]

end Forest

end Xml

end XmlStore
