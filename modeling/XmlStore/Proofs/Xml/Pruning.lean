/-
What locators pick out after nodes were pruned.

Where no predicate counts places, a segment looks at nothing but names and attributes, and these stay as they are when other nodes go.
So a chain of segments through what is left was a chain before, and its end was not pruned: locators pick out nothing new. Once all
that a locator picks out has been pruned it picks out nothing, also when the content is written and read again. With places it may,
since what stood second may come to stand first.

Main statements:
- `Leaves.mem_ends`: a change that brings no elements brings no ends of segments that admit nothing new.
- `Forest.mem_ends_prune`: the ends of segments after pruning were ends before.
- `Document.select_prune`: nothing is picked out when all that was is pruned.
-/
import XmlStore.Proofs.Xml.Predicates

namespace XmlStore

open Xml

/-- a segment whose predicates count no places -/
def Segment.Unplaced (segment : Segment) : Prop :=
  ∀ predicate ∈ segment.predicates, predicate.Unplaced

def Locator.Unplaced (l : Locator) : Prop :=
  ∀ segment ∈ l.segments, segment.Unplaced

/-- whether a name and attributes are as a segment asks for -/
def Segment.admits (segment : Segment) (name : String) (attributes : Attributes) : Bool :=
  segment.matchesName name && segment.predicates.all (·.passes attributes)

namespace Xml

variable {ι κ : Type}

theorem applySegment_eq_filter {segment : Segment} (h : segment.Unplaced) (group : List (Element ι)) :
    applySegment segment group = group.filter fun e => segment.admits e.name e.attributes := by
  have folded : ∀ (predicates : List Predicate), (∀ predicate ∈ predicates, predicate.Unplaced) → ∀ group : List (Element ι),
      predicates.foldl applyPredicate group = group.filter fun e => predicates.all (·.passes e.attributes) := by
    intro predicates
    induction predicates with
    | nil => exact fun _ group => (List.filter_true group).symm
    | cons predicate rest ih =>
      intro unplaced group
      rw [List.foldl_cons, applyPredicate_eq_filter (unplaced _ List.mem_cons_self),
        ih (fun p hp => unplaced p (List.mem_cons_of_mem _ hp)), List.filter_filter]
      exact List.filter_congr fun e _ => by rw [List.all_cons, Bool.and_comm]
  rw [applySegment, folded _ h, List.filter_filter]
  exact List.filter_congr fun e _ => by rw [Segment.admits, Bool.and_comm]

theorem mem_applySegment {segment : Segment} (h : segment.Unplaced) {group : List (Element ι)} {e : Element ι} :
    e ∈ applySegment segment group ↔ e ∈ group ∧ segment.admits e.name e.attributes = true := by
  rw [applySegment_eq_filter h, List.mem_filter]

/-! ## Changes that bring no elements -/

/-- a change of content after which there are only elements in the place of some that were `left` -/
structure Leaves (left : Element ι → Prop) (replace : Element ι → Element κ) (change : Forest ι → Forest κ) : Prop where
  elements : ∀ f, ∀ x ∈ (change f).elements, ∃ e ∈ f.elements, left e ∧ x = replace e
  allElements : ∀ f, ∀ x ∈ (change f).allElements, ∃ e ∈ f.allElements, left e ∧ x = replace e
  children : ∀ e, (replace e).children = change e.children

/-- a segment without places that admits no element which it has not admitted in the old one's place -/
structure Loses (segment : Segment) (replace : Element ι → Element κ) : Prop where
  unplaced : segment.Unplaced
  admits : ∀ e, segment.admits (replace e).name (replace e).attributes = true → segment.admits e.name e.attributes = true

namespace Leaves

variable {left : Element ι → Prop} {replace : Element ι → Element κ} {change : Forest ι → Forest κ} {x : Element κ}
  (h : Leaves left replace change)

include h

theorem mem_applySegment {segment : Segment} (loses : Loses segment replace) {f : Forest ι}
    (hx : x ∈ applySegment segment (change f).elements) : ∃ e ∈ applySegment segment f.elements, left e ∧ x = replace e := by
  obtain ⟨here, admitted⟩ := (Xml.mem_applySegment loses.unplaced).1 hx
  obtain ⟨e, he, kept, rfl⟩ := h.elements f x here
  exact ⟨e, (Xml.mem_applySegment loses.unplaced).2 ⟨he, loses.admits e admitted⟩, kept, rfl⟩

theorem mem_stepFrom {segment : Segment} (loses : Loses segment replace) {f : Forest ι} (hx : x ∈ stepFrom segment (change f)) :
    ∃ e ∈ stepFrom segment f, left e ∧ x = replace e := by
  unfold stepFrom groups at hx ⊢
  cases ha : segment.axis with
  | child =>
    simp only [ha, List.flatMap_cons, List.flatMap_nil, List.append_nil] at hx ⊢
    exact h.mem_applySegment loses hx
  | descendant =>
    simp only [ha, List.flatMap_cons, List.mem_append, List.mem_flatMap, List.mem_map] at hx ⊢
    rcases hx with hx | ⟨_, ⟨y, hy, rfl⟩, hx⟩
    · obtain ⟨e, he, kept⟩ := h.mem_applySegment loses hx
      exact ⟨e, Or.inl he, kept⟩
    · -- the parent is in the place of one that was there before
      obtain ⟨parent, hp, -, rfl⟩ := h.allElements f y hy
      rw [h.children] at hx
      obtain ⟨e, he, kept⟩ := h.mem_applySegment loses hx
      exact ⟨e, Or.inr ⟨_, ⟨parent, hp, rfl⟩, he⟩, kept⟩

/-- **The ends of segments** are in the place of ends from before. -/
theorem mem_ends {segments : List Segment} (loses : ∀ segment ∈ segments, Loses segment replace) {f : Forest ι}
    (hx : x ∈ (change f).ends segments) : ∃ e ∈ f.ends segments, left e ∧ x = replace e := by
  induction segments generalizing f x with
  | nil => exact absurd hx List.not_mem_nil
  | cons segment rest ih =>
    have first := loses segment List.mem_cons_self
    cases rest with
    | nil => exact h.mem_stepFrom first hx
    | cons next rest =>
      rw [Forest.ends_cons, List.mem_flatMap] at hx
      obtain ⟨y, hy, hx⟩ := hx
      obtain ⟨middle, hm, -, rfl⟩ := h.mem_stepFrom first hy
      rw [h.children] at hx
      obtain ⟨e, he, kept⟩ := ih (fun s hs => loses s (List.mem_cons_of_mem _ hs)) hx
      exact ⟨e, List.mem_flatMap.2 ⟨middle, hm, he⟩, kept⟩

end Leaves

/-! ## Pruning -/

abbrev Element.pruned (hit : ι → Bool) (e : Element ι) : Element Unit :=
  e.recast (fun _ => ()) (Forest.prune hit)

namespace Forest

variable {hit : ι → Bool} {x : Element Unit}

theorem mem_elements_prune {f : Forest ι} (h : x ∈ (f.prune hit).elements) :
    ∃ e ∈ f.elements, hit e.mark = false ∧ x = e.pruned hit := by
  induction f with
  | nil => exact absurd h List.not_mem_nil
  | leaf i kind value next ih =>
    rw [prune] at h
    split at h
    · exact ih h
    · exact ih h
  | element i name attributes children next _ ihn =>
    rw [prune] at h
    split at h
    · obtain ⟨e, he, left⟩ := ihn h
      exact ⟨e, List.mem_cons_of_mem _ he, left⟩
    · rename_i kept
      rcases List.mem_cons.1 h with rfl | h
      · exact ⟨_, List.mem_cons_self, Bool.not_eq_true _ ▸ kept, rfl⟩
      · obtain ⟨e, he, left⟩ := ihn h
        exact ⟨e, List.mem_cons_of_mem _ he, left⟩

theorem mem_allElements_prune {f : Forest ι} (h : x ∈ (f.prune hit).allElements) :
    ∃ e ∈ f.allElements, hit e.mark = false ∧ x = e.pruned hit := by
  induction f with
  | nil => exact absurd h List.not_mem_nil
  | leaf i kind value next ih =>
    rw [prune] at h
    split at h
    · exact ih h
    · exact ih h
  | element i name attributes children next ihc ihn =>
    rw [allElements_element]
    have beside : x ∈ (next.prune hit).allElements → ∃ e ∈ (⟨i, name, attributes, children⟩ : Element ι) ::
        (children.allElements ++ next.allElements), hit e.mark = false ∧ x = e.pruned hit := by
      intro h
      obtain ⟨e, he, left⟩ := ihn h
      exact ⟨e, List.mem_cons_of_mem _ (List.mem_append_right _ he), left⟩
    rw [prune] at h
    split at h
    · exact beside h
    · rename_i kept
      rw [allElements_element, List.mem_cons, List.mem_append] at h
      rcases h with rfl | h | h
      · exact ⟨_, List.mem_cons_self, Bool.not_eq_true _ ▸ kept, rfl⟩
      · obtain ⟨e, he, left⟩ := ihc h
        exact ⟨e, List.mem_cons_of_mem _ (List.mem_append_left _ he), left⟩
      · exact beside h

theorem leaves_prune (hit : ι → Bool) : Leaves (fun e : Element ι => hit e.mark = false) (Element.pruned hit) (prune hit) where
  elements _ _ h := mem_elements_prune h
  allElements _ _ h := mem_allElements_prune h
  children _ := rfl

/-- **Pruning brings nothing new**: the ends of segments without places are ends from before that were not pruned. -/
theorem mem_ends_prune {segments : List Segment} (h : ∀ segment ∈ segments, segment.Unplaced) {f : Forest ι}
    (hx : x ∈ (f.prune hit).ends segments) : ∃ e ∈ f.ends segments, hit e.mark = false ∧ x = e.pruned hit :=
  (leaves_prune hit).mem_ends (fun segment hs => ⟨h segment hs, fun _ admitted => admitted⟩) hx

end Forest

/-- **Nothing is picked out** by a locator without places after all that it picked out was pruned and the content was read again. -/
theorem Document.select_prune {d : Document} (hd : d.Numbered) {l : Locator} (h : l.Unplaced) :
    (ofForest (d.attached.prune fun m => decide (m ∈ (d.select l).map Element.mark)).joinTexts).select l = [] := by
  rw [select_eq_nil_iff (numbered_ofForest _), ofForest, Forest.erase_number, recasts_joinTexts.ends, List.map_eq_nil_iff,
    List.eq_nil_iff_forall_not_mem]
  intro x hx
  obtain ⟨e, he, kept, -⟩ := Forest.mem_ends_prune h hx
  have picked : e ∈ d.select l := by
    rw [select_eq_picked hd]
    exact Forest.mem_picked.2 he
  exact absurd (List.mem_map_of_mem picked) (of_decide_eq_false kept)

end Xml

end XmlStore
