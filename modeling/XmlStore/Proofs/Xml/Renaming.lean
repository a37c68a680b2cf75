/-
What locators pick out after an element was renamed.

An element that gets another name may stand above others, and may be reached in many ways, through wildcards and at any depth. Where
no predicate counts places, a segment that does not ask for the new name admits nothing then that it has not admitted before; and on the way
to an element stand only elements that have kept their names. So if one element is all that a locator picks out, and nothing is picked out
with the new name in the last segment, then the element has moved from the one locator to the other, and nothing else has come or gone.

Main statements:
- `Forest.picked_retitled_old`, `Forest.picked_retitled_new`: what the segments pick out then, with the old name and with the new one.
- `Document.select_renamed`: what the locators pick out when the content is written and read again.
-/
import XmlStore.Proofs.Xml.Locality
import XmlStore.Proofs.Xml.Pruning

namespace XmlStore.Xml

variable {ι κ : Type}

/-! ## Segments without places -/

/-- a segment without places leaves what it admits of all that stands where it looks -/
theorem stepFrom_eq_filter {segment : Segment} (h : segment.Unplaced) (below : Forest ι) :
    stepFrom segment below =
      (stepFrom (.plain segment.axis "*") below).filter fun e => segment.admits e.name e.attributes := by
  have all : ∀ group : List (Element ι), applySegment (.plain segment.axis "*") group = group := fun group => List.filter_true group
  rw [stepFrom, stepFrom, List.filter_flatMap]
  refine List.flatMap_congr fun group _ => ?_
  rw [applySegment_eq_filter h, all]

theorem overlooks_any (axis : Axis) {replace : Element ι → Element κ} : Overlooks (.plain axis "*") replace :=
  ⟨fun _ => rfl, fun _ none => absurd none List.not_mem_nil⟩

theorem Replaces.leaves {replace : Element ι → Element κ} {change : Forest ι → Forest κ} (h : Replaces replace change) :
    Leaves (fun _ => True) replace change where
  elements f x hx := by
    rw [h.elements] at hx
    obtain ⟨e, he, rfl⟩ := List.mem_map.1 hx
    exact ⟨e, he, trivial, rfl⟩
  allElements f x hx := by
    rw [h.allElements] at hx
    obtain ⟨e, he, rfl⟩ := List.mem_map.1 hx
    exact ⟨e, he, trivial, rfl⟩
  children := h.children

variable [DecidableEq ι]

theorem Forest.picked_eq_singleton {f : Forest ι} (hf : f.marks.Nodup) {segments : List Segment} {e : Element ι} :
    f.picked segments = [e] ↔ ∀ x, x ∈ f.ends segments ↔ x = e := by
  have distinct : (f.picked segments).Nodup := (nodup_allElements hf).filter _
  rw [← List.perm_singleton, List.perm_ext_iff_of_nodup distinct (List.nodup_singleton e)]
  exact forall_congr' fun x => by rw [mem_picked, List.mem_singleton]

/-! ## One element under another name -/

/-- the content with the element of a mark under another name -/
def Forest.retitled (mark : ι) (name : String) : Forest ι → Forest ι
  | .nil => .nil
  | .leaf i kind value next => .leaf i kind value (next.retitled mark name)
  | .element i old attributes children next =>
    .element i (if i = mark then name else old) attributes (children.retitled mark name) (next.retitled mark name)

def Element.retitled (mark : ι) (name : String) (e : Element ι) : Element ι :=
  ⟨e.mark, if e.mark = mark then name else e.name, e.attributes, e.children.retitled mark name⟩

theorem replaces_retitled (mark : ι) (name : String) : Replaces (Element.retitled mark name) (Forest.retitled mark name) :=
  .of_cases rfl (fun _ _ _ _ => ⟨rfl, rfl⟩) (fun _ _ _ _ _ => rfl) fun _ => rfl

theorem Forest.actsAt_retitled (mark : ι) (name : String) : ActsAt mark (retitled mark name) where
  nil := rfl
  leaf _ _ _ _ := rfl
  element _ _ _ _ other := by rw [retitled, if_neg other]

theorem Forest.marks_retitled (f : Forest ι) (mark : ι) (name : String) : (f.retitled mark name).marks = f.marks := by
  induction f with
  | nil => rfl
  | leaf i kind value next ih => rw [retitled, marks_leaf, marks_leaf, ih]
  | element i old attributes children next ihc ihn => rw [retitled, marks_element, marks_element, ihc, ihn]

theorem Forest.modify_rename {f : Forest ι} (hf : f.marks.Nodup) (mark : ι) (name : String) :
    (f.modify mark fun e => { e with name }) = f.retitled mark name := by
  induction f with
  | nil => rfl
  | leaf i kind value next ih =>
    rw [marks_leaf, List.nodup_cons] at hf
    rw [modify, retitled, ih hf.2]
  | element i old attributes children next ihc ihn =>
    have apart := apart hf
    rw [modify, retitled]
    by_cases here : i = mark
    · subst here
      rw [if_pos rfl, if_pos rfl, (actsAt_retitled i name).away apart.notBelow, (actsAt_retitled i name).away apart.notBeside]
    · rw [if_neg here, if_neg here, ihc apart.below, ihn apart.beside]

/-- a segment that does not ask for the new name admits nothing new -/
theorem loses_retitled {segment : Segment} (unplaced : segment.Unplaced) {name : String} (free : segment.name ≠ name) (mark : ι) :
    Loses segment (Element.retitled mark name) := by
  refine ⟨unplaced, fun e admitted => ?_⟩
  by_cases here : e.mark = mark
  · rw [Element.retitled, if_pos here, Segment.admits, Segment.matchesName, beq_false_of_ne free, Bool.or_false] at admitted
    rw [Segment.admits, Segment.matchesName]
    rw [Bool.and_eq_true] at admitted ⊢
    exact ⟨by rw [admitted.1, Bool.true_or], admitted.2⟩
  · rwa [Element.retitled, if_neg here] at admitted

namespace Forest

variable {f : Forest ι} {earlier : List Segment} {last : Segment} {name : String} {e x : Element ι}

/-- the element is still reached on every way on which it was -/
theorem mem_ends_retitled (hf : f.marks.Nodup) (unplaced : ∀ segment ∈ earlier, segment.Unplaced) {axis : Axis}
    (he : e ∈ f.ends (earlier ++ [.plain axis "*"])) :
    e.retitled e.mark name ∈ (f.retitled e.mark name).ends (earlier ++ [.plain axis "*"]) := by
  have reached : ∀ (g : Forest ι) (axis : Axis) {x : Element ι}, x ∈ stepFrom (.plain axis "*") g →
      x.retitled e.mark name ∈ stepFrom (.plain axis "*") (g.retitled e.mark name) := by
    intro g axis x hx
    rw [(replaces_retitled e.mark name).stepFrom (overlooks_any axis)]
    exact List.mem_map_of_mem hx
  induction earlier generalizing f with
  | nil => exact reached f axis he
  | cons segment rest ih =>
    rw [List.cons_append, ends_cons_concat, List.mem_flatMap] at he ⊢
    obtain ⟨middle, hm, he⟩ := he
    have here : Node.element middle ∈ f.nodes := mem_allElements.1 (mem_allElements_of_mem_stepFrom hm)
    refine ⟨middle.retitled e.mark name, ?_, ih (nodup_children hf here) (fun s hs => unplaced s (List.mem_cons_of_mem _ hs)) he⟩
    -- an element above the renamed one has kept its name
    have below : e.mark ∈ middle.children.marks := mem_marks_of_mem (mem_allElements.1 (mem_allElements_of_mem_ends he))
    have notBelow : middle.mark ∉ middle.children.marks := notMem_children hf here
    have other : middle.mark ≠ e.mark := fun same => notBelow (same ▸ below)
    rw [stepFrom_eq_filter (unplaced segment List.mem_cons_self), List.mem_filter] at hm ⊢
    refine ⟨reached f segment.axis hm.1, ?_⟩
    rw [Element.retitled, if_neg other]
    exact hm.2

variable (hf : f.marks.Nodup) (unplaced : ∀ segment ∈ earlier, segment.Unplaced) (lastUnplaced : last.Unplaced)
  (free : ∀ segment ∈ earlier, segment.name ≠ name) (hits : f.picked (earlier ++ [last]) = [e])

include hf unplaced lastUnplaced free hits

/-- **Under the old name** nothing is left. -/
theorem picked_retitled_old (literal : last.name ≠ "*") (other : name ≠ last.name) :
    (f.retitled e.mark name).picked (earlier ++ [last]) = [] := by
  rw [List.eq_nil_iff_forall_not_mem]
  intro x hx
  rw [mem_picked] at hx
  have loses : ∀ segment ∈ earlier ++ [last], Loses segment (Element.retitled e.mark name) := by
    intro segment hs
    rcases List.mem_append.1 hs with hs | hs
    · exact loses_retitled (unplaced segment hs) (free segment hs) e.mark
    · cases List.mem_singleton.1 hs
      exact loses_retitled lastUnplaced (Ne.symm other) e.mark
  obtain ⟨e', he', -, rfl⟩ := (replaces_retitled e.mark name).leaves.mem_ends loses hx
  obtain rfl : e' = e := ((picked_eq_singleton hf).1 hits e').1 he'
  rw [ends_filter (stepFrom_eq_filter lastUnplaced), List.mem_filter, Segment.admits, Bool.and_eq_true] at hx
  have matched := hx.2.1
  rw [Element.retitled, if_pos rfl, Segment.matchesName, Bool.or_eq_true, beq_iff_eq, beq_iff_eq] at matched
  exact matched.elim literal (Ne.symm other)

/-- **Under the new name** there is that element and nothing else, if there was nothing before. -/
theorem picked_retitled_new (none : f.ends (earlier ++ [{ last with name }]) = []) :
    (f.retitled e.mark name).picked (earlier ++ [{ last with name }]) = [{ e with name }] := by
  have renamedUnplaced : ({ last with name } : Segment).Unplaced := lastUnplaced
  have there : e ∈ f.ends (earlier ++ [last]) := ((picked_eq_singleton hf).1 hits e).2 rfl
  have inside := mem_allElements_of_mem_ends there
  have notBelow : e.mark ∉ e.children.marks := notMem_children hf (mem_allElements.1 inside)
  have itself : e.retitled e.mark name = { e with name } := by
    rw [Element.retitled, if_pos rfl, (actsAt_retitled e.mark name).away notBelow]
  have distinct : (f.retitled e.mark name).marks.Nodup := (f.marks_retitled e.mark name).symm ▸ hf
  rw [picked_eq_singleton distinct]
  intro x
  rw [ends_filter (stepFrom_eq_filter renamedUnplaced), List.mem_filter]
  rw [ends_filter (stepFrom_eq_filter lastUnplaced), List.mem_filter] at there
  constructor
  · rintro ⟨hx, admitted⟩
    have loses : ∀ segment ∈ earlier ++ [.plain last.axis "*"], Loses segment (Element.retitled e.mark name) := by
      intro segment hs
      rcases List.mem_append.1 hs with hs | hs
      · exact loses_retitled (unplaced segment hs) (free segment hs) e.mark
      · cases List.mem_singleton.1 hs
        exact ⟨fun _ none => absurd none List.not_mem_nil, fun _ _ => rfl⟩
    obtain ⟨e', he', -, rfl⟩ := (replaces_retitled e.mark name).leaves.mem_ends loses hx
    by_cases here : e'.mark = e.mark
    · obtain rfl := eq_of_mark_eq hf (mem_allElements_of_mem_ends he') inside here
      exact itself
    · -- an element that has kept its name would have been picked out before
      rw [Element.retitled, if_neg here] at admitted
      have before : e' ∈ f.ends (earlier ++ [{ last with name }]) := by
        rw [ends_filter (stepFrom_eq_filter renamedUnplaced), List.mem_filter]
        exact ⟨he', admitted⟩
      rw [none] at before
      exact absurd before List.not_mem_nil
  · rintro rfl
    refine ⟨itself ▸ mem_ends_retitled hf unplaced there.1, ?_⟩
    have passed := there.2
    rw [Segment.admits, Bool.and_eq_true] at passed ⊢
    exact ⟨by simp [Segment.matchesName], passed.2⟩

end Forest

/-- **A renamed element has moved** from a locator to the one with the new name, when the content is written and read again. -/
theorem Document.select_renamed {d : Document} (hd : d.Numbered) {relative : Bool} {earlier : List Segment} {last : Segment}
    {name : String} {e : Element Nat} (unplaced : Locator.Unplaced ⟨relative, earlier ++ [last]⟩) (literal : last.name ≠ "*")
    (other : name ≠ last.name) (free : ∀ segment ∈ earlier, segment.name ≠ name) (hits : d.select ⟨relative, earlier ++ [last]⟩ = [e])
    (none : d.select ⟨relative, earlier ++ [{ last with name }]⟩ = []) :
    let d' := ofForest (d.attached.modify e.mark fun e => { e with name }).erase.joinTexts
    d'.select ⟨relative, earlier ++ [last]⟩ = [] ∧
      ∃ e', d'.select ⟨relative, earlier ++ [{ last with name }]⟩ = [e'] ∧ ({ e with name } : Element Nat).Alike e' := by
  intro d'
  have once := hd.attached
  have earlierUnplaced : ∀ segment ∈ earlier, segment.Unplaced := fun s hs => unplaced s (List.mem_append_left _ hs)
  have lastUnplaced : last.Unplaced := unplaced last (List.mem_append_right _ List.mem_cons_self)
  rw [select_eq_picked hd] at hits none
  have nowhere : d.attached.ends (earlier ++ [{ last with name }]) = [] := by
    rw [List.eq_nil_iff_forall_not_mem] at none ⊢
    exact fun x hx => none x (Forest.mem_picked.2 hx)
  have distinct : (d.attached.retitled e.mark name).marks.Nodup := (d.attached.marks_retitled e.mark name).symm ▸ once
  obtain ⟨renumber, again⟩ := select_reread distinct
  have reread : d' = ofForest (d.attached.retitled e.mark name).erase.joinTexts := by
    rw [← Forest.modify_rename once]
  rw [reread, again, again, Forest.picked_retitled_old once earlierUnplaced lastUnplaced free hits literal other,
    Forest.picked_retitled_new once earlierUnplaced lastUnplaced free hits nowhere]
  exact ⟨rfl, _, rfl, Element.alike_renewed renumber _⟩

end XmlStore.Xml
