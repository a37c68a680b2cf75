/-
What locators pick out from any element, attached or not.

What segments reach is put in order by one list of all elements: first those of the text, as they stand there, and then those that
were taken out, by their numbers. So from an element of the text a locator picks out its ends in their order below that element. An
element that was taken out has no place in the text, nor has anything below it, and there the ends come in the order of their
numbers. A node gets its number when it is added, whatever stands after it; so the two orders part where something was added below an
element that has others after it.

Main statements:
- `Document.selectFrom_perm_picked`: what a locator picks out from any element are the ends of its segments below that element.
- `Document.selectFrom_ordered`: in which order a locator picks out elements from any element.
- `Document.not_ordered_outgrown`: an element that was taken out, and from which a locator does not pick out elements as they stand.
-/
import XmlStore.Proofs.Xml.Ends

namespace XmlStore.Xml.Document

variable {d : Document} {n : Nat} {e : Element Nat} {l : Locator}

/-! ## Locators from any element -/

/-- below an element that is found there are elements of the document, attached or not -/
theorem mem_orderedElements_of_element? (h : d.Numbered) (found : d.element? n = some e) : e ∈ d.orderedElements := by
  obtain ⟨-, ⟨inside, -⟩ | ⟨inside, -⟩⟩ := h.mem_of_element? found
  · exact mem_orderedElements.2 (Or.inl (Forest.mem_allElements.2 inside))
  · exact mem_orderedElements.2 (Or.inr (Forest.mem_allElements.2 inside))

theorem children_of_element? (h : d.Numbered) (found : d.element? n = some e) : d.children n = e.children := by
  obtain ⟨rfl, inside⟩ := h.mem_of_element? found
  exact h.children_of_mem (inside.imp And.left And.left)

theorem selectFrom_eq_filter (h : d.Numbered) (found : d.element? n = some e) (relative : l.relative = true) :
    d.selectFrom n l = d.orderedElements.filter (· ∈ e.children.ends l.segments) := by
  have known : ∀ f ∈ [e.children], ∀ e ∈ f.allElements, e ∈ d.orderedElements := by
    intro f hf e' he
    rw [List.mem_singleton.1 hf] at he
    exact mem_orderedElements_of_mem_children (mem_orderedElements_of_element? h found) he
  rw [selectFrom, if_pos relative, children_of_element? h found, walk_eq_filter h known, List.flatMap_singleton]

/-- a locator picks out its ends below the element where it starts, each once -/
theorem selectFrom_perm_picked (h : d.Numbered) (found : d.element? n = some e) (relative : l.relative = true) :
    (d.selectFrom n l).Perm (e.children.picked l.segments) := by
  have inside := mem_orderedElements_of_element? h found
  have once : e.children.allElements.Nodup := by
    rcases mem_orderedElements.1 inside with inside | inside
    · exact Forest.nodup_allElements (Forest.nodup_children h.attached (Forest.mem_allElements.1 inside))
    · exact Forest.nodup_allElements (Forest.nodup_children h.detached (Forest.mem_allElements.1 inside))
  rw [selectFrom_eq_filter h found relative]
  have distinct : (e.children.picked l.segments).Nodup := once.filter _
  refine (List.perm_ext_iff_of_nodup ((h.nodup_orderedElements.of_map _).filter _) distinct).2 ?_
  intro hit
  rw [Forest.mem_picked, List.mem_filter, decide_eq_true_iff]
  exact ⟨And.right, fun hit => ⟨mem_orderedElements_of_mem_children inside (Forest.mem_allElements_of_mem_ends hit), hit⟩⟩

/-- from an element that was taken out, elements are picked out in the order of their numbers -/
theorem pairwise_selectFrom_of_detached (h : d.Numbered) (found : d.element? n = some e) (relative : l.relative = true)
    (out : n ∈ d.detached.marks) : (d.selectFrom n l).Pairwise fun e f => e.mark < f.mark := by
  obtain ⟨-, ⟨-, stays⟩ | ⟨inside, -⟩⟩ := h.mem_of_element? found
  · exact absurd out stays
  have none : d.attached.allElements.filter (· ∈ e.children.ends l.segments) = [] := by
    rw [List.filter_eq_nil_iff]
    intro hit attached isEnd
    have below := Forest.mem_allElements_of_mem_ends (of_decide_eq_true isEnd)
    have detached := mem_allElements_of_mem_children (Forest.mem_allElements.2 inside) below
    exact h.disjoint (Forest.mem_marks_of_mem (Forest.mem_allElements.1 attached))
      (Forest.mem_marks_of_mem (Forest.mem_allElements.1 detached))
  rw [selectFrom_eq_filter h found relative, orderedElements, List.filter_append, none, List.nil_append]
  exact h.pairwise_detached.filter _

/-- **In which order elements are picked out from any element** by a relative locator: each once, and from an element of the text as
they stand below it. From an element that was taken out they come by their numbers, which is as they stand below it exactly if their
numbers ascend there. -/
theorem selectFrom_ordered (hb : d.Built) (found : d.element? n = some e) (relative : l.relative = true) :
    ((d.selectFrom n l).map Element.mark).Nodup ∧ (d.selectFrom n l).Perm (e.children.picked l.segments) ∧
      (n ∈ d.attached.marks → d.selectFrom n l = e.children.picked l.segments) ∧
      (n ∈ d.detached.marks →
        ((d.selectFrom n l).Pairwise fun e f => e.mark < f.mark) ∧
          (d.selectFrom n l = e.children.picked l.segments ↔
            (e.children.picked l.segments).Pairwise fun e f => e.mark < f.mark)) := by
  have h := hb.numbered
  have perm := selectFrom_perm_picked h found relative
  refine ⟨?_, perm, ?_, ?_⟩
  · rw [selectFrom_eq_filter h found relative]
    exact (List.filter_sublist.map _).nodup h.nodup_orderedElements
  · intro attached
    rw [selectFrom_eq_picked h (Or.inr attached), if_pos relative, children_of_element? h found]
  · intro out
    have ascends := pairwise_selectFrom_of_detached h found relative out
    refine ⟨ascends, ?_, ?_⟩
    · intro same
      rwa [same] at ascends
    · intro standing
      refine perm.eq_of_pairwise ?_ ascends standing
      intro e f _ _ lt gt
      exact absurd lt (Nat.lt_asymm gt)

/-- a document from which an element was taken out, and was then given something below the first of its children -/
def outgrown : Document where
  attached := .element 1 "r" [] .nil .nil
  detached := .element 2 "x" [] (.element 3 "a" [] (.element 6 "c" [] .nil .nil)
    (.element 4 "b" [] (.element 5 "d" [] .nil .nil) .nil)) .nil
  next := 7

/-- the element that was taken out -/
def outgrownElement : Element Nat :=
  ⟨2, "x", [], .element 3 "a" [] (.element 6 "c" [] .nil .nil) (.element 4 "b" [] (.element 5 "d" [] .nil .nil) .nil)⟩

theorem built_outgrown : outgrown.Built := by
  let f : Forest Unit := .element () "r" [] (.element () "x" [] (.element () "a" [] .nil
    (.element () "b" [] (.element () "d" [] .nil .nil) .nil)) .nil) .nil
  have read : parse "<r><x><a/><b><d/></b></x></r>" = .ok (ofForest f) := by decide +kernel
  have fragment : parseFragment "<c/>" = .ok (ofForest (.element () "c" [] .nil .nil)) := by decide +kernel
  have added : ((ofForest f).detach 2).1.appendFragment 3 (ofForest (.element () "c" [] .nil .nil)) = .ok (outgrown, [6]) := by
    decide +kernel
  exact .appendFragment (.detach (.parse read) 2) (.parseFragment fragment) added

theorem selectFrom_ordered_outgrown :
    let l : Locator := ⟨true, [⟨.child, "*", []⟩]⟩
    outgrown.Built ∧ outgrown.element? 2 = some outgrownElement ∧ l.relative = true ∧ 2 ∈ outgrown.detached.marks ∧
      outgrown.selectFrom 2 l = outgrownElement.children.picked l.segments := by
  intro l
  have found : outgrown.element? 2 = some outgrownElement := by decide +kernel
  have out : 2 ∈ outgrown.detached.marks := by decide +kernel
  have standing : (outgrownElement.children.picked l.segments).Pairwise fun e f => e.mark < f.mark := by decide +kernel
  obtain ⟨-, -, -, detached⟩ := selectFrom_ordered built_outgrown found (l := l) rfl
  exact ⟨built_outgrown, found, rfl, out, (detached out).2.2 standing⟩

/-- What stands first below an element that was taken out may come last: it was added later. -/
theorem not_ordered_outgrown :
    let l : Locator := ⟨true, [⟨.child, "*", []⟩, ⟨.child, "*", []⟩]⟩
    outgrown.Built ∧ outgrown.element? 2 = some outgrownElement ∧ l.relative = true ∧
      (outgrown.selectFrom 2 l).map Element.mark = [5, 6] ∧ (outgrownElement.children.picked l.segments).map Element.mark = [6, 5] ∧
      ¬ (outgrown.selectFrom 2 l).Sublist outgrownElement.children.allElements := by
  intro l
  have h := built_outgrown.numbered
  have found : outgrown.element? 2 = some outgrownElement := by decide +kernel
  have picked : (outgrownElement.children.picked l.segments).map Element.mark = [6, 5] := by decide +kernel
  have standing : outgrownElement.children.allElements.map Element.mark = [3, 6, 4, 5] := by decide +kernel
  have perm : ((outgrown.selectFrom 2 l).map Element.mark).Perm [5, 6] := by
    refine ((selectFrom_perm_picked h found rfl).map Element.mark).trans ?_
    rw [picked]
    decide
  have ascends : ((outgrown.selectFrom 2 l).map Element.mark).Pairwise (· < ·) :=
    List.pairwise_map.2 (pairwise_selectFrom_of_detached h found rfl (by decide +kernel))
  have hits : (outgrown.selectFrom 2 l).map Element.mark = [5, 6] :=
    perm.eq_of_pairwise (fun _ _ _ _ lt gt => absurd lt (Nat.lt_asymm gt)) ascends (by decide)
  refine ⟨built_outgrown, found, rfl, hits, picked, ?_⟩
  intro ordered
  have marks := ordered.map Element.mark
  rw [hits, standing] at marks
  exact absurd marks (by decide)

end XmlStore.Xml.Document
