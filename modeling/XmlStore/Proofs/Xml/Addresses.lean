/-
The path to an element.

On the way down from the document to an element, every level has a name and a place among the siblings of that name. A builder that is
told both at each level gives a locator, and that picks out this element and no other: the reader of documents and the reader of
locators take the same names, and both count the places alike.

Main statements:
- `Forest.existsUnique_path`: every element has one path.
- `LocatorBuilder.locator_along`: a path gives a locator, and the rendered text gives the same one.
- `Document.select_along`: that locator picks out the element at the end of the path.
- `Document.select_of_path`: so every element of a document that was read can be reached.
-/
import Mathlib.Logic.ExistsUnique
import XmlStore.Proofs.Locator.Building
import XmlStore.Proofs.Xml.Preservation
import XmlStore.Proofs.Xml.Selection

namespace XmlStore

/-! ## Builders that go down a path -/

namespace LocatorBuilder

/-- one step of a path: to the child of a name at a place -/
def stepSegment (step : String × Nat) : Segment :=
  ⟨.child, step.1, [.position step.2]⟩

/-- the builder that starts at the first name of a path, goes to the others one after the other, and says the place of each -/
def along : List (String × Nat) → LocatorBuilder
  | [] => .empty
  | (name, place) :: rest => (root name).calls (.position place :: rest.flatMap fun step => [.goTo step.1, .position step.2])

theorem call_position (segments : List Segment) (name : String) (place : Nat) :
    call ⟨segments ++ [.plain .child name], []⟩ (.position place) = ⟨segments ++ [stepSegment (name, place)], []⟩ := by
  rw [call, filter_concat]
  rfl

theorem calls_steps (segments : List Segment) (steps : List (String × Nat)) :
    calls ⟨segments, []⟩ (steps.flatMap fun step => [.goTo step.1, .position step.2]) =
      ⟨segments ++ steps.map stepSegment, []⟩ := by
  induction steps generalizing segments with
  | nil => simp [calls]
  | cons step steps ih =>
    have rest := ih (segments ++ [stepSegment step])
    rw [calls] at rest
    rw [calls, List.flatMap_cons, List.foldl_append, List.foldl_cons, List.foldl_cons, List.foldl_nil, call, call_position, rest,
      List.map_cons, List.append_assoc, List.singleton_append]

theorem along_eq (steps : List (String × Nat)) : along steps = ⟨steps.map stepSegment, []⟩ := by
  cases steps with
  | nil => rfl
  | cons step rest =>
    have first := call_position [] step.1 step.2
    have others := calls_steps [stepSegment step] rest
    rw [calls] at others
    rw [along, root, calls, List.foldl_cons]
    simp only [List.nil_append] at first
    rw [first, others, List.map_cons, List.singleton_append]

/-- **A path gives a locator**, and the text that is rendered for it gives the same one. -/
theorem locator_along {steps : List (String × Nat)} (some : steps ≠ [])
    (good : ∀ step ∈ steps, isName step.1 = true ∧ 1 ≤ step.2 ∧ step.2 < UInt64.size) :
    (along steps).locator = .ok ⟨false, steps.map stepSegment⟩ ∧ (along steps).resolve = .ok ⟨false, steps.map stepSegment⟩ := by
  have writable : Locator.Writable ⟨false, steps.map stepSegment⟩ := by
    refine ⟨by simpa using some, by simp, ?_⟩
    intro segment hs
    obtain ⟨step, hm, rfl⟩ := List.mem_map.1 hs
    obtain ⟨name, place⟩ := good step hm
    refine ⟨Or.inr name, ?_⟩
    intro p hp
    obtain rfl : p = .position step.2 := List.mem_singleton.1 hp
    exact place
  have strict : (along steps).locator = .ok ⟨false, steps.map stepSegment⟩ := by
    rw [along_eq]
    refine locator_eq_ok_iff.2 ⟨rfl, writable.nonempty, ?_, rfl⟩
    intro segment hs
    obtain ⟨step, hm, rfl⟩ := List.mem_map.1 hs
    obtain ⟨name, one, -⟩ := good step hm
    refine segmentError_eq_none.2 ⟨Or.inr name, ?_⟩
    simp [stepSegment, predicateError, Nat.ne_of_gt one]
  exact ⟨strict, by rw [resolve, render_of_locator strict, Locator.parse_display writable]⟩

end LocatorBuilder

namespace Xml

open LocatorBuilder (stepSegment along)

/-! ## Paths -/

namespace Forest

variable {ι : Type}

/-- the elements of a name among the siblings -/
def named (f : Forest ι) (name : String) : List (Element ι) :=
  f.elements.filter (·.name == name)

/-- the way down from siblings to an element: the name at each level, and the place among the siblings of that name, from 1 on -/
inductive Path (e : Element ι) : Forest ι → List (String × Nat) → Prop where
  | last {f : Forest ι} {i : Nat} (h : (f.named e.name)[i]? = some e) : Path e f [(e.name, i + 1)]
  | cons {f : Forest ι} {outer : Element ι} {i : Nat} {rest : List (String × Nat)}
      (h : (f.named outer.name)[i]? = some outer) (inside : Path e outer.children rest) : Path e f ((outer.name, i + 1) :: rest)

theorem mem_named {f : Forest ι} {name : String} {e : Element ι} : e ∈ f.named name ↔ e ∈ f.elements ∧ e.name = name := by
  simp [named]

theorem Path.ne_nil {f : Forest ι} {steps : List (String × Nat)} {e : Element ι} (h : f.Path e steps) : steps ≠ [] := by
  cases h <;> simp

/-- a path from siblings, of which `f` are some, to an element in `f` -/
theorem exists_path_of_subset {f whole : Forest ι} (hf : ∀ a ∈ f.elements, a ∈ whole.elements) {e : Element ι}
    (he : e ∈ f.allElements) : ∃ steps, whole.Path e steps := by
  induction f generalizing whole e with
  | nil => exact absurd he List.not_mem_nil
  | leaf mark kind value next ih => exact ih hf he
  | element mark name attributes children next ihc ihn =>
    have first : ⟨mark, name, attributes, children⟩ ∈ whole.elements := hf _ List.mem_cons_self
    obtain ⟨i, hi⟩ := List.mem_iff_getElem?.1 (mem_named.2 ⟨first, rfl⟩)
    rcases mem_nodes_element.1 (mem_allElements.1 he) with same | inside | beside
    · cases same
      exact ⟨_, .last hi⟩
    · have below : ∃ steps, children.Path e steps := ihc (fun _ ha => ha) (mem_allElements.2 inside)
      obtain ⟨steps, rest⟩ := below
      exact ⟨_, .cons hi rest⟩
    · exact ihn (fun a ha => hf a (List.mem_cons_of_mem _ ha)) (mem_allElements.2 beside)

/-- a mark is that of one sibling only, or of a node below it -/
theorem eq_of_mem_marks {f : Forest ι} (hf : f.marks.Nodup) {a b : Node ι} (ha : a ∈ f.siblings) (hb : b ∈ f.siblings) {m : ι}
    (hma : m ∈ a.mark :: a.children.marks) (hmb : m ∈ b.mark :: b.children.marks) : a = b := by
  have inside {g : Forest ι} {n : Node ι} (hn : n ∈ g.siblings) (hm : m ∈ n.mark :: n.children.marks) : m ∈ g.marks :=
    (sublist_marks (mem_nodes_of_mem_siblings hn)).subset hm
  induction f with
  | nil => exact absurd ha List.not_mem_nil
  | leaf i kind value next ih =>
    rw [marks_leaf, List.nodup_cons] at hf
    have apart (first : m ∈ [i]) : m ∉ next.marks := List.mem_singleton.1 first ▸ hf.1
    rcases List.mem_cons.1 ha with rfl | ha <;> rcases List.mem_cons.1 hb with rfl | hb
    · rfl
    · exact absurd (inside hb hmb) (apart hma)
    · exact absurd (inside ha hma) (apart hmb)
    · exact ih hf.2 ha hb
  | element i name attributes children next _ ihn =>
    have split := Forest.apart hf
    have apart (first : m ∈ i :: children.marks) : m ∉ next.marks := by
      rcases List.mem_cons.1 first with rfl | below
      · exact split.notBeside
      · exact split.disjoint m below
    rcases List.mem_cons.1 ha with rfl | ha <;> rcases List.mem_cons.1 hb with rfl | hb
    · rfl
    · exact absurd (inside hb hmb) (apart hma)
    · exact absurd (inside ha hma) (apart hmb)
    · exact ihn split.beside ha hb

theorem nodup_named {f : Forest ι} (hf : f.marks.Nodup) (name : String) : (f.named name).Nodup :=
  (List.filter_sublist.trans (f.siblings_sublist.filterMap Node.element?)).nodup (nodup_allElements hf)

theorem outermost_of_named {f : Forest ι} {e : Element ι} {i : Nat} (h : (f.named e.name)[i]? = some e) :
    Node.element e ∈ f.siblings :=
  mem_elements.1 (mem_named.1 (List.mem_of_getElem? h)).1

theorem Path.mem {f : Forest ι} {steps : List (String × Nat)} {e : Element ι} (h : f.Path e steps) : e ∈ f.allElements := by
  induction h with
  | last h => exact mem_allElements.2 (mem_nodes_of_mem_siblings (outermost_of_named h))
  | cons h _ ih =>
    have outer := mem_nodes_of_mem_siblings (outermost_of_named h)
    exact mem_allElements.2 (mem_nodes_of_mem_children outer (mem_allElements.1 ih))

/-- the first step of a path goes to the sibling that the element is, or is below -/
theorem Path.first {f : Forest ι} {steps : List (String × Nat)} {e : Element ι} (h : f.Path e steps) :
    ∃ outer i rest, steps = (outer.name, i + 1) :: rest ∧ (f.named outer.name)[i]? = some outer ∧
      e.mark ∈ outer.mark :: outer.children.marks ∧ ((rest = [] ∧ outer = e) ∨ outer.children.Path e rest) := by
  cases h with
  | last h => exact ⟨e, _, [], rfl, h, List.mem_cons_self, Or.inl ⟨rfl, rfl⟩⟩
  | cons h inside =>
    have below := mem_marks_of_mem (mem_allElements.1 inside.mem)
    exact ⟨_, _, _, rfl, h, List.mem_cons_of_mem _ below, Or.inr inside⟩

/-- the first steps of two paths to one element are the same -/
theorem first_unique {f : Forest ι} (hf : f.marks.Nodup) {a b : Element ι} {i j : Nat} (ha : (f.named a.name)[i]? = some a)
    (hb : (f.named b.name)[j]? = some b) {m : ι} (hma : m ∈ a.mark :: a.children.marks) (hmb : m ∈ b.mark :: b.children.marks) :
    a = b ∧ i = j := by
  have same := eq_of_mem_marks hf (outermost_of_named ha) (outermost_of_named hb) hma hmb
  cases same
  obtain ⟨short, -⟩ := List.getElem?_eq_some_iff.1 ha
  exact ⟨rfl, (List.getElem?_inj short (nodup_named hf _)).1 (ha.trans hb.symm)⟩

/-- an element is not below itself -/
theorem not_path_self {f : Forest ι} (hf : f.marks.Nodup) {e : Element ι} (he : .element e ∈ f.nodes)
    {steps : List (String × Nat)} : ¬ e.children.Path e steps := fun below =>
  notMem_children hf he (mem_marks_of_mem (mem_allElements.1 below.mem))

theorem Path.unique {f : Forest ι} (hf : f.marks.Nodup) {steps steps' : List (String × Nat)} {e : Element ι}
    (h : f.Path e steps) (h' : f.Path e steps') : steps' = steps := by
  induction h generalizing steps' with
  | last h =>
    obtain ⟨outer, j, rest, rfl, first, known, ends⟩ := h'.first
    obtain ⟨rfl, rfl⟩ := first_unique hf h first List.mem_cons_self known
    rcases ends with ⟨rfl, -⟩ | below
    · rfl
    · exact absurd below (not_path_self hf (mem_nodes_of_mem_siblings (outermost_of_named h)))
  | cons h inside ih =>
    have outer := mem_nodes_of_mem_siblings (outermost_of_named h)
    obtain ⟨_, j, rest, rfl, first, known, ends⟩ := h'.first
    have below := mem_marks_of_mem (mem_allElements.1 inside.mem)
    obtain ⟨rfl, rfl⟩ := first_unique hf h first (List.mem_cons_of_mem _ below) known
    rcases ends with ⟨-, rfl⟩ | inside'
    · exact absurd inside (not_path_self hf outer)
    · rw [ih (nodup_children hf outer) inside']

/-- **Every element has one path**, where no mark occurs twice. -/
theorem existsUnique_path {f : Forest ι} (hf : f.marks.Nodup) {e : Element ι} (he : e ∈ f.allElements) :
    ∃! steps, f.Path e steps := by
  obtain ⟨steps, path⟩ := exists_path_of_subset (fun _ ha => ha) he
  exact ⟨steps, path, fun _ other => path.unique hf other⟩

theorem le_length_of_named {f : Forest ι} {e : Element ι} {i : Nat} (h : (f.named e.name)[i]? = some e) :
    i + 1 ≤ f.marks.length := by
  obtain ⟨lt, -⟩ := List.getElem?_eq_some_iff.1 h
  calc i + 1
    _ ≤ (f.named e.name).length := lt
    _ ≤ f.elements.length := List.length_filter_le _ _
    _ ≤ f.siblings.length := List.length_filterMap_le _ _
    _ ≤ f.nodes.length := f.siblings_sublist.length_le
    _ = f.marks.length := (List.length_map Node.mark).symm

/-- what a path says can be said of well-formed content: names are names, and no place is beyond the number of nodes -/
theorem Path.good {f : Forest ι} (hw : f.WellFormed) {steps : List (String × Nat)} {e : Element ι} (h : f.Path e steps) :
    ∀ step ∈ steps, isName step.1 = true ∧ 1 ≤ step.2 ∧ step.2 ≤ f.marks.length := by
  induction h with
  | last h =>
    obtain ⟨name, -⟩ := hw.of_mem (mem_nodes_of_mem_siblings (outermost_of_named h))
    intro step hs
    obtain rfl := List.mem_singleton.1 hs
    exact ⟨name, Nat.succ_pos _, le_length_of_named h⟩
  | cons h _ ih =>
    have outer := mem_nodes_of_mem_siblings (outermost_of_named h)
    obtain ⟨name, -, children, -⟩ := hw.of_mem outer
    intro step hs
    rcases List.mem_cons.1 hs with rfl | hs
    · exact ⟨name, Nat.succ_pos _, le_length_of_named h⟩
    · obtain ⟨name, one, few⟩ := ih children step hs
      exact ⟨name, one, Nat.le_trans few (Nat.le_of_succ_le (sublist_marks outer).length_le)⟩

end Forest

/-! ## What a path picks out -/

namespace Document

variable {d : Document}

/-- a step leads to the element of the name at the place -/
theorem leads_step {name : String} (hn : isName name = true) {n i : Nat} {e : Element Nat} :
    d.Leads (stepSegment (name, i + 1)) n e ↔ ((d.children n).named name)[i]? = some e := by
  have specific : (name == "*") = false := by
    rw [beq_eq_false_iff_ne]
    rintro rfl
    exact absurd hn (by decide)
  have left : applySegment (stepSegment (name, i + 1)) (d.children n).elements = ((d.children n).named name)[i]?.toList := by
    have test : (fun e : Element Nat => (stepSegment (name, i + 1)).matchesName e.name) = fun e => e.name == name := by
      funext e
      rw [stepSegment, Segment.matchesName, specific, Bool.false_or, Bool.beq_comm]
    rw [applySegment, test]
    rfl
  simp only [Leads, stepSegment] at left ⊢
  simp [left]

/-- the segments of a path lead to the element at its end, and nowhere else -/
theorem chain_iff_of_path (h : d.Numbered) {f : Forest Nat} {steps : List (String × Nat)} {e : Element Nat} (hp : f.Path e steps)
    (names : ∀ step ∈ steps, isName step.1 = true) {n : Nat} (hn : d.Attached n) (hf : d.children n = f) {e' : Element Nat} :
    d.Chain n (steps.map stepSegment) e' ↔ e' = e := by
  induction hp generalizing n with
  | last found =>
    have name := names _ List.mem_cons_self
    rw [List.map_singleton, chain_singleton, leads_step name, hf, found, Option.some.injEq, eq_comm]
  | @cons _ outer i _ found inside ih =>
    obtain ⟨next, others, hr⟩ := List.exists_cons_of_ne_nil inside.ne_nil
    have name := names _ List.mem_cons_self
    have middle (m : Element Nat) : d.Leads (stepSegment (outer.name, i + 1)) n m ↔ m = outer := by
      rw [leads_step name, hf, found, Option.some.injEq, eq_comm]
    have attached : .element outer ∈ d.attached.nodes :=
      attached_of_children h hn (hf ▸ Forest.mem_nodes_of_mem_siblings (Forest.outermost_of_named found))
    have below := ih (fun step hs => names step (List.mem_cons_of_mem _ hs)) (n := outer.mark)
      (Or.inr (Forest.mem_marks_of_mem attached)) (h.children_of_mem (Or.inl attached))
    rw [hr, List.map_cons] at below
    rw [hr, List.map_cons, List.map_cons, chain_cons]
    simp only [middle, exists_eq_left, below]

/-- **A path picks out** the element at its end and no other. -/
theorem select_along (h : d.Numbered) {steps : List (String × Nat)} {e : Element Nat} (hp : d.attached.Path e steps)
    (names : ∀ step ∈ steps, isName step.1 = true) : d.select ⟨false, steps.map stepSegment⟩ = [e] := by
  obtain ⟨first, rest, hs⟩ := List.exists_cons_of_ne_nil hp.ne_nil
  have only : ∀ n ∈ [top], d.Attached n := fun n hn => Or.inl (List.mem_singleton.1 hn)
  have ends (e' : Element Nat) : (∃ n ∈ [top], d.Chain n (steps.map stepSegment) e') ↔ e' = e := by
    simp [chain_iff_of_path h hp names (Or.inl rfl) rfl]
  have walked := walk_eq h only (stepSegment first) (rest.map stepSegment)
  rw [← List.map_cons, ← hs, attachedWhere_congr ends] at walked
  have alone : d.attachedWhere (· = e) = [e] := by
    have same : d.attachedWhere (· = e) = d.attached.allElements.filter (· == e) :=
      List.filter_congr fun e' _ => Bool.eq_iff_iff.2 (by simp)
    rw [same, List.filter_beq, (Forest.nodup_allElements h.attached).count, if_pos hp.mem, List.replicate_one]
  rw [select, selectFrom, if_neg (by simp)]
  exact walked.trans alone

/-- **Every element can be reached.** In a document that was read, each element has one path. A builder that goes down that path gives a
locator, the text that is rendered for it gives the same locator, and this picks out the element and no other. Places are words of 64
bits, which are enough for every text with fewer characters than they can count. -/
theorem select_of_path {text : String} (h : parse text = .ok d) (short : text.length + 1 < UInt64.size) {e : Element Nat}
    (he : e ∈ d.attached.allElements) :
    (∃! steps, d.attached.Path e steps) ∧ ∀ steps, d.attached.Path e steps →
      ∃ l, (along steps).locator = .ok l ∧ (along steps).resolve = .ok l ∧ d.select l = [e] := by
  have numbered := (Built.parse h).numbered
  refine ⟨Forest.existsUnique_path numbered.attached he, fun steps path => ?_⟩
  obtain ⟨f, hf, rfl⟩ := map_eq_ok.1 h
  have count : (ofForest f).attached.marks.length = f.size := by
    rw [ofForest, Forest.marks_number, List.length_range']
  have few := readForest_size hf
  have said := path.good (Built.parse h).wellFormed.attached
  have good : ∀ step ∈ steps, isName step.1 = true ∧ 1 ≤ step.2 ∧ step.2 < UInt64.size := by
    intro step hs
    obtain ⟨name, one, known⟩ := said step hs
    exact ⟨name, one, by omega⟩
  obtain ⟨strict, resolved⟩ := LocatorBuilder.locator_along path.ne_nil good
  exact ⟨_, strict, resolved, select_along numbered path fun step hs => (good step hs).1⟩

theorem select_of_path_secondShelf :
    let e : Element Nat := ⟨5, "é", [("k", "2")], .nil⟩
    let d : Document := ofForest (.element () "r" [] (.element () "s" [] .nil (.element () "t" [] .nil
      (.element () "s" [] (.element () "é" [("k", "2")] .nil .nil) .nil))) .nil)
    let steps := [("r", 1), ("s", 2), ("é", 1)]
    parse "<r><s/><t/><s><é k='2'/></s></r>" = .ok d ∧ e ∈ d.attached.allElements ∧ d.attached.Path e steps ∧
      (along steps).render = "/r[1]/s[2]/é[1]" ∧ ∃ l, (along steps).resolve = .ok l ∧ d.select l = [e] := by
  intro e d steps
  have read : parse "<r><s/><t/><s><é k='2'/></s></r>" = .ok d := by decide +kernel
  have known : e ∈ d.attached.allElements := by decide +kernel
  have short : "<r><s/><t/><s><é k='2'/></s></r>".length + 1 < UInt64.size := by decide +kernel
  let shelf : Element Nat := ⟨4, "s", [], e.toForest⟩
  let root : Element Nat := ⟨1, "r", [], .element 2 "s" [] .nil (.element 3 "t" [] .nil shelf.toForest)⟩
  have fromRoot : (d.attached.named root.name)[0]? = some root := by decide +kernel
  have fromShelf : (root.children.named shelf.name)[1]? = some shelf := by decide +kernel
  have within : (shelf.children.named e.name)[0]? = some e := by decide +kernel
  have path : d.attached.Path e steps := .cons fromRoot (.cons fromShelf (.last within))
  obtain ⟨l, -, resolved, found⟩ := (select_of_path read short known).2 steps path
  exact ⟨read, known, path, by decide +kernel, l, resolved, found⟩

end Document

end Xml

end XmlStore
