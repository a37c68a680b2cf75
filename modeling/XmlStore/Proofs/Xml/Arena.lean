/-
Documents as arenas.

A document says by its shape what an arena keeps in links. `Document.arena` is the row of its nodes, each with the number above it and
those directly below it. That an arena is this row is shown part by part: `Arena.Holds` says that the nodes of a forest stand under their
numbers, linked as they stand in the forest, and it looks at nothing else.

Main statements:
- `Document.Numbered.represents`: the row of a document holds both of its parts.
- `Arena.Represents.eq_arena`: an arena that holds both parts of a document is that row.
- `Document.Numbered.node_arena`: what is linked with a node in the row is what the document has above and below it.
- `Document.Numbered.subtree_arena`: following the links leads to just what is below a node in the document.
-/
import Mathlib.Data.List.Perm.Subperm
import XmlStore.Proofs.Xml.Links
import XmlStore.Xml.Arena

namespace XmlStore.Xml

def Node.kind {ι : Type} : Node ι → NodeKind
  | .leaf _ kind value => .leaf kind value
  | .element e => .element e.name e.attributes

/-- a number beside an element is not found below it -/
theorem Forest.Apart.parent?_beside {i m : Nat} {children next : Forest Nat} (apart : Forest.Apart i children next)
    (beside : m ∈ next.marks) : children.parent? m (some i) = none := by
  rw [Option.eq_none_iff_forall_ne_some]
  exact fun p found => apart.disjoint m (Forest.mem_of_parent? found) beside

namespace Arena

variable {a a' : Arena} {f g : Forest Nat} {n : Node Nat} {above : Option Nat} {id : Nat}

theorem node_eq_of_getElem? {data : NodeData} (h : a.nodes[id]? = some data) : a.node id = data := by
  rw [node, List.getD_eq_getElem?_getD, h, Option.getD_some]

theorem ext_getElem? (same : ∀ id : Nat, a.nodes[id]? = a'.nodes[id]?) : a = a' :=
  congrArg Arena.mk (List.ext_getElem? same)

theorem node_of_not_given (h : a.nodes.length ≤ id) : a.node id = ⟨.document, none, []⟩ := by
  rw [node, List.getD_eq_getElem?_getD, List.getElem?_eq_none h, Option.getD_none]

/-! ## Forests in an arena -/

/-- whether the nodes of a forest stand in an arena under their numbers, the siblings linked to what they are below and all others to
what they are below in the forest -/
def Holds (a : Arena) (above : Option Nat) : Forest Nat → Prop
  | .nil => True
  | .leaf i kind value next => a.nodes[i]? = some ⟨.leaf kind value, above, []⟩ ∧ a.Holds above next
  | .element i name attributes children next =>
    a.nodes[i]? = some ⟨.element name attributes, above, children.outermost⟩ ∧ a.Holds (some i) children ∧ a.Holds above next

namespace Holds

/-- nothing but the nodes of the forest matters -/
theorem congr (h : a.Holds above f) (same : ∀ m ∈ f.marks, a'.nodes[m]? = a.nodes[m]?) : a'.Holds above f := by
  induction f generalizing above with
  | nil => trivial
  | leaf i kind value next ih =>
    simp only [Forest.marks_leaf, List.forall_mem_cons] at same
    exact ⟨same.1.trans h.1, ih h.2 same.2⟩
  | element i name attributes children next ihc ihn =>
    simp only [Forest.marks_element, List.forall_mem_cons, List.forall_mem_append] at same
    exact ⟨same.1.trans h.1, ihc h.2.1 same.2.1, ihn h.2.2 same.2.2⟩

theorem append (hf : a.Holds above f) (hg : a.Holds above g) : a.Holds above (f.append g) := by
  induction f with
  | nil => exact hg
  | leaf i kind value next ih => exact ⟨hf.1, ih hf.2⟩
  | element i name attributes children next _ ihn => exact ⟨hf.1, hf.2.1, ihn hf.2.2⟩

/-- a node by itself is held below whatever it is below -/
theorem of_mem (h : a.Holds above f) (hn : n ∈ f.nodes) : ∃ p, a.Holds p n.toForest := by
  induction f generalizing above with
  | nil => exact absurd hn List.not_mem_nil
  | leaf i kind value next ih =>
    rcases Forest.mem_nodes_leaf.1 hn with rfl | hn
    · exact ⟨above, h.1, trivial⟩
    · exact ih h.2 hn
  | element i name attributes children next ihc ihn =>
    rcases Forest.mem_nodes_element.1 hn with rfl | hn | hn
    · exact ⟨above, h.1, h.2.1, trivial⟩
    · exact ihc h.2.1 hn
    · exact ihn h.2.2 hn

theorem node (h : a.Holds above n.toForest) :
    a.nodes[n.mark]? = some ⟨n.kind, above, n.children.outermost⟩ ∧ a.Holds (some n.mark) n.children := by
  cases n with
  | leaf i kind value => exact ⟨h.1, trivial⟩
  | element e => exact ⟨h.1, h.2.1⟩

theorem node_of_mem (h : a.Holds above f) (hn : n ∈ f.nodes) :
    ∃ p, a.nodes[n.mark]? = some ⟨n.kind, p, n.children.outermost⟩ ∧ a.Holds (some n.mark) n.children := by
  obtain ⟨p, here⟩ := h.of_mem hn
  exact ⟨p, here.node⟩

theorem given (h : a.Holds above f) {m : Nat} (hm : m ∈ f.marks) : m < a.nodes.length := by
  obtain ⟨n, hn, rfl⟩ := Forest.mem_marks.1 hm
  obtain ⟨p, here, -⟩ := h.node_of_mem hn
  exact (List.getElem?_eq_some_iff.1 here).1

/-- the number above a node is the one that it is linked to -/
theorem parent? (h : a.Holds above f) (once : f.marks.Nodup) {m : Nat} (hm : m ∈ f.marks) : a.parent? m = f.parent? m above := by
  induction f generalizing above with
  | nil => exact absurd hm List.not_mem_nil
  | leaf i kind value next ih =>
    rw [Forest.parent?]
    by_cases hi : i = m
    · rw [if_pos hi, Arena.parent?, ← hi, node_eq_of_getElem? h.1]
    · rw [if_neg hi]
      exact ih h.2 (List.nodup_cons.1 once).2 ((List.mem_cons.1 hm).resolve_left (Ne.symm hi))
  | element i name attributes children next ihc ihn =>
    have apart := Forest.apart once
    rw [Forest.parent?]
    by_cases hi : i = m
    · rw [if_pos hi, Arena.parent?, ← hi, node_eq_of_getElem? h.1]
    · rw [if_neg hi]
      rw [Forest.marks_element, List.mem_cons, List.mem_append] at hm
      rcases hm.resolve_left (Ne.symm hi) with below | beside
      · obtain ⟨p, found⟩ := Forest.parent?_of_mem below i
        rw [ihc h.2.1 apart.below below, found, Option.some_or]
      · rw [apart.parent?_beside beside, Option.none_or]
        exact ihn h.2.2 apart.beside beside

/-- the elements among the siblings of a forest -/
theorem filter_isElement (h : a.Holds above f) :
    f.outermost.filter a.isElement = f.elements.map Element.mark := by
  induction f with
  | nil => rfl
  | leaf i kind value next ih =>
    have other : a.isElement i = false := by
      rw [isElement, name?, Arena.kind, node_eq_of_getElem? h.1]
      rfl
    rw [Forest.outermost_leaf, List.filter_cons_of_neg (by rw [other]; exact Bool.false_ne_true), ih h.2, Forest.elements_leaf]
  | element i name attributes children next _ ihn =>
    have itself : a.isElement i = true := by
      rw [isElement, name?, Arena.kind, node_eq_of_getElem? h.1]
      rfl
    rw [Forest.outermost_element, List.filter_cons_of_pos itself, ihn h.2.2, Forest.elements_element]
    rfl

theorem size_le (h : a.Holds above f) (once : f.marks.Nodup) : f.size ≤ a.nodes.length := by
  have given : f.marks ⊆ List.range a.nodes.length := fun m hm => List.mem_range.2 (h.given hm)
  have room := (once.subperm given).length_le
  rwa [List.length_range, Forest.length_marks] at room

/-- following the links from the siblings leads to the forest -/
theorem forest_eq (h : a.Holds above f) {levels : Nat} (enough : f.size ≤ levels) : a.forest levels f.outermost = f := by
  induction f generalizing above levels with
  | nil => cases levels <;> rfl
  | leaf i kind value next ih =>
    obtain ⟨levels, rfl⟩ : ∃ k, levels = k + 1 := Nat.exists_eq_succ_of_ne_zero (by rw [Forest.size] at enough; omega)
    have holds : a.kind i = .leaf kind value := by rw [Arena.kind, node_eq_of_getElem? h.1]
    have rest : a.forest (levels + 1) next.outermost = next := ih h.2 (by rw [Forest.size] at enough; omega)
    rw [Arena.forest] at rest ⊢
    rw [Forest.outermost_leaf, List.foldr_cons, rest, holds]
  | element i name attributes children next ihc ihn =>
    obtain ⟨levels, rfl⟩ : ∃ k, levels = k + 1 := Nat.exists_eq_succ_of_ne_zero (by rw [Forest.size] at enough; omega)
    rw [Forest.size] at enough
    have holds : a.kind i = .element name attributes := by rw [Arena.kind, node_eq_of_getElem? h.1]
    have below : a.children i = children.outermost := by rw [Arena.children, node_eq_of_getElem? h.1]
    have inside : a.forest levels children.outermost = children := ihc h.2.1 (by omega)
    have rest : a.forest (levels + 1) next.outermost = next := ihn h.2.2 (by omega)
    rw [Arena.forest] at rest ⊢
    rw [Forest.outermost_element, List.foldr_cons, rest, holds]
    simp only [below, inside]

end Holds

/-- so a forest is held where each of its nodes stands as it is in the forest -/
theorem holds_of_nodes (once : f.marks.Nodup)
    (h : ∀ n ∈ f.nodes, a.nodes[n.mark]? = some ⟨n.kind, f.parent? n.mark above, n.children.outermost⟩) : a.Holds above f := by
  induction f generalizing above with
  | nil => trivial
  | leaf i kind value next ih =>
    have first := h _ (Forest.mem_nodes_leaf.2 (Or.inl rfl))
    rw [Node.mark, Forest.parent?, if_pos rfl] at first
    refine ⟨first, ih (List.nodup_cons.1 once).2 fun n hn => ?_⟩
    have beside := Forest.mem_marks_of_mem hn
    have other : i ≠ n.mark := fun e => (List.nodup_cons.1 once).1 (e ▸ beside)
    rw [h n (Forest.mem_nodes_leaf.2 (Or.inr hn)), Forest.parent?, if_neg other]
  | element i name attributes children next ihc ihn =>
    have apart := Forest.apart once
    have first := h _ (Forest.mem_nodes_element.2 (Or.inl rfl))
    rw [Node.mark, Forest.parent?, if_pos rfl] at first
    refine ⟨first, ihc apart.below fun n hn => ?_, ihn apart.beside fun n hn => ?_⟩
    · have below := Forest.mem_marks_of_mem hn
      have other : i ≠ n.mark := fun e => apart.notBelow (e ▸ below)
      obtain ⟨p, found⟩ := Forest.parent?_of_mem below i
      rw [h n (Forest.mem_nodes_element.2 (Or.inr (Or.inl hn))), Forest.parent?, if_neg other, found, Option.some_or]
    · have beside := Forest.mem_marks_of_mem hn
      have other : i ≠ n.mark := fun e => apart.notBeside (e ▸ beside)
      rw [h n (Forest.mem_nodes_element.2 (Or.inr (Or.inr hn))), Forest.parent?, if_neg other, apart.parent?_beside beside,
        Option.none_or]

/-- whether an arena holds both parts of a document, and nothing else -/
structure Represents (a : Arena) (d : Document) : Prop where
  size : a.nodes.length = d.next
  topmost : a.nodes[Document.top]? = some ⟨.document, none, d.attached.outermost⟩
  attached : a.Holds (some Document.top) d.attached
  detached : a.Holds none d.detached

end Arena

namespace Document

variable {a : Arena} {d : Document} {id : Nat}

/-- what a number stands for; that of the document stands for itself -/
def kind (d : Document) (id : Nat) : NodeKind :=
  ((d.find? id).map Node.kind).getD .document

/-- the nodes of a document in a row, each with its links -/
def arena (d : Document) : Arena :=
  ⟨(List.range d.next).map fun id => ⟨d.kind id, d.parent? id, d.childNumbers id⟩⟩

theorem marks_mapForests {change : Forest Nat → Forest Nat} (same : ∀ f, (change f).marks = f.marks) :
    (d.mapForests change).marks = d.marks := by
  rw [marks, mapForests, same, same, marks]

theorem next_detach (d : Document) (id : Nat) : (d.detach id).1.next = d.next := by
  unfold Document.detach
  split <;> rfl

theorem getElem?_arena (h : id < d.next) : d.arena.nodes[id]? = some ⟨d.kind id, d.parent? id, d.childNumbers id⟩ := by
  simp [arena, h]

/-- every number that was given stands for a node, or for the document itself -/
structure Gapless (d : Document) : Prop extends d.Numbered where
  known : ∀ id < d.next, id = top ∨ id ∈ d.marks

theorem gapless_ofForest (f : Forest Unit) : (ofForest f).Gapless where
  toNumbered := numbered_ofForest f
  known id hid := by
    have given : id < f.size + 1 := hid
    rw [marks, ofForest, Forest.marks_number, Forest.marks_nil, List.append_nil, List.mem_range'_1, top]
    omega

theorem Gapless.of_perm (h : d.Gapless) {d' : Document} (numbered : d'.Numbered) (perm : d'.marks.Perm d.marks)
    (same : d'.next = d.next) : d'.Gapless where
  toNumbered := numbered
  known id hid := (h.known id (same ▸ hid)).imp_right perm.mem_iff.2

theorem Becomes.gapless {d' : Document} (step : d.Becomes d') (h : d.Gapless) : d'.Gapless := by
  have numbered := step.numbered h.toNumbered
  cases step with
  | changed id kept =>
    exact h.of_perm numbered (.of_eq (marks_mapForests (Forest.marks_modify kept))) rfl
  | rewritten id value =>
    exact h.of_perm numbered (.of_eq (marks_mapForests (Forest.marks_setLeaf id value))) rfl
  | extended found nodes =>
    refine ⟨numbered, fun id hid => ?_⟩
    simp only [(h.marks_appendNodes found nodes).mem_iff, List.mem_append, List.mem_range'_1]
    by_cases old : id < d.next
    · exact (h.known id old).imp_right Or.inl
    · exact Or.inr (Or.inr ⟨Nat.le_of_not_lt old, hid⟩)
  | detached id => exact h.of_perm numbered (h.marks_detach id) (next_detach d id)
  | same => exact h

theorem Built.gapless (h : d.Built) : d.Gapless :=
  h.induct gapless_ofForest fun hd step => step.gapless hd

/-- a node of either part is what its number stands for -/
theorem Numbered.kind_of_mem (h : d.Numbered) {n : Node Nat} (hn : n ∈ d.attached.nodes ∨ n ∈ d.detached.nodes) :
    d.kind n.mark = n.kind := by
  rw [kind, h.find?_of_mem hn]
  rfl

theorem Numbered.childNumbers_of_mem (h : d.Numbered) {n : Node Nat} (hn : n ∈ d.attached.nodes ∨ n ∈ d.detached.nodes) :
    d.childNumbers n.mark = n.children.outermost := by
  rw [childNumbers, h.children_of_mem hn]

theorem Numbered.find?_top (h : d.Numbered) : d.find? top = none := by
  rw [Option.eq_none_iff_forall_ne_some]
  intro n found
  obtain ⟨same, there⟩ := h.mem_of_find? found
  refine h.ne_top ?_ same
  exact List.mem_append.2 (there.imp (fun ha => Forest.mem_marks_of_mem ha.1) fun hd => Forest.mem_marks_of_mem hd.1)

theorem parent?_attached (ha : id ∈ d.attached.marks) : d.parent? id = d.attached.parent? id (some top) := by
  obtain ⟨p, found⟩ := Forest.parent?_of_mem ha top
  rw [parent?, found, Option.some_or]

theorem Numbered.parent?_detached (h : d.Numbered) (hd : id ∈ d.detached.marks) : d.parent? id = d.detached.parent? id none := by
  have away : d.attached.parent? id (some top) = none := by
    rw [Option.eq_none_iff_forall_ne_some]
    exact fun p found => h.disjoint (Forest.mem_of_parent? found) hd
  rw [parent?, away, Option.none_or]

theorem Numbered.parent?_top (h : d.Numbered) : d.parent? top = none := by
  have unknown : top ∉ d.marks := fun known => h.ne_top known rfl
  rw [Option.eq_none_iff_forall_ne_some]
  intro p above
  rw [parent?, Option.or_eq_some_iff] at above
  exact unknown (List.mem_append.2 (above.imp Forest.mem_of_parent? fun found => Forest.mem_of_parent? found.2))

/-- **The row of a document** holds both of its parts. -/
theorem Numbered.represents (h : d.Numbered) : d.arena.Represents d := by
  have known {n : Node Nat} (hn : n ∈ d.attached.nodes ∨ n ∈ d.detached.nodes) :
      d.arena.nodes[n.mark]? = some ⟨n.kind, d.parent? n.mark, n.children.outermost⟩ := by
    have given : n.mark ∈ d.marks := List.mem_append.2 (hn.imp Forest.mem_marks_of_mem Forest.mem_marks_of_mem)
    rw [getElem?_arena (h.given _ given).2, h.kind_of_mem hn, h.childNumbers_of_mem hn]
  refine ⟨by simp [arena], ?_, ?_, ?_⟩
  · have given : top < d.next := h.next
    have itself : d.kind top = .document := by rw [kind, h.find?_top]; rfl
    rw [getElem?_arena given, itself, h.parent?_top]
    rfl
  · refine Arena.holds_of_nodes h.attached fun n hn => ?_
    rw [known (Or.inl hn), Document.parent?_attached (Forest.mem_marks_of_mem hn)]
  · refine Arena.holds_of_nodes h.detached fun n hn => ?_
    rw [known (Or.inr hn), h.parent?_detached (Forest.mem_marks_of_mem hn)]

end Document

/-- **An arena that holds a document** is the row of its nodes. -/
theorem Arena.Represents.eq_arena {a : Arena} {d : Document} (r : a.Represents d) (h : d.Gapless) : a = d.arena := by
  refine ext_getElem? fun id => ?_
  by_cases given : id < d.next
  · rcases h.known id given with rfl | known
    · exact r.topmost.trans h.represents.topmost.symm
    rw [Document.getElem?_arena given]
    rcases List.mem_append.1 known with ha | hd
    · obtain ⟨n, hn, rfl⟩ := Forest.mem_marks.1 ha
      obtain ⟨p, here, -⟩ := r.attached.node_of_mem hn
      have above : p = d.parent? n.mark := by
        rw [Document.parent?_attached ha, ← r.attached.parent? h.attached ha, Arena.parent?, Arena.node_eq_of_getElem? here]
      rw [here, h.kind_of_mem (Or.inl hn), h.childNumbers_of_mem (Or.inl hn), above]
    · obtain ⟨n, hn, rfl⟩ := Forest.mem_marks.1 hd
      obtain ⟨p, here, -⟩ := r.detached.node_of_mem hn
      have above : p = d.parent? n.mark := by
        rw [h.parent?_detached hd, ← r.detached.parent? h.detached hd, Arena.parent?, Arena.node_eq_of_getElem? here]
      rw [here, h.kind_of_mem (Or.inr hn), h.childNumbers_of_mem (Or.inr hn), above]
  · have out : d.next ≤ id := Nat.le_of_not_lt given
    rw [List.getElem?_eq_none (r.size ▸ out), List.getElem?_eq_none (h.represents.size ▸ out)]

namespace Document

variable {d : Document} {id : Nat}

/-! ## Looking at the row -/

/-- under a number that was not given nothing is found -/
theorem Numbered.find?_of_not_given (h : d.Numbered) (out : d.next ≤ id) : d.find? id = none := by
  rw [Option.eq_none_iff_forall_ne_some]
  intro n found
  obtain ⟨rfl, there⟩ := h.mem_of_find? found
  have known : n.mark ∈ d.marks :=
    List.mem_append.2 (there.imp (fun ha => Forest.mem_marks_of_mem ha.1) fun hd => Forest.mem_marks_of_mem hd.1)
  exact absurd (h.given _ known).2 (Nat.not_lt.2 out)

/-- what a number is linked with in the row -/
theorem Numbered.node_arena (h : d.Numbered) (id : Nat) : d.arena.node id = ⟨d.kind id, d.parent? id, d.childNumbers id⟩ := by
  by_cases given : id < d.next
  · exact Arena.node_eq_of_getElem? (getElem?_arena given)
  · have out : d.next ≤ id := Nat.le_of_not_lt given
    have nothing := h.find?_of_not_given out
    have notTop : id ≠ top := Nat.ne_of_gt (Nat.lt_of_lt_of_le h.next out)
    have above : d.parent? id = none := by
      rw [Option.eq_none_iff_forall_ne_some]
      intro p found
      rw [parent?, Option.or_eq_some_iff] at found
      have known : id ∈ d.marks := List.mem_append.2 (found.imp Forest.mem_of_parent? fun found => Forest.mem_of_parent? found.2)
      exact given (h.given id known).2
    have below : d.childNumbers id = [] := by
      rw [childNumbers, children, if_neg notTop, nothing]
      rfl
    rw [Arena.node_of_not_given (h.represents.size ▸ out), kind, nothing, above, below]
    rfl

theorem Numbered.kind_arena (h : d.Numbered) (id : Nat) : d.arena.kind id = d.kind id := by
  rw [Arena.kind, h.node_arena]

theorem Numbered.parent?_arena (h : d.Numbered) (id : Nat) : d.arena.parent? id = d.parent? id := by
  rw [Arena.parent?, h.node_arena]

theorem Numbered.children_arena (h : d.Numbered) (id : Nat) : d.arena.children id = d.childNumbers id := by
  rw [Arena.children, h.node_arena]

theorem Numbered.name?_arena (h : d.Numbered) (id : Nat) : d.arena.name? id = (d.element? id).map Element.name := by
  rw [Arena.name?, h.kind_arena, kind, element?]
  cases d.find? id with
  | none => rfl
  | some n => cases n <;> rfl

/-- what is below a number in the document is below it in the row -/
theorem Numbered.holds_children (h : d.Numbered) (id : Nat) : d.arena.Holds (some id) (d.children id) := by
  rcases h.children_cases id with ⟨rfl, e⟩ | ⟨n, hn, rfl, e⟩ | e
  · rw [e]
    exact h.represents.attached
  · obtain ⟨p, -, below⟩ := hn.elim h.represents.attached.node_of_mem h.represents.detached.node_of_mem
    rw [e]
    exact below
  · rw [e]
    trivial

theorem Numbered.childElements_arena (h : d.Numbered) (id : Nat) :
    d.arena.childElements id = (d.children id).elements.map Element.mark := by
  rw [Arena.childElements, h.children_arena]
  exact (h.holds_children id).filter_isElement

theorem Numbered.root?_arena (h : d.Numbered) : d.arena.root? = d.root?.map Element.mark := by
  have first := congrArg List.head? (h.childElements_arena top)
  rw [Arena.childElements, List.head?_filter, List.head?_map] at first
  exact first

/-- **Following the links** leads to what is below a number in the document. -/
theorem Numbered.subtree_arena (h : d.Numbered) (id : Nat) : d.arena.subtree id = d.subtree id := by
  have r := h.represents
  have node {n : Node Nat} (hn : n ∈ d.attached.nodes ∨ n ∈ d.detached.nodes) : d.arena.subtree n.mark = n.toForest := by
    obtain ⟨p, held⟩ : ∃ p, d.arena.Holds p n.toForest := hn.elim r.attached.of_mem r.detached.of_mem
    have once : n.toForest.marks.Nodup := by
      rw [Node.marks_toForest]
      exact hn.elim (fun ha => (Forest.sublist_marks ha).nodup h.attached) fun hd => (Forest.sublist_marks hd).nodup h.detached
    have whole := held.forest_eq (held.size_le once)
    rw [Arena.subtree, h.kind_arena, h.kind_of_mem hn]
    cases n <;> exact whole
  rw [subtree]
  split
  · rename_i same
    have itself : d.kind top = .document := by rw [kind, h.find?_top]; rfl
    rw [same, Arena.subtree, h.kind_arena, itself, h.children_arena]
    exact r.attached.forest_eq (r.attached.size_le h.attached)
  · rename_i other
    cases found : d.find? id with
    | none =>
      have itself : d.kind id = .document := by rw [kind, found]; rfl
      have below : d.childNumbers id = [] := by
        rw [childNumbers, children, if_neg other, found]
        rfl
      rw [Arena.subtree, h.kind_arena, itself, h.children_arena, below]
      cases d.arena.nodes.length <;> rfl
    | some n =>
      obtain ⟨rfl, there⟩ := h.mem_of_find? found
      exact node (there.imp And.left And.left)

/-- an arena is written as its document is, and so is every node of it -/
theorem Numbered.written_arena (h : d.Numbered) :
    d.arena.xml = d.xml ∧ (∀ indent, d.arena.prettyXml indent = d.prettyXml indent) ∧
      ∀ id, d.arena.nodeXml id = d.nodeXml id ∧ d.arena.text id = d.text id := by
  have whole : d.arena.subtree top = d.attached := by
    rw [h.subtree_arena, subtree, if_pos rfl]
  refine ⟨?_, ?_, ?_⟩
  · rw [Arena.xml, Arena.nodeXml, whole, xml]
  · intro indent
    rw [Arena.prettyXml, whole, prettyXml]
  · intro id
    rw [Arena.nodeXml, Arena.text, h.subtree_arena]
    exact And.intro rfl rfl

end Document

end XmlStore.Xml
