/-
Edits of an arena.

An edit has to see to both ends of every link that it changes. Each is shown here to make of the row of a document the row of what the
edit of the same name makes of that document, with the same answer; and where that one is refused, the row stays as it is.

There are three things that an edit can do to the nodes of a forest: it gives one of them another content (`Arena.Holds.modify`,
`Arena.Holds.setLeaf`), it adds nodes below one of them (`Arena.Grown`), or it cuts the links between one of them and the one above it
(`Arena.unlinked`). The last is done in two ways, by the place of a text among the nodes beside it and by the number of any node.

Main statements:
- `Arena.Holds.grown`: copying node by node adds the forest that is copied, under the next free numbers.
- `Document.Gapless.rename_arena`, `setText_arena`, `setAttribute_arena`, `removeAttribute_arena`, `appendFragment_arena` and
  `detach_arena`: what each edit does to the row of a document.
-/
import Mathlib.Data.List.Nodup
import XmlStore.Proofs.Xml.Arena

namespace XmlStore.Xml

namespace Forest

variable {ι : Type}

/-! ## The outermost nodes after an edit -/

theorem outermost_append (f g : Forest ι) : (f.append g).outermost = f.outermost ++ g.outermost := by
  induction f with
  | nil => rfl
  | leaf mark kind value next ih => rw [append, outermost_leaf, outermost_leaf, ih, List.cons_append]
  | element mark name attributes children next _ ihn => rw [append, outermost_element, outermost_element, ihn, List.cons_append]

theorem number_append (f g : Forest ι) (first : Nat) :
    (f.append g).number first = (f.number first).append (g.number (first + f.size)) := by
  induction f generalizing first with
  | nil => rfl
  | leaf mark kind value next ih =>
    rw [append, number, ih, number, append, size, Nat.add_right_comm, Nat.add_assoc first next.size 1]
  | element mark name attributes children next _ ihn =>
    have after : first + 1 + children.size + next.size = first + (children.size + next.size + 1) := by omega
    rw [append, number, ihn, number, append, size, after]

section Marked

variable [DecidableEq ι]

theorem outermost_modify (mark : ι) (change : Element ι → Element ι) (f : Forest ι) :
    (f.modify mark change).outermost = f.outermost := by
  induction f with
  | nil => rfl
  | leaf i kind value next ih => rw [modify, outermost_leaf, outermost_leaf, ih]
  | element i name attributes children next _ ihn =>
    rw [modify]
    split
    · rfl
    · rw [outermost_element, outermost_element, ihn]

theorem outermost_setLeaf (mark : ι) (value : String) (f : Forest ι) : (f.setLeaf mark value).outermost = f.outermost := by
  induction f with
  | nil => rfl
  | leaf i kind old next ih =>
    rw [setLeaf]
    split
    · rfl
    · rw [outermost_leaf, outermost_leaf, ih]
  | element i name attributes children next _ ihn => rw [setLeaf, outermost_element, outermost_element, ihn]

theorem filter_outermost_of_notMem {f : Forest ι} {mark : ι} (absent : mark ∉ f.marks) :
    f.outermost.filter (· ≠ mark) = f.outermost := by
  rw [List.filter_eq_self]
  intro m hm
  exact decide_eq_true fun same => absent (same ▸ f.outermost_sublist.subset hm)

theorem outermost_remove {f : Forest ι} (once : f.marks.Nodup) (mark : ι) :
    (f.remove mark).outermost = f.outermost.filter (· ≠ mark) := by
  induction f with
  | nil => rfl
  | leaf i kind value next ih =>
    rw [marks_leaf, List.nodup_cons] at once
    rw [remove]
    by_cases hi : i = mark
    · subst hi
      rw [if_pos rfl, outermost_leaf, List.filter_cons_of_neg (by simp), filter_outermost_of_notMem once.1]
    · rw [if_neg hi, outermost_leaf, outermost_leaf, List.filter_cons_of_pos (by simpa using hi), ih once.2]
  | element i name attributes children next _ ihn =>
    have apart := apart once
    rw [remove]
    by_cases hi : i = mark
    · subst hi
      rw [if_pos rfl, outermost_element, List.filter_cons_of_neg (by simp), filter_outermost_of_notMem apart.notBeside]
    · rw [if_neg hi, outermost_element, outermost_element, List.filter_cons_of_pos (by simpa using hi), ihn apart.beside]

end Marked

end Forest

namespace Arena

variable {a a' a'' : Arena} {d : Document} {f : Forest Nat} {g g' : Forest Unit} {n : Node Nat} {above : Option Nat} {id p : Nat}
  {kind : NodeKind}

/-! ## Another content of a node -/

theorem getElem?_setKind (m : Nat) :
    (a.setKind id kind).nodes[m]? = (a.nodes[m]?).map fun n => if id = m then { n with kind } else n :=
  List.getElem?_modify _ _ _ _

theorem getElem?_setKind_of_ne {m : Nat} (other : m ≠ id) : (a.setKind id kind).nodes[m]? = a.nodes[m]? := by
  simp [getElem?_setKind, Ne.symm other]

/-- an element is changed, in itself or in what is below it, and nothing else in the forest is -/
theorem Holds.modify (h : a.Holds above f) (once : f.marks.Nodup) {name : String} {attributes : Attributes}
    (hit : a.kind id = .element name attributes) {change : Element Nat → Element Nat}
    (same : ∀ m ∈ f.marks, m ≠ id → a'.nodes[m]? = a.nodes[m]?)
    (changed : ∀ e, .element e ∈ f.nodes → e.mark = id → ∀ p, a.Holds p e.toForest →
      a'.Holds p (.element id (change e).name (change e).attributes (change e).children .nil)) :
    a'.Holds above (f.modify id change) := by
  induction f generalizing above with
  | nil => trivial
  | leaf i kind value next ih =>
    -- what is changed is not a leaf
    have other : i ≠ id := by
      rintro rfl
      rw [Arena.kind, node_eq_of_getElem? h.1] at hit
      cases hit
    refine ⟨(same i List.mem_cons_self other).trans h.1, ?_⟩
    exact ih h.2 (List.nodup_cons.1 once).2 (fun m hm => same m (List.mem_cons_of_mem _ hm))
      fun e he => changed e (Forest.mem_nodes_leaf.2 (Or.inr he))
  | element i name attributes children next ihc ihn =>
    have apart := Forest.apart once
    simp only [Forest.marks_element, List.forall_mem_cons, List.forall_mem_append] at same
    obtain ⟨sameHere, sameBelow, sameBeside⟩ := same
    rw [Forest.modify]
    by_cases hi : i = id
    · subst hi
      obtain ⟨here, below, -⟩ := changed ⟨i, name, attributes, children⟩ (Forest.mem_nodes_element.2 (Or.inl rfl)) rfl above
        ⟨h.1, h.2.1, trivial⟩
      have beside : a'.Holds above next := h.2.2.congr fun m hm => sameBeside m hm fun same => apart.notBeside (same ▸ hm)
      rw [if_pos rfl]
      exact ⟨here, below, beside⟩
    · rw [if_neg hi]
      refine ⟨?_, ihc h.2.1 apart.below sameBelow fun e he => changed e (Forest.mem_nodes_element.2 (Or.inr (Or.inl he))),
        ihn h.2.2 apart.beside sameBeside fun e he => changed e (Forest.mem_nodes_element.2 (Or.inr (Or.inr he)))⟩
      rw [sameHere hi, Forest.outermost_modify]
      exact h.1

/-- a leaf is given another value, and nothing else in the forest changes -/
theorem Holds.setLeaf (h : a.Holds above f) (once : f.marks.Nodup) {kind : LeafKind} {old : String} (hit : a.kind id = .leaf kind old)
    (value : String) : (a.setKind id (.leaf .text value)).Holds above (f.setLeaf id value) := by
  induction f generalizing above with
  | nil => trivial
  | leaf i kind old next ih =>
    rw [Forest.marks_leaf, List.nodup_cons] at once
    rw [Forest.setLeaf]
    by_cases hi : i = id
    · subst hi
      rw [if_pos rfl]
      refine ⟨?_, h.2.congr fun m hm => getElem?_setKind_of_ne fun same => once.1 (same ▸ hm)⟩
      rw [getElem?_setKind, h.1, Option.map_some, if_pos rfl]
    · rw [if_neg hi]
      exact ⟨(getElem?_setKind_of_ne hi).trans h.1, ih h.2 once.2⟩
  | element i name attributes children next ihc ihn =>
    have apart := Forest.apart once
    have other : i ≠ id := by
      rintro rfl
      rw [Arena.kind, node_eq_of_getElem? h.1] at hit
      cases hit
    refine ⟨?_, ihc h.2.1 apart.below, ihn h.2.2 apart.beside⟩
    rw [getElem?_setKind_of_ne other, Forest.outermost_setLeaf]
    exact h.1

/-- the first text among the siblings -/
theorem Holds.find?_isText (h : a.Holds above f) : f.outermost.find? a.isText = f.firstText? := by
  induction f with
  | nil => rfl
  | leaf i kind value next ih =>
    have isText : a.isText i = kind.isText := by rw [Arena.isText, Arena.kind, node_eq_of_getElem? h.1]
    rw [Forest.outermost_leaf, List.find?_cons, Forest.firstText?, isText, ih h.2]
    cases kind.isText <;> rfl
  | element i name attributes children next _ ihn =>
    have isText : a.isText i = false := by rw [Arena.isText, Arena.kind, node_eq_of_getElem? h.1]
    rw [Forest.outermost_element, List.find?_cons, Forest.firstText?, isText, ihn h.2.2]

/-- **A change at one element** of a document, which may come with new nodes, is that change wherever the element stands. -/
theorem Represents.modify (r : a.Represents d) (h : d.Numbered) {e : Element Nat} (found : d.element? id = some e)
    {change : Element Nat → Element Nat} {next : Nat} (size : a'.nodes.length = next)
    (same : ∀ m < a.nodes.length, m ≠ id → a'.nodes[m]? = a.nodes[m]?)
    (changed : ∀ p, a.Holds p e.toForest → a'.Holds p (.element id (change e).name (change e).attributes (change e).children .nil)) :
    a'.Represents { d.modify id change with next } := by
  obtain ⟨rfl, there⟩ := h.mem_of_element? found
  have there := there.imp And.left And.left
  have hit : a.kind e.mark = .element e.name e.attributes := by
    obtain ⟨p, here⟩ : ∃ p, a.Holds p (Node.element e).toForest := there.elim r.attached.of_mem r.detached.of_mem
    rw [Arena.kind, node_eq_of_getElem? here.1]
  have one {f : Element Nat} (hf : .element f ∈ d.attached.nodes ∨ .element f ∈ d.detached.nodes) (same : f.mark = e.mark) : f = e := by
    have other := h.element?_of_mem hf
    rw [same, found] at other
    exact (Option.some.inj other).symm
  have notTop : Document.top ≠ e.mark := by
    have known : e.mark ∈ d.marks := List.mem_append.2 (there.imp Forest.mem_marks_of_mem Forest.mem_marks_of_mem)
    exact (h.ne_top known).symm
  refine ⟨size, ?_, ?_, ?_⟩
  · rw [same Document.top (r.size ▸ h.next) notTop, r.topmost]
    simp only [Document.modify, Document.mapForests, Forest.outermost_modify]
  · refine r.attached.modify h.attached hit (fun m hm => same m (r.attached.given hm)) fun f hf hm p held => ?_
    obtain rfl := one (Or.inl hf) hm
    exact changed p held
  · refine r.detached.modify h.detached hit (fun m hm => same m (r.detached.given hm)) fun f hf hm p held => ?_
    obtain rfl := one (Or.inr hf) hm
    exact changed p held

theorem kind_of_isText (h : a.isText id = true) : ∃ kind value, a.kind id = .leaf kind value := by
  unfold isText at h
  split at h
  · exact ⟨_, _, ‹_›⟩
  · cases h

/-- **A leaf of a document** is given another value. -/
theorem Represents.setLeaf (r : a.Represents d) (h : d.Numbered) {kind : LeafKind} {old : String} (hit : a.kind id = .leaf kind old)
    (value : String) : (a.setKind id (.leaf .text value)).Represents (d.mapForests (·.setLeaf id value)) := by
  have notTop : Document.top ≠ id := by
    rintro rfl
    rw [Arena.kind, node_eq_of_getElem? r.topmost] at hit
    cases hit
  refine ⟨?_, ?_, r.attached.setLeaf h.attached hit value, r.detached.setLeaf h.detached hit value⟩
  · rw [Arena.setKind, List.length_modify, r.size]
    rfl
  · rw [getElem?_setKind_of_ne notTop, r.topmost, Document.mapForests, Forest.outermost_setLeaf]

/-! ## New nodes -/

/-- what it means for an arena that a forest was added below one of its nodes, after what was there -/
structure Grown (a a' : Arena) (p : Nat) (g : Forest Unit) : Prop where
  size : a'.nodes.length = a.nodes.length + g.size
  same : ∀ m < a.nodes.length, m ≠ p → a'.nodes[m]? = a.nodes[m]?
  above : a'.nodes[p]? = (a.nodes[p]?).map fun n => { n with children := n.children ++ (g.number a.nodes.length).outermost }
  below : a'.Holds (some p) (g.number a.nodes.length)

theorem Grown.refl (a : Arena) (p : Nat) : Grown a a p .nil where
  size := rfl
  same _ _ _ := rfl
  above := by
    cases a.nodes[p]? with
    | none => rfl
    | some n => simp [Forest.number]
  below := trivial

theorem Grown.append (hp : p < a.nodes.length) (first : Grown a a' p g) (then' : Grown a' a'' p g') :
    Grown a a'' p (g.append g') where
  size := by rw [then'.size, first.size, Forest.size_append, Nat.add_assoc]
  same m hm other := (then'.same m (first.size ▸ Nat.lt_add_right _ hm) other).trans (first.same m hm other)
  above := by
    rw [then'.above, first.above, Forest.number_append, Forest.outermost_append, first.size, Option.map_map]
    congr 1
    funext n
    simp [List.append_assoc]
  below := by
    rw [Forest.number_append]
    refine Holds.append (first.below.congr fun m hm => then'.same m (first.below.given hm) ?_) ?_
    · rw [Forest.marks_number, List.mem_range'_1] at hm
      omega
    · rw [← first.size]
      exact then'.below

theorem getElem?_pushChild (hp : p < a.nodes.length) (m : Nat) :
    (a.pushChild p kind).2.nodes[m]? =
      if m = a.nodes.length then some ⟨kind, some p, []⟩
      else (a.nodes[m]?).map fun n => if p = m then { n with children := n.children ++ [a.nodes.length] } else n := by
  simp only [pushChild, setChildren, List.getElem?_modify, List.getElem?_append]
  by_cases old : m < a.nodes.length
  · rw [if_pos old, if_neg (Nat.ne_of_lt old)]
    by_cases same : p = m
    · subst same
      simp [children, node, List.getElem?_append_left old, old]
    · simp [same]
  · by_cases new : m = a.nodes.length
    · subst new
      simp [Nat.ne_of_lt hp]
    · have out : ¬ m - a.nodes.length = 0 := by omega
      rw [if_neg old, if_neg new, List.getElem?_eq_none (Nat.le_of_not_lt old), List.getElem?_eq_none (by simp; omega)]
      rfl

theorem length_pushChild (a : Arena) (p : Nat) (kind : NodeKind) : (a.pushChild p kind).2.nodes.length = a.nodes.length + 1 := by
  simp [pushChild, setChildren]

theorem getElem?_pushChild_of_ne (hp : p < a.nodes.length) {m : Nat} (hm : m < a.nodes.length) (other : m ≠ p) :
    (a.pushChild p kind).2.nodes[m]? = a.nodes[m]? := by
  rw [getElem?_pushChild hp, if_neg (Nat.ne_of_lt hm)]
  simp [Ne.symm other]

theorem getElem?_pushChild_parent (hp : p < a.nodes.length) :
    (a.pushChild p kind).2.nodes[p]? = (a.nodes[p]?).map fun n => { n with children := n.children ++ [a.nodes.length] } := by
  rw [getElem?_pushChild hp, if_neg (Nat.ne_of_lt hp)]
  simp

theorem getElem?_pushChild_new (hp : p < a.nodes.length) :
    (a.pushChild p kind).2.nodes[a.nodes.length]? = some ⟨kind, some p, []⟩ := by
  rw [getElem?_pushChild hp, if_pos rfl]

theorem Grown.leaf (hp : p < a.nodes.length) (kind : LeafKind) (value : String) :
    Grown a (a.pushChild p (.leaf kind value)).2 p (.leaf () kind value .nil) where
  size := length_pushChild a p _
  same _ hm other := getElem?_pushChild_of_ne hp hm other
  above := getElem?_pushChild_parent hp
  below := ⟨getElem?_pushChild_new hp, trivial⟩

/-- an element is pushed first, and what is below it after that -/
theorem Grown.element (hp : p < a.nodes.length) {name : String} {attributes : Attributes}
    (inside : Grown (a.pushChild p (.element name attributes)).2 a' a.nodes.length g) :
    Grown a a' p (.element () name attributes g .nil) where
  size := by
    rw [inside.size, length_pushChild, Forest.size, Forest.size]
    omega
  same m hm other := by
    have old : m < (a.pushChild p (.element name attributes)).2.nodes.length := by
      rw [length_pushChild]
      exact Nat.lt_succ_of_lt hm
    exact (inside.same m old (Nat.ne_of_lt hm)).trans (getElem?_pushChild_of_ne hp hm other)
  above := by
    have old : p < (a.pushChild p (.element name attributes)).2.nodes.length := by
      rw [length_pushChild]
      exact Nat.lt_succ_of_lt hp
    exact (inside.same p old (Nat.ne_of_lt hp)).trans (getElem?_pushChild_parent hp)
  below := by
    have next : (a.pushChild p (.element name attributes)).2.nodes.length = a.nodes.length + 1 := length_pushChild a p _
    have here := inside.above
    have below := inside.below
    rw [next] at here below
    rw [getElem?_pushChild_new hp, Option.map_some, List.nil_append] at here
    exact ⟨here, below, trivial⟩

theorem Grown.lt (h : Grown a a' p g) (hp : p < a.nodes.length) : p < a'.nodes.length :=
  h.size ▸ Nat.lt_add_right _ hp

/-- **Copying node by node** adds the forest that is copied. -/
theorem Holds.grown {source : Arena} (h : source.Holds above f) {levels : Nat} (enough : f.size ≤ levels) {a : Arena}
    (hp : p < a.nodes.length) :
    Grown a (f.outermost.foldl (fun a child => (source.copySubtree levels a p child).2) a) p f.erase := by
  induction f generalizing above levels a p with
  | nil => exact .refl a p
  | leaf i kind value next ih =>
    rw [Forest.size] at enough
    have copied : source.copySubtree levels a p i = a.pushChild p (.leaf kind value) := by
      have data := node_eq_of_getElem? h.1
      cases levels with
      | zero => omega
      | succ levels => simp [copySubtree, Arena.kind, Arena.children, data]
    have first := Grown.leaf hp kind value
    rw [Forest.outermost_leaf, List.foldl_cons, copied]
    exact first.append hp (ih h.2 (by omega) (first.lt hp))
  | element i name attributes children next ihc ihn =>
    rw [Forest.size] at enough
    obtain ⟨levels, rfl⟩ : ∃ k, levels = k + 1 := Nat.exists_eq_succ_of_ne_zero (by omega)
    have copied : (source.copySubtree (levels + 1) a p i).2 = children.outermost.foldl
        (fun b child => (source.copySubtree levels b a.nodes.length child).2) (a.pushChild p (.element name attributes)).2 := by
      have data := node_eq_of_getElem? h.1
      simp [copySubtree, Arena.kind, Arena.children, data, pushChild]
    have room : a.nodes.length < (a.pushChild p (.element name attributes)).2.nodes.length := by
      rw [length_pushChild]
      exact Nat.lt_succ_self _
    have first := Grown.element hp (ihc h.2.1 (show children.size ≤ levels by omega) room)
    rw [Forest.outermost_element, List.foldl_cons, copied]
    exact first.append hp (ihn h.2.2 (by omega) (first.lt hp))

theorem copySubtree_fst (source : Arena) (levels : Nat) (a : Arena) (p node : Nat) :
    (source.copySubtree levels a p node).1 = a.nodes.length := by
  cases levels <;> rfl

/-- the copies of the outermost nodes have the numbers that these get -/
theorem Holds.copies {source : Arena} (h : source.Holds above f) {levels : Nat} (enough : f.size ≤ levels) {a : Arena}
    (hp : p < a.nodes.length) (added : List Nat) :
    f.outermost.foldl (fun x node => (x.1 ++ [(source.copySubtree levels x.2 p node).1], (source.copySubtree levels x.2 p node).2))
        (added, a) =
      (added ++ (f.erase.number a.nodes.length).outermost,
        f.outermost.foldl (fun a child => (source.copySubtree levels a p child).2) a) := by
  induction f generalizing above a added with
  | nil => simp [Forest.erase, Forest.number]
  | leaf i kind value next ih =>
    rw [Forest.size] at enough
    have first : Grown a (source.copySubtree levels a p i).2 p (.leaf () kind value .nil) :=
      Holds.grown (f := .leaf i kind value .nil) ⟨h.1, trivial⟩ (by rw [Forest.size, Forest.size]; omega) hp
    have rest := ih h.2 (by omega) (first.lt hp) (added ++ [a.nodes.length])
    rw [Forest.outermost_leaf, List.foldl_cons, List.foldl_cons, copySubtree_fst, rest, first.size, Forest.erase, Forest.number,
      Forest.outermost_leaf, List.append_assoc]
    rfl
  | element i name attributes children next _ ihn =>
    rw [Forest.size] at enough
    have first : Grown a (source.copySubtree levels a p i).2 p (.element () name attributes children.erase .nil) :=
      Holds.grown (f := .element i name attributes children .nil) ⟨h.1, h.2.1, trivial⟩
        (by rw [Forest.size, Forest.size]; omega) hp
    have rest := ihn h.2.2 (by omega) (first.lt hp) (added ++ [a.nodes.length])
    have after : a.nodes.length + (children.erase.size + 0 + 1) = a.nodes.length + 1 + children.erase.size := by omega
    rw [Forest.outermost_element, List.foldl_cons, List.foldl_cons, copySubtree_fst, rest, first.size, Forest.size, Forest.size,
      after, Forest.erase, Forest.number, Forest.outermost_element, List.append_assoc]
    rfl

/-- **New nodes below an element** of a document. -/
theorem Represents.grow (r : a.Represents d) (h : d.Numbered) {e : Element Nat} (found : d.element? id = some e)
    (grown : Grown a a' id g) : a'.Represents (d.appendNodes id g) := by
  refine r.modify h found (by rw [grown.size, r.size]) grown.same fun p held => ?_
  obtain ⟨rfl, there⟩ := h.mem_of_element? found
  have known : .element e ∈ d.attached.nodes ∨ .element e ∈ d.detached.nodes := there.imp And.left And.left
  have notBelow : e.mark ∉ e.children.marks :=
    known.elim (fun ha => Forest.notMem_children h.attached ha) fun hd => Forest.notMem_children h.detached hd
  obtain ⟨here, inside, -⟩ := held
  refine ⟨?_, ?_, trivial⟩
  · rw [grown.above, here, Option.map_some, Forest.outermost_append, r.size]
  · refine Holds.append (inside.congr fun m hm => grown.same m (inside.given hm) fun same => notBelow (same ▸ hm)) ?_
    rw [← r.size]
    exact grown.below

/-! ## Cut links -/

/-- an arena in which the links between a node and the one above it are cut at both ends -/
def unlinked (a : Arena) (id : Nat) : Arena :=
  ⟨a.nodes.mapIdx fun m n => ⟨n.kind, if m = id then none else n.parent, n.children.filter (· ≠ id)⟩⟩

theorem getElem?_unlinked (a : Arena) (id m : Nat) : (a.unlinked id).nodes[m]? =
    (a.nodes[m]?).map fun n => ⟨n.kind, if m = id then none else n.parent, n.children.filter (· ≠ id)⟩ :=
  List.getElem?_mapIdx

theorem Holds.unlinked (h : a.Holds above f) (once : f.marks.Nodup) (id : Nat) : (a.unlinked id).Holds above (f.remove id) := by
  induction f generalizing above with
  | nil => trivial
  | leaf i kind value next ih =>
    rw [Forest.marks_leaf, List.nodup_cons] at once
    have beside := ih h.2 once.2
    rw [Forest.remove]
    by_cases hi : i = id
    · subst hi
      rwa [if_pos rfl, ← Forest.remove_of_notMem once.1]
    · rw [if_neg hi]
      refine ⟨?_, beside⟩
      rw [getElem?_unlinked, h.1, Option.map_some, if_neg hi, List.filter_nil]
  | element i name attributes children next ihc ihn =>
    have apart := Forest.apart once
    have beside := ihn h.2.2 apart.beside
    rw [Forest.remove]
    by_cases hi : i = id
    · subst hi
      rwa [if_pos rfl, ← Forest.remove_of_notMem apart.notBeside]
    · rw [if_neg hi]
      refine ⟨?_, ihc h.2.1 apart.below, beside⟩
      rw [getElem?_unlinked, h.1, Option.map_some, if_neg hi, Forest.outermost_remove apart.below]

/-- the node itself keeps what is below it -/
theorem Holds.alone (h : a.Holds above f) (once : f.marks.Nodup) (hn : n ∈ f.nodes) : (a.unlinked n.mark).Holds none n.toForest := by
  have notBelow := Forest.notMem_children once hn
  obtain ⟨p, here, inside⟩ := h.node_of_mem hn
  have below := inside.unlinked (Forest.nodup_children once hn) n.mark
  rw [Forest.remove_of_notMem notBelow] at below
  have cut : (a.unlinked n.mark).nodes[n.mark]? = some ⟨n.kind, none, n.children.outermost⟩ := by
    rw [getElem?_unlinked, here, Option.map_some, if_pos rfl, Forest.filter_outermost_of_notMem notBelow]
  cases n with
  | leaf i kind value => exact ⟨cut, trivial⟩
  | element e => exact ⟨cut, below, trivial⟩

/-- **A node that is taken out** of a document. -/
theorem Represents.unlinked (r : a.Represents d) (h : d.Numbered) (above : d.parent? id = some p) :
    (a.unlinked id).Represents (d.detach id).1 := by
  have size : (a.unlinked id).nodes.length = d.next := by rw [Arena.unlinked, List.length_mapIdx, r.size]
  obtain ⟨n, rfl, there⟩ := h.detach_of_parent? above
  have notTop : Document.top ≠ n.mark := by
    have known := there.imp (fun ha => Forest.mem_marks_of_mem ha.1) fun hd => Forest.mem_marks_of_mem hd.1
    exact (h.ne_top (List.mem_append.2 known)).symm
  have topmost : (a.unlinked n.mark).nodes[Document.top]? = some ⟨.document, none, (d.attached.remove n.mark).outermost⟩ := by
    rw [getElem?_unlinked, r.topmost, Option.map_some, if_neg notTop, Forest.outermost_remove h.attached]
  have attached := r.attached.unlinked h.attached n.mark
  have detached := r.detached.unlinked h.detached n.mark
  rcases there with ⟨ha, moved⟩ | ⟨hd, moved⟩
  · have other := h.disjoint (Forest.mem_marks_of_mem ha)
    rw [Forest.remove_of_notMem other] at detached
    rw [moved]
    exact ⟨size, topmost, attached, detached.append (r.attached.alone h.attached ha)⟩
  · have other : n.mark ∉ d.attached.marks := fun ha => h.disjoint ha (Forest.mem_marks_of_mem hd)
    rw [Forest.remove_of_notMem other] at attached topmost
    rw [moved]
    exact ⟨size, topmost, attached, detached.append (r.detached.alone h.detached hd)⟩

end Arena

namespace Document

variable {d : Document} {id : Nat} {e : Element Nat}

/-! ## The edits -/

/-- what an edit of a document comes to, as the row of the document that it leaves and with its answer -/
def told {α : Type} (d : Document) : Except XmlError (Document × α) → Except XmlError α × Arena
  | .ok (d', answer) => (.ok answer, d'.arena)
  | .error e => (.error e, d.arena)

theorem Numbered.requireElement_arena (h : d.Numbered) (id : Nat) :
    d.arena.requireElement id = (d.requireElement id).map fun e => (e.name, e.attributes) := by
  rw [Arena.requireElement, h.kind_arena, kind, requireElement, element?]
  cases d.find? id with
  | none => rfl
  | some n => cases n <;> rfl

theorem Gapless.setKind_arena (h : d.Gapless) (found : d.element? id = some e) (change : Element Nat → Element Nat)
    (kept : ∀ e, (change e).children = e.children) :
    d.arena.setKind id (.element (change e).name (change e).attributes) = (d.modify id change).arena := by
  have r := h.represents
  have represents : (d.arena.setKind id (.element (change e).name (change e).attributes)).Represents (d.modify id change) := by
    refine r.modify h.toNumbered found ?_ (fun m _ other => Arena.getElem?_setKind_of_ne other) fun p held => ?_
    · rw [Arena.setKind, List.length_modify, r.size]
    · obtain ⟨rfl, there⟩ := h.mem_of_element? found
      have known : .element e ∈ d.attached.nodes ∨ .element e ∈ d.detached.nodes := there.imp And.left And.left
      have notBelow : e.mark ∉ e.children.marks :=
        known.elim (fun ha => Forest.notMem_children h.attached ha) fun hd => Forest.notMem_children h.detached hd
      obtain ⟨here, inside, -⟩ := held
      rw [kept]
      refine ⟨?_, inside.congr fun m hm => Arena.getElem?_setKind_of_ne fun same => notBelow (same ▸ hm), trivial⟩
      rw [Arena.getElem?_setKind, here, Option.map_some, if_pos rfl]
  exact represents.eq_arena (Becomes.gapless (.changed id kept) h)

theorem Gapless.rename_arena (h : d.Gapless) (id : Nat) (name : String) :
    d.arena.rename id name = d.told ((d.rename id name).map (·, ())) := by
  rw [Arena.rename, Document.rename, h.requireElement_arena]
  cases checkName name with
  | error e => rfl
  | ok _ =>
    cases found : d.requireElement id with
    | error e => rfl
    | ok e =>
      have same := h.setKind_arena (element?_of_requireElement found) (fun e => { e with name }) fun _ => rfl
      exact congrArg (Prod.mk _) same

theorem Gapless.setAttribute_arena (h : d.Gapless) (id : Nat) (name value : String) :
    d.arena.setAttribute id name value = d.told ((d.setAttribute id name value).map (·, ())) := by
  rw [Arena.setAttribute, Document.setAttribute, h.requireElement_arena]
  cases checkName name with
  | error e => rfl
  | ok _ =>
    cases checkChars .attributeValue value.toList with
    | error e => rfl
    | ok _ =>
      cases found : d.requireElement id with
      | error e => rfl
      | ok e =>
        have same := h.setKind_arena (element?_of_requireElement found)
          (fun e => { e with attributes := e.attributes.set name value }) fun _ => rfl
        exact congrArg (Prod.mk _) same

/-- attributes are fewer than before exactly if one was there -/
theorem length_remove_ne (attributes : Attributes) (name : String) :
    decide ((attributes.remove name).length ≠ attributes.length) = attributes.any (·.1 == name) := by
  rw [Bool.eq_iff_iff, decide_eq_true_iff, Attributes.remove, ne_eq, List.length_filter_eq_length_iff, List.any_eq_true]
  simp

theorem Gapless.removeAttribute_arena (h : d.Gapless) (id : Nat) (name : String) :
    d.arena.removeAttribute id name = d.told (d.removeAttribute id name) := by
  rw [Arena.removeAttribute, Document.removeAttribute, h.requireElement_arena]
  cases found : d.requireElement id with
  | error e => rfl
  | ok e =>
    have same := h.setKind_arena (element?_of_requireElement found)
      (fun e => { e with attributes := e.attributes.remove name }) fun _ => rfl
    have answer := length_remove_ne e.attributes name
    exact Prod.ext (congrArg Except.ok answer) same

theorem Gapless.appendFragment_arena (h : d.Gapless) {fragment : Document} (hf : fragment.Numbered) (id : Nat) :
    d.arena.appendFragment id fragment.arena = d.told (d.appendFragment id fragment) := by
  rw [Arena.appendFragment, Document.appendFragment, h.requireElement_arena]
  cases found : d.requireElement id with
  | error e => rfl
  | ok e =>
    have known := element?_of_requireElement found
    have r := h.represents
    have there : id < d.arena.nodes.length := r.size ▸ h.lt_next known
    have held := hf.represents.attached
    have enough := held.size_le hf.attached
    have grown := (r.grow h.toNumbered known (held.grown enough there)).eq_arena (Becomes.gapless (.extended known _) h)
    have copies := held.copies enough there []
    have topmost : fragment.arena.children top = fragment.attached.outermost := hf.children_arena top
    rw [r.size, List.nil_append] at copies
    rw [topmost]
    simp only [Except.map, bind, Except.bind, pure, Except.pure]
    rw [copies]
    exact congrArg (Prod.mk _) grown

/-- **A link that is cut** at both ends, as an edit does it. -/
theorem Gapless.cut_arena (h : d.Gapless) {c p : Nat} (above : d.parent? c = some p) :
    (d.arena.setChildren p ((d.arena.children p).filter (· ≠ c))).setParent c none = (d.detach c).1.arena := by
  have cut : (d.arena.setChildren p ((d.arena.children p).filter (· ≠ c))).setParent c none = d.arena.unlinked c := by
    have elsewhere {m : Nat} (other : m ≠ p) : (d.childNumbers m).filter (· ≠ c) = d.childNumbers m := by
      rw [List.filter_eq_self]
      intro k hk
      refine decide_eq_true fun same => other ?_
      have found := h.parent?_eq_some_iff.2 (same ▸ hk)
      exact Option.some.inj (found.symm.trans above)
    refine Arena.ext_getElem? fun m => ?_
    rw [Arena.getElem?_unlinked, Arena.setParent, Arena.setChildren, List.getElem?_modify, List.getElem?_modify, h.children_arena]
    by_cases given : m < d.next
    · rw [getElem?_arena given]
      have below : (if p = m then (d.childNumbers p).filter (· ≠ c) else d.childNumbers m) = (d.childNumbers m).filter (· ≠ c) := by
        by_cases here : p = m
        · rw [if_pos here, here]
        · rw [if_neg here, elsewhere (Ne.symm here)]
      have upwards : (if c = m then none else d.parent? m) = if m = c then none else d.parent? m := by simp only [eq_comm]
      simp only [Option.map_eq_map, Option.map_some]
      rw [← below, ← upwards]
      by_cases itself : c = m <;> by_cases here : p = m <;> simp [itself, here]
    · rw [List.getElem?_eq_none (h.represents.size ▸ Nat.le_of_not_lt given)]
      rfl
  rw [cut]
  exact (h.represents.unlinked h.toNumbered above).eq_arena (Becomes.gapless (.detached c) h)

theorem Gapless.detach_arena (h : d.Gapless) (id : Nat) : d.arena.detach id = ((d.detach id).2, (d.detach id).1.arena) := by
  rw [Arena.detach, h.parent?_arena]
  cases above : d.parent? id with
  | none =>
    rw [Document.detach, above]
  | some p =>
    -- the node is among those below its parent, so keeping the others makes these fewer
    have listed : id ∈ d.arena.children p := by
      rw [h.children_arena]
      exact h.parent?_eq_some_iff.1 above
    have fewer : ((d.arena.children p).filter (· ≠ id)).length ≠ (d.arena.children p).length :=
      Nat.ne_of_lt (List.length_filter_lt_length_iff_exists.2 ⟨id, listed, by simp⟩)
    have removed : (d.detach id).2 = true := by rw [Document.detach, above]
    have cut := h.cut_arena above
    simp only [if_pos fewer, removed]
    rw [cut]

/-- one of the children of an element is unlinked by its place in the list -/
theorem Gapless.eraseIdx_arena (h : d.Gapless) {p i : Nat} (lt : i < (d.childNumbers p).length) :
    (d.arena.setChildren p ((d.childNumbers p).eraseIdx i)).setParent (d.childNumbers p)[i] none =
      (d.detach (d.childNumbers p)[i]).1.arena := by
  have others : (d.childNumbers p).eraseIdx i = (d.childNumbers p).filter (· ≠ (d.childNumbers p)[i]) := by
    have once := h.nodup_childNumbers p
    rw [← List.Nodup.erase_getElem once i lt, List.Nodup.erase_eq_filter once]
    refine List.filter_congr fun m _ => ?_
    rw [Bool.eq_iff_iff, bne_iff_ne, decide_eq_true_iff]
  have above : d.parent? (d.childNumbers p)[i] = some p := h.parent?_eq_some_iff.2 (List.getElem_mem lt)
  have cut := h.cut_arena above
  rwa [h.children_arena, ← others] at cut

/-- the first text among the children of an element, by its place in the list and by its number -/
theorem Gapless.firstText?_arena (h : d.Gapless) (known : d.element? id = some e) :
    e.children.firstText? = ((d.childNumbers id).findIdx? d.arena.isText).bind fun i => (d.childNumbers id)[i]? := by
  obtain ⟨rfl, there⟩ := h.mem_of_element? known
  have there := there.imp And.left And.left
  have held : d.arena.Holds (some e.mark) e.children := by
    obtain ⟨p, -, below⟩ := there.elim h.represents.attached.node_of_mem h.represents.detached.node_of_mem
    exact below
  have children : d.childNumbers e.mark = e.children.outermost := h.childNumbers_of_mem there
  rw [children, ← held.find?_isText, List.find?_eq_bind_findIdx?_getElem?]

theorem Gapless.setText_arena (h : d.Gapless) (id : Nat) (text : String) :
    d.arena.setText id text = d.told ((d.setText id text).map (·, ())) := by
  rw [Arena.setText, Document.setText, h.requireElement_arena]
  cases checkChars .text text.toList with
  | error e => rfl
  | ok _ =>
    cases found : d.requireElement id with
    | error e => rfl
    | ok e =>
      have known := element?_of_requireElement found
      have r := h.represents
      have first := h.firstText?_arena known
      simp only [Except.map, bind, Except.bind, pure, Except.pure, h.children_arena]
      cases place : (d.childNumbers id).findIdx? d.arena.isText with
      | none =>
        rw [place, Option.bind_none] at first
        rw [first]
        cases text.isEmpty with
        | true => rfl
        | false =>
          have there : id < d.arena.nodes.length := r.size ▸ h.lt_next known
          have grown := r.grow h.toNumbered known (.leaf there .text text)
          exact congrArg (Prod.mk _) (grown.eq_arena (Becomes.gapless (.extended known _) h))
      | some i =>
        obtain ⟨lt, isText, -⟩ := List.findIdx?_eq_some_iff_getElem.1 place
        have child : (d.childNumbers id)[i] = (d.childNumbers id).getD i top := List.getElem_eq_getD top
        rw [child] at isText
        rw [place, Option.bind_some, List.getElem?_eq_getElem lt, child] at first
        rw [first]
        cases text.isEmpty with
        | true =>
          have cut := h.eraseIdx_arena lt
          rw [child] at cut
          exact congrArg (Prod.mk _) cut
        | false =>
          obtain ⟨kind, value, hit⟩ := Arena.kind_of_isText isText
          have represents := r.setLeaf h.toNumbered hit text
          exact congrArg (Prod.mk _) (represents.eq_arena (Becomes.gapless (.rewritten _ text) h))

end Document

end XmlStore.Xml
