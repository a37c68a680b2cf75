/-
The marks of a forest.

Where no mark occurs twice, a mark stands for one node, and edits can be followed by what they do to the list of marks: they keep
it, add new ones, or move those of one node and of all below it elsewhere.

Main statements:
- `Forest.find?_of_mem`: a node is found under its mark.
- `Forest.marks_modify_append`, `Forest.marks_remove`: what adding nodes to an element and taking a node out do to the marks.
-/
import XmlStore.Proofs.Xml.Forest

namespace XmlStore.Xml

theorem Node.marks_toForest {ι : Type} (n : Node ι) : n.toForest.marks = n.mark :: n.children.marks := by
  cases n with
  | leaf => rfl
  | element e => simp [Node.toForest, Forest.marks, Forest.nodes, Node.mark, Node.children]

namespace Forest

variable {ι : Type}

@[simp] theorem marks_nil : (nil : Forest ι).marks = [] := rfl

@[simp] theorem marks_leaf (mark : ι) (kind : LeafKind) (value : String) (next : Forest ι) :
    (leaf mark kind value next).marks = mark :: next.marks := rfl

@[simp] theorem marks_element (mark : ι) (name : String) (attributes : Attributes) (children next : Forest ι) :
    (element mark name attributes children next).marks = mark :: (children.marks ++ next.marks) := by
  simp [marks, nodes, Node.mark]

theorem nodes_append (f g : Forest ι) : (f.append g).nodes = f.nodes ++ g.nodes := by
  induction f with
  | nil => rfl
  | leaf mark kind value next ih => rw [append, nodes, nodes, ih, List.cons_append]
  | element mark name attributes children next _ ihn => rw [append, nodes, nodes, ihn, List.cons_append, List.append_assoc]

theorem marks_append (f g : Forest ι) : (f.append g).marks = f.marks ++ g.marks := by
  rw [marks, nodes_append, List.map_append, marks, marks]

theorem marks_number (f : Forest ι) (first : Nat) : (f.number first).marks = List.range' first f.size := by
  induction f generalizing first with
  | nil => rfl
  | leaf mark kind value next ih => rw [number, marks_leaf, ih, size, List.range'_succ]
  | element mark name attributes children next ihc ihn =>
    rw [number, marks_element, ihc, ihn, size, List.range'_succ, ← List.range'_append_1]

theorem length_marks (f : Forest ι) : f.marks.length = f.size := by
  induction f with
  | nil => rfl
  | leaf mark kind value next ih => rw [marks_leaf, List.length_cons, ih, size]
  | element mark name attributes children next ihc ihn =>
    rw [marks_element, List.length_cons, List.length_append, ihc, ihn, size]

theorem size_erase (f : Forest ι) : f.erase.size = f.size := by
  induction f with
  | nil => rfl
  | leaf mark kind value next ih => rw [erase, size, size, ih]
  | element mark name attributes children next ihc ihn => rw [erase, size, size, ihc, ihn]

theorem mem_marks {f : Forest ι} {mark : ι} : mark ∈ f.marks ↔ ∃ n ∈ f.nodes, n.mark = mark := List.mem_map

/-! ## Nodes and what is below them -/

theorem mem_nodes_leaf {mark : ι} {kind : LeafKind} {value : String} {next : Forest ι} {n : Node ι} :
    n ∈ (leaf mark kind value next).nodes ↔ n = .leaf mark kind value ∨ n ∈ next.nodes := List.mem_cons

theorem mem_nodes_element {mark : ι} {name : String} {attributes : Attributes} {children next : Forest ι} {n : Node ι} :
    n ∈ (element mark name attributes children next).nodes ↔
      n = .element ⟨mark, name, attributes, children⟩ ∨ n ∈ children.nodes ∨ n ∈ next.nodes := by
  rw [nodes, List.mem_cons, List.mem_append]

/-- siblings come in document order -/
theorem siblings_sublist (f : Forest ι) : f.siblings.Sublist f.nodes := by
  induction f with
  | nil => exact .slnil
  | leaf mark kind value next ih => exact ih.cons_cons _
  | element mark name attributes children next _ ihn =>
    exact (ihn.trans (List.sublist_append_right children.nodes next.nodes)).cons_cons _

theorem mem_nodes_of_mem_siblings {f : Forest ι} {n : Node ι} (h : n ∈ f.siblings) : n ∈ f.nodes :=
  f.siblings_sublist.subset h

theorem mem_nodes_of_mem_children {f : Forest ι} {n m : Node ι} (hn : n ∈ f.nodes) (hm : m ∈ n.children.nodes) :
    m ∈ f.nodes := by
  induction f with
  | nil => exact absurd hn List.not_mem_nil
  | leaf mark kind value next ih =>
    rcases mem_nodes_leaf.1 hn with rfl | hn
    · exact absurd hm List.not_mem_nil
    · exact mem_nodes_leaf.2 (Or.inr (ih hn))
  | element mark name attributes children next ihc ihn =>
    rcases mem_nodes_element.1 hn with rfl | hn | hn
    · exact mem_nodes_element.2 (Or.inr (Or.inl hm))
    · exact mem_nodes_element.2 (Or.inr (Or.inl (ihc hn)))
    · exact mem_nodes_element.2 (Or.inr (Or.inr (ihn hn)))

/-- a node and all that is below it stand in the forest in their order -/
theorem sublist_marks {f : Forest ι} {n : Node ι} (hn : n ∈ f.nodes) : (n.mark :: n.children.marks).Sublist f.marks := by
  induction f with
  | nil => exact absurd hn List.not_mem_nil
  | leaf mark kind value next ih =>
    rcases mem_nodes_leaf.1 hn with rfl | hn
    · exact (List.nil_sublist _).cons_cons _
    · exact (ih hn).cons _
  | element mark name attributes children next ihc ihn =>
    rw [marks_element]
    rcases mem_nodes_element.1 hn with rfl | hn | hn
    · exact (List.sublist_append_left _ _).cons_cons _
    · exact ((ihc hn).trans (List.sublist_append_left _ _)).cons _
    · exact ((ihn hn).trans (List.sublist_append_right _ _)).cons _

theorem mem_filterMap_element? {nodes : List (Node ι)} {e : Element ι} :
    e ∈ nodes.filterMap Node.element? ↔ Node.element e ∈ nodes := by
  rw [List.mem_filterMap]
  constructor
  · rintro ⟨n, hn, he⟩
    cases n with
    | leaf => simp [Node.element?] at he
    | element e' =>
      simp only [Node.element?, Option.some.injEq] at he
      exact he ▸ hn
  · exact fun h => ⟨.element e, h, rfl⟩

theorem mem_allElements {f : Forest ι} {e : Element ι} : e ∈ f.allElements ↔ Node.element e ∈ f.nodes :=
  mem_filterMap_element?

/-- the elements have their marks in the order of all marks -/
theorem sublist_marks_allElements (f : Forest ι) : (f.allElements.map Element.mark).Sublist f.marks := by
  have sublist : ∀ l : List (Node ι), ((l.filterMap Node.element?).map Element.mark).Sublist (l.map Node.mark) := by
    intro l
    induction l with
    | nil => exact List.Sublist.refl _
    | cons n l ih =>
      cases n with
      | leaf mark kind value => exact ih.cons mark
      | element e => exact ih.cons_cons e.mark
  exact sublist f.nodes

theorem nodup_allElements {f : Forest ι} (hf : f.marks.Nodup) : f.allElements.Nodup :=
  List.Pairwise.of_map Element.mark (fun _ _ apart same => apart (congrArg Element.mark same)) (f.sublist_marks_allElements.nodup hf)

theorem mem_elements {f : Forest ι} {e : Element ι} : e ∈ f.elements ↔ Node.element e ∈ f.siblings :=
  mem_filterMap_element?

/-! ## Where no mark occurs twice -/

theorem mem_marks_of_mem {f : Forest ι} {n : Node ι} (h : n ∈ f.nodes) : n.mark ∈ f.marks := mem_marks.2 ⟨n, h, rfl⟩

/-- what it means for an element and its siblings that no mark occurs twice -/
structure Apart (mark : ι) (children next : Forest ι) : Prop where
  notBelow : mark ∉ children.marks
  notBeside : mark ∉ next.marks
  below : children.marks.Nodup
  beside : next.marks.Nodup
  disjoint : ∀ m ∈ children.marks, m ∉ next.marks

theorem apart {mark : ι} {name : String} {attributes : Attributes} {children next : Forest ι}
    (h : (element mark name attributes children next).marks.Nodup) : Apart mark children next := by
  rw [marks_element, List.nodup_cons, List.mem_append, not_or, List.nodup_append] at h
  obtain ⟨⟨hb, hs⟩, hc, hn, hd⟩ := h
  exact ⟨hb, hs, hc, hn, fun m hm hm' => hd m hm m hm' rfl⟩

theorem notMem_children {f : Forest ι} (hf : f.marks.Nodup) {n : Node ι} (hn : n ∈ f.nodes) : n.mark ∉ n.children.marks :=
  (List.nodup_cons.1 ((sublist_marks hn).nodup hf)).1

theorem nodup_children {f : Forest ι} (hf : f.marks.Nodup) {n : Node ι} (hn : n ∈ f.nodes) : n.children.marks.Nodup :=
  (List.nodup_cons.1 ((sublist_marks hn).nodup hf)).2

/-! ## Operations at one mark -/

/-- an operation that rebuilds the forest as it is up to a mark -/
structure ActsAt (mark : ι) (op : Forest ι → Forest ι) : Prop where
  nil : op .nil = .nil
  leaf : ∀ {i : ι} (kind : LeafKind) (value : String) (next : Forest ι), i ≠ mark →
    op (.leaf i kind value next) = .leaf i kind value (op next)
  element : ∀ {i : ι} (name : String) (attributes : Attributes) (children next : Forest ι), i ≠ mark →
    op (.element i name attributes children next) = .element i name attributes (op children) (op next)

theorem ActsAt.away {mark : ι} {op : Forest ι → Forest ι} (h : ActsAt mark op) {f : Forest ι} (hm : mark ∉ f.marks) :
    op f = f := by
  induction f with
  | nil => exact h.nil
  | leaf i kind value next ih =>
    rw [marks_leaf, List.mem_cons, not_or] at hm
    rw [h.leaf kind value next (Ne.symm hm.1), ih hm.2]
  | element i name attributes children next ihc ihn =>
    rw [marks_element, List.mem_cons, List.mem_append, not_or, not_or] at hm
    rw [h.element name attributes children next (Ne.symm hm.1), ihc hm.2.1, ihn hm.2.2]

theorem ActsAt.append {mark : ι} {op : Forest ι → Forest ι} (h : ActsAt mark op) {f : Forest ι} (hm : mark ∉ f.marks)
    (g : Forest ι) : op (f.append g) = f.append (op g) := by
  induction f with
  | nil => rfl
  | leaf i kind value next ih =>
    rw [marks_leaf, List.mem_cons, not_or] at hm
    rw [Forest.append, h.leaf kind value _ (Ne.symm hm.1), ih hm.2, Forest.append]
  | element i name attributes children next _ ihn =>
    rw [marks_element, List.mem_cons, List.mem_append, not_or, not_or] at hm
    rw [Forest.append, h.element name attributes children _ (Ne.symm hm.1), h.away hm.2.1, ihn hm.2.2, Forest.append]

section Marked

variable [DecidableEq ι]

/-! ## Nodes by their marks -/

theorem mem_of_find? {f : Forest ι} {mark : ι} {n : Node ι} (h : f.find? mark = some n) : n ∈ f.nodes ∧ n.mark = mark := by
  induction f generalizing n with
  | nil => simp [find?] at h
  | leaf i kind value next ih =>
    rw [find?] at h
    split at h
    · rename_i hi
      simp only [Option.some.injEq] at h
      exact h ▸ ⟨List.mem_cons_self, hi⟩
    · exact ⟨mem_nodes_leaf.2 (Or.inr (ih h).1), (ih h).2⟩
  | element i name attributes children next ihc ihn =>
    rw [find?] at h
    split at h
    · rename_i hi
      simp only [Option.some.injEq] at h
      exact h ▸ ⟨List.mem_cons_self, hi⟩
    · cases hc : children.find? mark with
      | some m =>
        rw [hc, Option.some_or, Option.some.injEq] at h
        subst h
        exact ⟨mem_nodes_element.2 (Or.inr (Or.inl (ihc hc).1)), (ihc hc).2⟩
      | none =>
        rw [hc, Option.none_or] at h
        exact ⟨mem_nodes_element.2 (Or.inr (Or.inr (ihn h).1)), (ihn h).2⟩

theorem find?_eq_none {f : Forest ι} {mark : ι} (h : mark ∉ f.marks) : f.find? mark = none := by
  cases hf : f.find? mark with
  | none => rfl
  | some n =>
    obtain ⟨hn, e⟩ := mem_of_find? hf
    exact absurd (mem_marks.2 ⟨n, hn, e⟩) h

/-- **A node is found** under its mark if no mark occurs twice. -/
theorem find?_of_mem {f : Forest ι} (h : f.marks.Nodup) {n : Node ι} (hn : n ∈ f.nodes) : f.find? n.mark = some n := by
  induction f with
  | nil => exact absurd hn List.not_mem_nil
  | leaf i kind value next ih =>
    rw [marks_leaf, List.nodup_cons] at h
    rcases mem_nodes_leaf.1 hn with rfl | hn
    · exact if_pos rfl
    · have other : i ≠ n.mark := fun e => h.1 (e ▸ mem_marks_of_mem hn)
      rw [find?, if_neg other, ih h.2 hn]
  | element i name attributes children next ihc ihn =>
    have apart := apart h
    rcases mem_nodes_element.1 hn with rfl | hn | hn
    · exact if_pos rfl
    · have other : i ≠ n.mark := fun e => apart.notBelow (e ▸ mem_marks_of_mem hn)
      rw [find?, if_neg other, ihc apart.below hn, Option.some_or]
    · have other : i ≠ n.mark := fun e => apart.notBeside (e ▸ mem_marks_of_mem hn)
      have beside : n.mark ∉ children.marks := fun h => apart.disjoint _ h (mem_marks_of_mem hn)
      rw [find?, if_neg other, find?_eq_none beside, Option.none_or, ihn apart.beside hn]

/-- so there is one element with a mark -/
theorem eq_of_mark_eq {f : Forest ι} (h : f.marks.Nodup) {e e' : Element ι} (he : e ∈ f.allElements)
    (he' : e' ∈ f.allElements) (same : e.mark = e'.mark) : e = e' := by
  have found := find?_of_mem h (mem_allElements.1 he)
  have other := find?_of_mem h (mem_allElements.1 he')
  rw [show (Node.element e).mark = (Node.element e').mark from same, other] at found
  simp only [Option.some.injEq, Node.element.injEq] at found
  exact found.symm

theorem mem_of_parent? {f : Forest ι} {mark : ι} {above : Option ι} {p : ι} (h : f.parent? mark above = some p) :
    mark ∈ f.marks := by
  induction f generalizing above p with
  | nil => simp [parent?] at h
  | leaf i kind value next ih =>
    rw [parent?] at h
    rw [marks_leaf, List.mem_cons]
    split at h
    · rename_i hi; exact Or.inl hi.symm
    · exact Or.inr (ih h)
  | element i name attributes children next ihc ihn =>
    rw [parent?] at h
    rw [marks_element, List.mem_cons, List.mem_append]
    split at h
    · rename_i hi; exact Or.inl hi.symm
    · cases hc : children.parent? mark (some i) with
      | some q => exact Or.inr (Or.inl (ihc hc))
      | none =>
        rw [hc, Option.none_or] at h
        exact Or.inr (Or.inr (ihn h))

/-- every node among siblings that stand below something has a parent -/
theorem parent?_of_mem {f : Forest ι} {mark : ι} (h : mark ∈ f.marks) (above : ι) :
    ∃ p, f.parent? mark (some above) = some p := by
  induction f generalizing above with
  | nil => exact absurd h List.not_mem_nil
  | leaf i kind value next ih =>
    rw [parent?]
    by_cases hi : i = mark
    · exact ⟨above, if_pos hi⟩
    · rw [if_neg hi]
      rw [marks_leaf, List.mem_cons] at h
      exact ih (h.resolve_left (Ne.symm hi)) above
  | element i name attributes children next ihc ihn =>
    rw [parent?]
    by_cases hi : i = mark
    · exact ⟨above, if_pos hi⟩
    · rw [if_neg hi]
      rw [marks_element, List.mem_cons, List.mem_append] at h
      rcases h.resolve_left (Ne.symm hi) with hc | hn
      · obtain ⟨p, hp⟩ := ihc hc i
        exact ⟨p, by rw [hp, Option.some_or]⟩
      · cases hc : children.parent? mark (some i) with
        | some p => exact ⟨p, by rw [Option.some_or]⟩
        | none => exact (ihn hn above).imp fun p hp => by rw [hp, Option.none_or]

/-! ## What single operations rebuild -/

theorem actsAt_modify (mark : ι) (change : Element ι → Element ι) : ActsAt mark (modify mark change) where
  nil := rfl
  leaf _ _ _ _ := rfl
  element _ _ _ _ h := by rw [modify, if_neg h]

theorem actsAt_remove (mark : ι) : ActsAt mark (remove mark) where
  nil := rfl
  leaf _ _ _ h := by rw [remove, if_neg h]
  element _ _ _ _ h := by rw [remove, if_neg h]

theorem actsAt_setLeaf (mark : ι) (value : String) : ActsAt mark (setLeaf mark value) where
  nil := rfl
  leaf _ _ _ h := by rw [setLeaf, if_neg h]
  element _ _ _ _ _ := rfl

/-- an operation at a mark below an element is a change of that element -/
theorem ActsAt.below {mark : ι} {op : Forest ι → Forest ι} (h : ActsAt mark op) {f : Forest ι} (hf : f.marks.Nodup)
    {e : Element ι} (he : .element e ∈ f.nodes) (hm : mark ∈ e.children.marks) :
    op f = f.modify e.mark fun e => { e with children := op e.children } := by
  have inside : ∀ {g : Forest ι}, .element e ∈ g.nodes → mark ∈ g.marks := by
    intro g hg
    obtain ⟨n, hn, rfl⟩ := mem_marks.1 hm
    exact mem_marks_of_mem (mem_nodes_of_mem_children hg hn)
  induction f with
  | nil => exact absurd he List.not_mem_nil
  | leaf i kind value next ih =>
    rw [marks_leaf, List.nodup_cons] at hf
    rcases mem_nodes_leaf.1 he with he | he
    · cases he
    · have other : i ≠ mark := fun eq => hf.1 (eq ▸ inside he)
      rw [h.leaf kind value next other, ih hf.2 he, modify]
  | element i name attributes children next ihc ihn =>
    have apart := apart hf
    rcases mem_nodes_element.1 he with he | he | he
    · cases he
      have other : i ≠ mark := fun eq => apart.notBelow (eq ▸ hm)
      rw [h.element name attributes children next other, h.away (apart.disjoint _ hm), modify, if_pos rfl]
    · have known : e.mark ∈ children.marks := mem_marks_of_mem he
      have other : i ≠ mark := fun eq => apart.notBelow (eq ▸ inside he)
      have here : i ≠ e.mark := fun eq => apart.notBelow (eq ▸ known)
      rw [h.element name attributes children next other, h.away (apart.disjoint _ (inside he)), ihc apart.below he, modify,
        if_neg here, (actsAt_modify e.mark _).away (apart.disjoint _ known)]
    · have known : e.mark ∈ next.marks := mem_marks_of_mem he
      have other : i ≠ mark := fun eq => apart.notBeside (eq ▸ inside he)
      have here : i ≠ e.mark := fun eq => apart.notBeside (eq ▸ known)
      have absent : ∀ m, m ∈ next.marks → m ∉ children.marks := fun m hn hc => apart.disjoint m hc hn
      rw [h.element name attributes children next other, h.away (absent _ (inside he)), ihn apart.beside he, modify,
        if_neg here, (actsAt_modify e.mark _).away (absent _ known)]

/-! ## What edits do to the marks -/

theorem modify_of_notMem {f : Forest ι} {mark : ι} (h : mark ∉ f.marks) (change : Element ι → Element ι) :
    f.modify mark change = f :=
  (actsAt_modify mark change).away h

/-- a change to the name or the attributes keeps all marks -/
theorem marks_modify {mark : ι} {change : Element ι → Element ι} (h : ∀ e, (change e).children = e.children) (f : Forest ι) :
    (f.modify mark change).marks = f.marks := by
  induction f with
  | nil => rfl
  | leaf i kind value next ih => rw [modify, marks_leaf, marks_leaf, ih]
  | element i name attributes children next ihc ihn =>
    rw [modify]
    split
    · simp [h]
    · rw [marks_element, marks_element, ihc, ihn]

theorem marks_setLeaf (mark : ι) (value : String) (f : Forest ι) : (f.setLeaf mark value).marks = f.marks := by
  induction f with
  | nil => rfl
  | leaf i kind old next ih =>
    rw [setLeaf]
    split
    · rfl
    · rw [marks_leaf, marks_leaf, ih]
  | element i name attributes children next ihc ihn => rw [setLeaf, marks_element, marks_element, ihc, ihn]

/-- nodes added to an element add their marks -/
theorem marks_modify_append {f : Forest ι} (h : f.marks.Nodup) {e : Element ι} (he : .element e ∈ f.nodes) (g : Forest ι) :
    (f.modify e.mark fun e => { e with children := e.children.append g }).marks.Perm (f.marks ++ g.marks) := by
  induction f with
  | nil => exact absurd he List.not_mem_nil
  | leaf i kind value next ih =>
    rw [marks_leaf, List.nodup_cons] at h
    rcases mem_nodes_leaf.1 he with he | he
    · cases he
    · exact (ih h.2 he).cons i
  | element i name attributes children next ihc ihn =>
    have apart := apart h
    rw [modify]
    rcases mem_nodes_element.1 he with he | he | he
    · cases he
      rw [if_pos rfl]
      simp only [marks_element, marks_append, List.cons_append, List.append_assoc]
      exact (List.perm_append_comm.append_left _).cons _
    · have hm : e.mark ∈ children.marks := mem_marks_of_mem he
      have other : i ≠ e.mark := fun eq => apart.notBelow (eq ▸ hm)
      rw [if_neg other, modify_of_notMem (apart.disjoint _ hm)]
      simp only [marks_element, List.cons_append, List.append_assoc]
      refine List.Perm.cons _ (((ihc apart.below he).append_right _).trans ?_)
      rw [List.append_assoc]
      exact List.perm_append_comm.append_left _
    · have hm : e.mark ∈ next.marks := mem_marks_of_mem he
      have other : i ≠ e.mark := fun eq => apart.notBeside (eq ▸ hm)
      rw [if_neg other, modify_of_notMem fun h => apart.disjoint _ h hm]
      simp only [marks_element, List.cons_append, List.append_assoc]
      exact ((ihn apart.beside he).append_left _).cons _

theorem remove_of_notMem {f : Forest ι} {mark : ι} (h : mark ∉ f.marks) : f.remove mark = f :=
  (actsAt_remove mark).away h

/-- a node that is taken out takes its mark and those below it away -/
theorem marks_remove {f : Forest ι} (h : f.marks.Nodup) {n : Node ι} (hn : n ∈ f.nodes) :
    f.marks.Perm ((f.remove n.mark).marks ++ n.toForest.marks) := by
  rw [Node.marks_toForest]
  induction f with
  | nil => exact absurd hn List.not_mem_nil
  | leaf i kind value next ih =>
    rw [marks_leaf, List.nodup_cons] at h
    rcases mem_nodes_leaf.1 hn with rfl | hn
    · rw [remove, if_pos (show i = (Node.leaf i kind value).mark from rfl)]
      exact List.perm_append_singleton i next.marks |>.symm
    · have other : i ≠ n.mark := fun e => h.1 (e ▸ mem_marks_of_mem hn)
      rw [remove, if_neg other]
      exact (ih h.2 hn).cons i
  | element i name attributes children next ihc ihn =>
    have apart := apart h
    rcases mem_nodes_element.1 hn with rfl | hn | hn
    · rw [remove, if_pos (show i = (Node.element ⟨i, name, attributes, children⟩).mark from rfl), marks_element]
      have swapped : (i :: children.marks ++ next.marks).Perm (next.marks ++ i :: children.marks) := List.perm_append_comm
      exact swapped
    · have hm := mem_marks_of_mem hn
      have other : i ≠ n.mark := fun e => apart.notBelow (e ▸ hm)
      rw [remove, if_neg other, remove_of_notMem (apart.disjoint _ hm)]
      simp only [marks_element, List.cons_append, List.append_assoc]
      refine List.Perm.cons _ (((ihc apart.below hn).append_right _).trans ?_)
      rw [List.append_assoc]
      exact List.perm_append_comm.append_left _
    · have hm := mem_marks_of_mem hn
      have other : i ≠ n.mark := fun e => apart.notBeside (e ▸ hm)
      rw [remove, if_neg other, remove_of_notMem fun h => apart.disjoint _ h hm]
      simp only [marks_element, List.cons_append, List.append_assoc]
      exact ((ihn apart.beside hn).append_left _).cons _

end Marked

end Forest

end XmlStore.Xml
