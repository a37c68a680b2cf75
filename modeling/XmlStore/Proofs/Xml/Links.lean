/-
What is above a node of a document, and what is directly below it.

Two things can be asked about a number: which one is above it, and which ones are directly below it. Both answers change with every
edit that adds a node or takes one out. They always agree, and numbers rise from above to below (`Document.Rising`), because a node
that is new gets a number greater than all before it and one that is taken out is put below nothing.

Main statements:
- `Forest.parent?_eq_some_iff`: what the number above another one is, where no number is given twice.
- `Document.Built.rising`: numbers rise from above to below, whatever edits are made.
- `Document.Numbered.parent?_eq_some_iff`: one number is above another one exactly if that one is directly below it.
-/
import XmlStore.Proofs.Xml.Built

namespace XmlStore.Xml

namespace Forest

variable {ι : Type}

/-! ## The outermost nodes -/

/-- the marks of the siblings themselves -/
def outermost (f : Forest ι) : List ι :=
  f.siblings.map Node.mark

@[simp] theorem outermost_nil : (nil : Forest ι).outermost = [] := rfl

@[simp] theorem outermost_leaf (mark : ι) (kind : LeafKind) (value : String) (next : Forest ι) :
    (leaf mark kind value next).outermost = mark :: next.outermost := rfl

@[simp] theorem outermost_element (mark : ι) (name : String) (attributes : Attributes) (children next : Forest ι) :
    (element mark name attributes children next).outermost = mark :: next.outermost := rfl

theorem outermost_sublist (f : Forest ι) : f.outermost.Sublist f.marks :=
  f.siblings_sublist.map Node.mark

theorem mem_marks_of_below {f : Forest ι} {n : Node ι} (hn : n ∈ f.nodes) {m : ι} (hm : m ∈ n.children.outermost) :
    m ∈ f.marks :=
  (sublist_marks hn).subset (List.mem_cons_of_mem _ (n.children.outermost_sublist.subset hm))

/-! ## What is above a node -/

section Marked

variable [DecidableEq ι]

/-- **What is above a node**, where no mark occurs twice: what all siblings stand below, or the node that holds it. -/
theorem parent?_eq_some_iff {f : Forest ι} (hf : f.marks.Nodup) {m p : ι} {above : Option ι} :
    f.parent? m above = some p ↔
      (above = some p ∧ m ∈ f.outermost) ∨ ∃ n ∈ f.nodes, n.mark = p ∧ m ∈ n.children.outermost := by
  induction f generalizing above with
  | nil => simp [parent?, nodes]
  | leaf i kind value next ih =>
    rw [marks_leaf, List.nodup_cons] at hf
    rw [parent?, outermost_leaf]
    by_cases hi : i = m
    · subst hi
      have nowhere : ¬ ∃ n ∈ (leaf i kind value next).nodes, n.mark = p ∧ i ∈ n.children.outermost := by
        rintro ⟨n, hn, -, hm⟩
        rcases mem_nodes_leaf.1 hn with rfl | hn
        · exact absurd hm List.not_mem_nil
        · exact hf.1 (mem_marks_of_below hn hm)
      simp [nowhere]
    · have same : (∃ n ∈ (leaf i kind value next).nodes, n.mark = p ∧ m ∈ n.children.outermost) ↔
          ∃ n ∈ next.nodes, n.mark = p ∧ m ∈ n.children.outermost := by
        simp [mem_nodes_leaf, Node.children]
      rw [if_neg hi, ih hf.2, same, List.mem_cons, or_iff_right (Ne.symm hi)]
  | element i name attributes children next ihc ihn =>
    have apart := apart hf
    have split : (∃ n ∈ (element i name attributes children next).nodes, n.mark = p ∧ m ∈ n.children.outermost) ↔
        (i = p ∧ m ∈ children.outermost) ∨ (∃ n ∈ children.nodes, n.mark = p ∧ m ∈ n.children.outermost) ∨
          ∃ n ∈ next.nodes, n.mark = p ∧ m ∈ n.children.outermost := by
      simp only [mem_nodes_element, or_and_right, exists_or, exists_eq_left]
      rfl
    rw [parent?, outermost_element]
    by_cases hi : i = m
    · subst hi
      have nowhere : ¬ ∃ n ∈ (element i name attributes children next).nodes, n.mark = p ∧ i ∈ n.children.outermost := by
        rw [split]
        rintro (⟨-, hm⟩ | ⟨n, hn, -, hm⟩ | ⟨n, hn, -, hm⟩)
        · exact apart.notBelow (children.outermost_sublist.subset hm)
        · exact apart.notBelow (mem_marks_of_below hn hm)
        · exact apart.notBeside (mem_marks_of_below hn hm)
      simp [nowhere]
    · -- a node beside the element is not found below it
      have beside : m ∈ next.marks → children.parent? m (some i) = none := by
        intro hm
        rw [Option.eq_none_iff_forall_ne_some]
        exact fun q hq => apart.disjoint m (mem_of_parent? hq) hm
      rw [if_neg hi, Option.or_eq_some_iff, ihc apart.below, ihn apart.beside, split, List.mem_cons, or_iff_right (Ne.symm hi),
        Option.some.injEq]
      constructor
      · rintro ((here | inside) | ⟨-, outside | later⟩)
        · exact Or.inr (Or.inl here)
        · exact Or.inr (Or.inr (Or.inl inside))
        · exact Or.inl outside
        · exact Or.inr (Or.inr (Or.inr later))
      · rintro (outside | here | inside | ⟨n, hn, hp, hm⟩)
        · exact Or.inr ⟨beside (next.outermost_sublist.subset outside.2), Or.inl outside⟩
        · exact Or.inl (Or.inl here)
        · exact Or.inl (Or.inr inside)
        · exact Or.inr ⟨beside (mem_marks_of_below hn hm), Or.inr ⟨n, hn, hp, hm⟩⟩

end Marked

/-! ## Numbers that rise -/

/-- every number is greater than that of the node above it, where the siblings themselves stand below `above` -/
def Rising (above : Nat) : Forest Nat → Prop
  | .nil => True
  | .leaf i _ _ next => above < i ∧ next.Rising above
  | .element i _ _ children next => above < i ∧ children.Rising i ∧ next.Rising above

variable {f : Forest Nat} {above mark : Nat}

theorem rising_number (f : Forest ι) {first : Nat} (h : above < first) : (f.number first).Rising above := by
  induction f generalizing above first with
  | nil => trivial
  | leaf mark kind value next ih => exact ⟨h, ih (by omega)⟩
  | element mark name attributes children next ihc ihn => exact ⟨h, ihc (by omega), ihn (by omega)⟩

theorem Rising.append (hf : f.Rising above) {g : Forest Nat} (hg : g.Rising above) : (f.append g).Rising above := by
  induction f with
  | nil => exact hg
  | leaf mark kind value next ih => exact ⟨hf.1, ih hf.2⟩
  | element mark name attributes children next _ ihn => exact ⟨hf.1, hf.2.1, ihn hf.2.2⟩

theorem Rising.modify (hf : f.Rising above) {change : Element Nat → Element Nat}
    (hc : ∀ e, e.mark = mark → e.children.Rising e.mark → (change e).children.Rising e.mark) :
    (f.modify mark change).Rising above := by
  induction f generalizing above with
  | nil => exact hf
  | leaf i kind value next ih => exact ⟨hf.1, ih hf.2⟩
  | element i name attributes children next ihc ihn =>
    obtain ⟨greater, below, beside⟩ := hf
    rw [Forest.modify]
    by_cases hi : i = mark
    · rw [if_pos hi]
      exact ⟨greater, hc ⟨i, name, attributes, children⟩ hi below, beside⟩
    · rw [if_neg hi]
      exact ⟨greater, ihc below, ihn beside⟩

theorem Rising.setLeaf (hf : f.Rising above) (value : String) : (f.setLeaf mark value).Rising above := by
  induction f generalizing above with
  | nil => exact hf
  | leaf i kind old next ih =>
    rw [Forest.setLeaf]
    split
    · exact hf
    · exact ⟨hf.1, ih hf.2⟩
  | element i name attributes children next ihc ihn => exact ⟨hf.1, ihc hf.2.1, ihn hf.2.2⟩

theorem Rising.remove (hf : f.Rising above) : (f.remove mark).Rising above := by
  induction f generalizing above with
  | nil => exact hf
  | leaf i kind value next ih =>
    rw [Forest.remove]
    split
    · exact hf.2
    · exact ⟨hf.1, ih hf.2⟩
  | element i name attributes children next ihc ihn =>
    obtain ⟨greater, below, beside⟩ := hf
    rw [Forest.remove]
    split
    · exact beside
    · exact ⟨greater, ihc below, ihn beside⟩

theorem Rising.of_mem (hf : f.Rising above) {n : Node Nat} (hn : n ∈ f.nodes) :
    above < n.mark ∧ n.children.Rising n.mark := by
  induction f generalizing above with
  | nil => exact absurd hn List.not_mem_nil
  | leaf i kind value next ih =>
    rcases mem_nodes_leaf.1 hn with rfl | hn
    · exact ⟨hf.1, trivial⟩
    · exact ih hf.2 hn
  | element i name attributes children next ihc ihn =>
    obtain ⟨greater, below, beside⟩ := hf
    rcases mem_nodes_element.1 hn with rfl | hn | hn
    · exact ⟨greater, below⟩
    · obtain ⟨inside, rest⟩ := ihc below hn
      exact ⟨Nat.lt_trans greater inside, rest⟩
    · exact ihn beside hn

theorem Rising.toForest (hf : f.Rising above) {n : Node Nat} (hn : n ∈ f.nodes) : n.toForest.Rising above := by
  obtain ⟨greater, below⟩ := hf.of_mem hn
  cases n with
  | leaf => exact ⟨greater, trivial⟩
  | element => exact ⟨greater, below, trivial⟩

theorem Rising.lt_of_mem (hf : f.Rising above) {m : Nat} (hm : m ∈ f.outermost) : above < m := by
  obtain ⟨n, hn, rfl⟩ := List.mem_map.1 hm
  exact (hf.of_mem (mem_nodes_of_mem_siblings hn)).1

end Forest

namespace Document

/-! ## Edits and rising numbers -/

/-- numbers rise from above to below, in what is attached and in what was taken out -/
structure Rising (d : Document) : Prop where
  attached : d.attached.Rising top
  detached : d.detached.Rising top

variable {d d' : Document}

theorem Rising.mapForests (h : d.Rising) {change : Forest Nat → Forest Nat}
    (hc : ∀ f, f.Rising top → (change f).Rising top) : (d.mapForests change).Rising :=
  ⟨hc _ h.attached, hc _ h.detached⟩

/-- what is added has numbers greater than all before it -/
theorem Rising.appendNodes (h : d.Rising) {id : Nat} (hid : id < d.next) (nodes : Forest Unit) : (d.appendNodes id nodes).Rising := by
  have added : (d.modify id fun e => { e with children := e.children.append (nodes.number d.next) }).Rising := by
    refine h.mapForests fun f hf => hf.modify ?_
    rintro e rfl he
    exact he.append (Forest.rising_number nodes hid)
  exact ⟨added.attached, added.detached⟩

theorem Rising.detach (h : d.Rising) (hn : d.Numbered) (id : Nat) : (d.detach id).1.Rising := by
  rcases hn.detach_cases id with ⟨same, -⟩ | ⟨n, rfl, ⟨hn, moved⟩ | ⟨hn, moved⟩⟩
  · rw [same]
    exact h
  · rw [moved]
    exact ⟨h.attached.remove, h.detached.append (h.attached.toForest hn)⟩
  · rw [moved]
    exact ⟨h.attached, h.detached.remove.append (h.detached.toForest hn)⟩

theorem Numbered.lt_next (h : d.Numbered) {id : Nat} {e : Element Nat} (he : d.element? id = some e) : id < d.next := by
  obtain ⟨rfl, found⟩ := h.mem_of_element? he
  have known : e.mark ∈ d.marks :=
    List.mem_append.2 (found.imp (fun ha => Forest.mem_marks_of_mem ha.1) fun hd => Forest.mem_marks_of_mem hd.1)
  exact (h.given _ known).2

theorem rising_ofForest (f : Forest Unit) : (ofForest f).Rising :=
  ⟨Forest.rising_number f Nat.zero_lt_one, trivial⟩

theorem Becomes.rising (h : d.Becomes d') (hn : d.Numbered) (hd : d.Rising) : d'.Rising := by
  cases h with
  | changed id kept => exact hd.mapForests fun f hf => hf.modify fun e _ below => (kept e).symm ▸ below
  | rewritten id value => exact hd.mapForests fun f hf => hf.setLeaf value
  | extended found nodes => exact hd.appendNodes (hn.lt_next found) nodes
  | detached id => exact hd.detach hn id
  | same => exact hd

/-- **Numbers rise** from above to below, whatever edits are made. -/
theorem Built.rising (h : d.Built) : d.Rising := by
  -- that what is added has numbers greater than all before it is known of numbered documents only
  have both : d.Numbered ∧ d.Rising := by
    refine h.induct (P := fun d => d.Numbered ∧ d.Rising) ?_ ?_
    · exact fun f => ⟨numbered_ofForest f, rising_ofForest f⟩
    · exact fun hd step => ⟨step.numbered hd.1, step.rising hd.1 hd.2⟩
  exact both.2

/-! ## Links -/

/-- the numbers directly below a number, in their order -/
def childNumbers (d : Document) (p : Nat) : List Nat :=
  (d.children p).outermost

theorem Numbered.mem_childNumbers (h : d.Numbered) {p c : Nat} :
    c ∈ d.childNumbers p ↔ (p = top ∧ c ∈ d.attached.outermost) ∨
      ∃ n, (n ∈ d.attached.nodes ∨ n ∈ d.detached.nodes) ∧ n.mark = p ∧ c ∈ n.children.outermost := by
  constructor
  · intro hc
    rw [childNumbers] at hc
    rcases h.children_cases p with ⟨hp, e⟩ | ⟨n, hn, hp, e⟩ | e
    · exact Or.inl ⟨hp, e ▸ hc⟩
    · exact Or.inr ⟨n, hn, hp, e ▸ hc⟩
    · rw [e] at hc
      exact absurd hc List.not_mem_nil
  · rintro (⟨rfl, hc⟩ | ⟨n, hn, rfl, hc⟩)
    · exact hc
    · rwa [childNumbers, h.children_of_mem hn]

theorem Numbered.parent?_eq_some_iff (h : d.Numbered) {p c : Nat} : d.parent? c = some p ↔ c ∈ d.childNumbers p := by
  -- what was taken out is not found in what is attached
  have apart : c ∈ d.detached.marks → d.attached.parent? c (some top) = none := by
    intro hd
    rw [Option.eq_none_iff_forall_ne_some]
    exact fun q hq => h.disjoint (Forest.mem_of_parent? hq) hd
  rw [parent?, Option.or_eq_some_iff, Forest.parent?_eq_some_iff h.attached, Forest.parent?_eq_some_iff h.detached, h.mem_childNumbers]
  constructor
  · rintro ((⟨e, hc⟩ | ⟨n, hn, hc⟩) | ⟨-, ⟨e, -⟩ | ⟨n, hn, hc⟩⟩)
    · exact Or.inl ⟨(Option.some.inj e).symm, hc⟩
    · exact Or.inr ⟨n, Or.inl hn, hc⟩
    · cases e
    · exact Or.inr ⟨n, Or.inr hn, hc⟩
  · rintro (⟨rfl, hc⟩ | ⟨n, hn | hn, hc⟩)
    · exact Or.inl (Or.inl ⟨rfl, hc⟩)
    · exact Or.inl (Or.inr ⟨n, hn, hc⟩)
    · exact Or.inr ⟨apart (Forest.mem_marks_of_below hn hc.2), Or.inr ⟨n, hn, hc⟩⟩

theorem Numbered.nodup_marks_below (h : d.Numbered) (p : Nat) : (d.children p).marks.Nodup := by
  rcases h.children_cases p with ⟨-, e⟩ | ⟨n, ha | hd, -, e⟩ | e
  · exact e ▸ h.attached
  · exact e ▸ Forest.nodup_children h.attached ha
  · exact e ▸ Forest.nodup_children h.detached hd
  · exact e ▸ List.nodup_nil

theorem Numbered.nodup_childNumbers (h : d.Numbered) (p : Nat) : (d.childNumbers p).Nodup :=
  (d.children p).outermost_sublist.nodup (h.nodup_marks_below p)

theorem Rising.lt_of_mem_childNumbers (h : d.Rising) (hn : d.Numbered) {p c : Nat} (hc : c ∈ d.childNumbers p) : p < c := by
  rcases hn.mem_childNumbers.1 hc with ⟨rfl, outermost⟩ | ⟨n, ha | hd, rfl, inside⟩
  · exact h.attached.lt_of_mem outermost
  · exact (h.attached.of_mem ha).2.lt_of_mem inside
  · exact (h.detached.of_mem hd).2.lt_of_mem inside

end Document

end XmlStore.Xml
