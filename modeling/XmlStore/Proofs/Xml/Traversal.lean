/-
Going through an arena by its links.

A traversal keeps a list of the nodes that wait. Nothing in it notices a node that it has seen before; that it ends, and meets each node
once, is due to what the links are like. In the row of a document they are those of a forest, and what waits at any moment are the
outermost nodes of some part of it, so that each round takes one node off the forest that is still ahead.

Main statements:
- `Arena.Holds.traverse`: a traversal meets the nodes of a forest in document order.
- `Document.Numbered.selfAndDescendants_arena`: what is found at and below a node of the row of a document.
- `Arena.getElem?_documentOrder`, `Arena.getElem?_documentOrder_of_notMem`: the ranks of what is found below the document, and of all
  other nodes.
-/
import XmlStore.Proofs.Xml.Arena
import XmlStore.Proofs.Xml.Selection

namespace XmlStore.Xml

/-! ## Forests in document order -/

/-- document order goes by the siblings, each with what is below it -/
theorem Forest.marks_eq_flatMap {ι : Type} (f : Forest ι) :
    f.marks = f.siblings.flatMap fun n => n.mark :: n.children.marks := by
  induction f with
  | nil => rfl
  | leaf mark kind value next ih =>
    rw [marks_leaf, ih]
    rfl
  | element mark name attributes children next _ ihn =>
    rw [marks_element, ihn]
    rfl

namespace Arena

variable {a : Arena} {f : Forest Nat} {above : Option Nat}

/-! ## Traversals -/

/-- **A traversal** meets the nodes of a forest in document order, each in a round of its own, and then what waits after them. -/
theorem Holds.traverse (h : a.Holds above f) (rounds : Nat) (waiting : List Nat) :
    a.traverse (f.size + rounds) (f.outermost ++ waiting) = (a.traverse rounds waiting).map (f.marks ++ ·) := by
  induction f generalizing above rounds waiting with
  | nil => simp [Forest.size]
  | leaf i kind value next ih =>
    have below : a.children i = [] := by rw [children, node_eq_of_getElem? h.1]
    rw [Forest.size, Nat.add_right_comm, Forest.outermost_leaf, List.cons_append, Arena.traverse, below, List.nil_append, ih h.2,
      Option.map_map, Forest.marks_leaf]
    rfl
  | element i name attributes children next ihc ihn =>
    have below : a.children i = children.outermost := by rw [Arena.children, node_eq_of_getElem? h.1]
    rw [Forest.size, Nat.add_right_comm, Nat.add_assoc children.size, Forest.outermost_element, List.cons_append, Arena.traverse, below,
      ihc h.2.1, ihn h.2.2, Option.map_map, Option.map_map, Forest.marks_element]
    congr 1
    funext order
    simp

/-! ## Ranks -/

theorem getElem?_ranked_of_notMem {l : List Nat} {order : List Nat} {first m : Nat} (absent : m ∉ l) :
    ((l.zipIdx first).foldl (fun order (id, rank) => order.set id rank) order)[m]? = order[m]? := by
  induction l generalizing order first with
  | nil => rfl
  | cons id l ih =>
    rw [List.mem_cons, not_or] at absent
    rw [List.zipIdx_cons, List.foldl_cons, ih absent.2, List.getElem?_set_ne (Ne.symm absent.1)]

/-- what gets a rank by its place in a list -/
theorem getElem?_ranked {l : List Nat} (once : l.Nodup) {order : List Nat} {first i m : Nat} (there : l[i]? = some m)
    (given : m < order.length) :
    ((l.zipIdx first).foldl (fun order (id, rank) => order.set id rank) order)[m]? = some (first + i) := by
  induction l generalizing order first i with
  | nil => cases there
  | cons id l ih =>
    rw [List.nodup_cons] at once
    rw [List.zipIdx_cons, List.foldl_cons]
    cases i with
    | zero =>
      cases there
      -- what comes later has other numbers
      rw [getElem?_ranked_of_notMem once.1, List.getElem?_set_self given, Nat.add_zero]
    | succ i =>
      rw [ih once.2 there (by rwa [List.length_set]), Nat.add_right_comm, Nat.add_assoc first i 1]

theorem length_documentOrder (a : Arena) : a.documentOrder.length = a.nodes.length := by
  have kept : ∀ (l : List Nat) (order : List Nat) (first : Nat),
      ((l.zipIdx first).foldl (fun order (id, rank) => order.set id rank) order).length = order.length := by
    intro l
    induction l with
    | nil => exact fun _ _ => rfl
    | cons id l ih =>
      intro order first
      rw [List.zipIdx_cons, List.foldl_cons, ih, List.length_set]
  rw [documentOrder, kept, List.length_replicate]

/-- the rank of a node is its place among what is found below the document -/
theorem getElem?_documentOrder (once : (a.selfAndDescendants Document.top).Nodup) {r id : Nat}
    (there : (a.selfAndDescendants Document.top)[r]? = some id) (given : id < a.nodes.length) : a.documentOrder[id]? = some r := by
  rw [documentOrder, getElem?_ranked once there (by rwa [List.length_replicate]), Nat.zero_add]

/-- all that is not found there has one rank, which is out of their range -/
theorem getElem?_documentOrder_of_notMem {id : Nat} (absent : id ∉ a.selfAndDescendants Document.top) (given : id < a.nodes.length) :
    a.documentOrder[id]? = some unranked := by
  rw [documentOrder, getElem?_ranked_of_notMem absent, List.getElem?_replicate, if_pos given]

end Arena

namespace Document

variable {d : Document}

/-- no number is below itself -/
theorem Numbered.notMem_below (h : d.Numbered) (id : Nat) : id ∉ (d.children id).marks := by
  intro hm
  rcases h.children_cases id with ⟨rfl, -⟩ | ⟨n, hn, rfl, e⟩ | e
  · exact h.ne_top (h.mem_marks_below hm) rfl
  · rw [e] at hm
    exact hn.elim (fun ha => Forest.notMem_children h.attached ha hm) fun hd => Forest.notMem_children h.detached hd hm
  · rw [e] at hm
    exact absurd hm List.not_mem_nil

/-- there are fewer nodes below a number than numbers that were given -/
theorem Numbered.size_children_lt (h : d.Numbered) (id : Nat) : (d.children id).size < d.next := by
  have given : (d.children id).marks ⊆ List.range' 1 (d.next - 1) := by
    intro m hm
    have known := h.given m (h.mem_marks_below hm)
    rw [List.mem_range'_1]
    omega
  have room := ((h.nodup_marks_below id).subperm given).length_le
  rw [Forest.length_marks, List.length_range'] at room
  have next := h.next
  omega

/-- **What is found at and below a node**, however many rounds there are after enough of them. -/
theorem Numbered.traverse_arena (h : d.Numbered) {rounds : Nat} (enough : d.next ≤ rounds) (id : Nat) :
    d.arena.traverse rounds [id] = some (id :: (d.children id).marks) := by
  have few := h.size_children_lt id
  obtain ⟨spare, rfl⟩ : ∃ spare, rounds = (d.children id).size + spare + 1 := ⟨rounds - (d.children id).size - 1, by omega⟩
  have below := (h.holds_children id).traverse spare []
  rw [List.append_nil] at below
  rw [Arena.traverse, h.children_arena, List.append_nil, childNumbers, below]
  cases spare <;> simp [Arena.traverse]

theorem Numbered.selfAndDescendants_arena (h : d.Numbered) (id : Nat) :
    d.arena.selfAndDescendants id = id :: (d.children id).marks := by
  rw [Arena.selfAndDescendants, h.traverse_arena (Nat.le_of_eq h.represents.size.symm)]
  rfl

end Document

end XmlStore.Xml
