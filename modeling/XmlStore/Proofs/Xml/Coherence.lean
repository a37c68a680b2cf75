/-
How the nodes of an arena hang together.

An arena keeps every link twice, in the node below and in the list of the node above, and no edit checks that the two agree. Nor does
anything keep a node from standing below itself. Both are so because of what the edits are: a node is pushed with a number greater than
all before it, and linked at both ends; a node that is unlinked loses both ends, in either of the two ways in which that is done; and
nothing is ever linked again. So whatever is read and then edited is the row of a document (`Arena.Built.document`), in which links
lead along a forest.

Main statement:
- `Arena.Built.coherent`: in every arena that was read and edited, whether the edits were carried out or refused, the links agree and
  lead upwards nowhere; so traversals end, and go by document order; and ranks tell what is attached from what is not.
-/
import Mathlib.Logic.Relation
import XmlStore.Proofs.Xml.Building
import XmlStore.Proofs.Xml.Traversal

namespace XmlStore.Xml

namespace Arena

open Document (top)

/-- what any sequence of edits makes of an arena that was read, where each edit is carried out or refused; what is added may have been
made in the same way -/
inductive Built : Arena → Prop where
  | parse {text : String} {a : Arena} (h : parse text = .ok a) : Built a
  | parseFragment {text : String} {a : Arena} (h : parseFragment text = .ok a) : Built a
  | rename {a : Arena} (h : Built a) (id : Nat) (name : String) : Built (a.rename id name).2
  | setText {a : Arena} (h : Built a) (id : Nat) (text : String) : Built (a.setText id text).2
  | setAttribute {a : Arena} (h : Built a) (id : Nat) (name value : String) : Built (a.setAttribute id name value).2
  | removeAttribute {a : Arena} (h : Built a) (id : Nat) (name : String) : Built (a.removeAttribute id name).2
  | appendFragment {a fragment : Arena} (h : Built a) (hf : Built fragment) (id : Nat) : Built (a.appendFragment id fragment).2
  | detach {a : Arena} (h : Built a) (id : Nat) : Built (a.detach id).2

/-- whether links lead down from a node to another one, or it is that one -/
def Reaches (a : Arena) : Nat → Nat → Prop :=
  Relation.ReflTransGen fun p c => c ∈ a.children p

/-- what holds of the links, under all numbers -/
structure Linked (a : Arena) : Prop where
  /-- both ends of a link say the same -/
  agree : ∀ p c, c ∈ a.children p ↔ a.parent? c = some p
  once : ∀ p, (a.children p).Nodup
  rising : ∀ p c, c ∈ a.children p → p < c
  given : ∀ p c, c ∈ a.children p → c < a.nodes.length
  document : a.kind top = .document
  topmost : a.parent? top = none
  notBelow : ∀ p, top ∉ a.children p

/-- what holds of traversals, wherever they start -/
structure Traversed (a : Arena) : Prop where
  /-- no more rounds are ever needed than there are nodes -/
  ends : ∀ id rounds, a.nodes.length ≤ rounds → a.traverse rounds [id] = some (a.selfAndDescendants id)
  once : ∀ id, (a.selfAndDescendants id).Nodup
  reached : ∀ id m, m ∈ a.selfAndDescendants id ↔ a.Reaches id m
  /-- each node comes before what is below it, and that by the children in their order -/
  preorder : ∀ id, a.selfAndDescendants id = id :: (a.children id).flatMap a.selfAndDescendants
  ordered : ∀ id, ∀ p ∈ a.selfAndDescendants id, (p :: a.children p).Sublist (a.selfAndDescendants id)

/-- what holds of the ranks in document order -/
structure Ranked (a : Arena) : Prop where
  size : a.documentOrder.length = a.nodes.length
  /-- what is attached is ranked by its place -/
  attached : ∀ id, a.Reaches top id → ∃ r, a.documentOrder[id]? = some r ∧ (a.selfAndDescendants top)[r]? = some id
  distinct : ∀ id id' r, a.Reaches top id → a.Reaches top id' → a.documentOrder[id]? = some r → a.documentOrder[id']? = some r → id = id'
  detached : ∀ id < a.nodes.length, ¬ a.Reaches top id → a.documentOrder[id]? = some unranked
  /-- that rank is no place, if there are no more nodes than a word can count -/
  apart : a.nodes.length ≤ unranked → ∀ id, a.documentOrder[id]? = some unranked → ¬ a.Reaches top id

end Arena

namespace Document

variable {d : Document}

theorem Numbered.linked_arena (h : d.Numbered) (rising : d.Rising) : d.arena.Linked where
  agree p c := by rw [h.children_arena, h.parent?_arena, h.parent?_eq_some_iff]
  once p := by
    rw [h.children_arena]
    exact h.nodup_childNumbers p
  rising p c hc := by
    rw [h.children_arena] at hc
    exact rising.lt_of_mem_childNumbers h hc
  given p c hc := by
    rw [h.children_arena] at hc
    rw [h.represents.size]
    exact (h.given c (h.mem_marks_below ((d.children p).outermost_sublist.subset hc))).2
  document := by
    rw [h.kind_arena, kind, h.find?_top]
    rfl
  topmost := by rw [h.parent?_arena, h.parent?_top]
  notBelow p hc := by
    rw [h.children_arena] at hc
    exact Nat.not_lt_zero p (rising.lt_of_mem_childNumbers h hc)

theorem Numbered.reaches_arena (h : d.Numbered) {id m : Nat} : d.arena.Reaches id m ↔ m = id ∨ m ∈ (d.children id).marks := by
  have links : (fun p c => c ∈ d.arena.children p) = d.IsChild := by
    funext p c
    rw [h.children_arena]
    rfl
  rw [Arena.Reaches, links, reflTransGen_iff h, Forest.mem_marks]

theorem Numbered.traversed_arena (h : d.Numbered) : d.arena.Traversed where
  ends id rounds enough := by
    rw [h.selfAndDescendants_arena]
    exact h.traverse_arena (h.represents.size ▸ enough) id
  once id := by
    rw [h.selfAndDescendants_arena]
    exact List.nodup_cons.2 ⟨h.notMem_below id, h.nodup_marks_below id⟩
  reached id m := by rw [h.selfAndDescendants_arena, List.mem_cons, h.reaches_arena]
  preorder id := by
    rw [h.selfAndDescendants_arena, h.children_arena, Forest.marks_eq_flatMap, childNumbers, Forest.outermost, List.flatMap_map]
    refine congrArg _ (List.flatMap_congr fun n hn => ?_)
    rw [h.selfAndDescendants_arena, h.children_of_children id n (Forest.mem_nodes_of_mem_siblings hn)]
  ordered id p hp := by
    rw [h.selfAndDescendants_arena] at hp ⊢
    rw [h.children_arena]
    rcases List.mem_cons.1 hp with rfl | hp
    · exact (d.children p).outermost_sublist.cons_cons p
    · obtain ⟨n, hn, rfl⟩ := Forest.mem_marks.1 hp
      rw [childNumbers, h.children_of_children id n hn]
      exact ((n.children.outermost_sublist.cons_cons n.mark).trans (Forest.sublist_marks hn)).cons id

theorem selfAndDescendants_ofForest (f : Forest Unit) :
    (ofForest f).arena.selfAndDescendants top = List.range (ofForest f).arena.nodes.length := by
  have h := numbered_ofForest f
  have marks : ((ofForest f).children top).marks = List.range' 1 f.size := f.marks_number 1
  have size : (ofForest f).arena.nodes.length = f.size + 1 := h.represents.size
  rw [h.selfAndDescendants_arena, marks, size, List.range_eq_range', List.range'_succ, top]

/-- what is left after an edit, carried out or refused -/
theorem Built.told (hd : d.Built) {α : Type} {outcome : Except XmlError (Document × α)}
    (edited : ∀ d' answer, outcome = .ok (d', answer) → d'.Built) : ∃ d' : Document, d'.Built ∧ (d.told outcome).2 = d'.arena := by
  cases outcome with
  | error e => exact ⟨d, hd, rfl⟩
  | ok result => exact ⟨result.1, edited result.1 result.2 rfl, rfl⟩

end Document

namespace Arena

open Document (top)

variable {a : Arena}

/-- what traversals reach is ranked by its place -/
theorem Traversed.ranked (t : a.Traversed) (l : a.Linked) (nonempty : top < a.nodes.length) : a.Ranked := by
  have given {id : Nat} (h : a.Reaches top id) : id < a.nodes.length := by
    rcases h.cases_tail with same | ⟨p, -, hc⟩
    · exact same ▸ nonempty
    · exact l.given p id hc
  have attached {id : Nat} (h : a.Reaches top id) :
      ∃ r, a.documentOrder[id]? = some r ∧ (a.selfAndDescendants top)[r]? = some id := by
    obtain ⟨r, there⟩ := List.getElem?_of_mem ((t.reached top id).2 h)
    exact ⟨r, getElem?_documentOrder (t.once top) there (given h), there⟩
  have few : (a.selfAndDescendants top).length ≤ a.nodes.length := by
    have all : a.selfAndDescendants top ⊆ List.range a.nodes.length := fun m hm => List.mem_range.2 (given ((t.reached top m).1 hm))
    have short := ((t.once top).subperm all).length_le
    rwa [List.length_range] at short
  refine ⟨a.length_documentOrder, fun id => attached, ?_, ?_, ?_⟩
  · intro id id' r h h' hr hr'
    obtain ⟨s, hs, there⟩ := attached h
    obtain ⟨s', hs', there'⟩ := attached h'
    rw [hr, Option.some.injEq] at hs
    rw [hr', Option.some.injEq] at hs'
    rw [← hs] at there
    rw [← hs', there] at there'
    exact Option.some.inj there'
  · exact fun id hid out => getElem?_documentOrder_of_notMem (fun h => out ((t.reached top id).1 h)) hid
  · intro counted id hr h
    obtain ⟨r, hr', there⟩ := attached h
    rw [hr, Option.some.injEq] at hr'
    obtain ⟨place, -⟩ := List.getElem?_eq_some_iff.1 there
    omega

/-- **What is read and then edited** is the row of a document that is read and then edited. -/
theorem Built.document (h : a.Built) : ∃ d : Document, d.Built ∧ a = d.arena := by
  induction h with
  | parse h =>
    rw [Document.parse_arena] at h
    obtain ⟨d, read, rfl⟩ := map_eq_ok.1 h
    exact ⟨d, .parse read, rfl⟩
  | parseFragment h =>
    rw [Document.parseFragment_arena] at h
    obtain ⟨d, read, rfl⟩ := map_eq_ok.1 h
    exact ⟨d, .parseFragment read, rfl⟩
  | rename _ id name ih =>
    obtain ⟨d, hd, rfl⟩ := ih
    rw [hd.gapless.rename_arena]
    refine hd.told fun d' _ done => ?_
    obtain ⟨_, renamed, same⟩ := map_eq_ok.1 done
    cases same
    exact .rename hd renamed
  | setText _ id text ih =>
    obtain ⟨d, hd, rfl⟩ := ih
    rw [hd.gapless.setText_arena]
    refine hd.told fun d' _ done => ?_
    obtain ⟨_, written, same⟩ := map_eq_ok.1 done
    cases same
    exact .setText hd written
  | setAttribute _ id name value ih =>
    obtain ⟨d, hd, rfl⟩ := ih
    rw [hd.gapless.setAttribute_arena]
    refine hd.told fun d' _ done => ?_
    obtain ⟨_, written, same⟩ := map_eq_ok.1 done
    cases same
    exact .setAttribute hd written
  | removeAttribute _ id name ih =>
    obtain ⟨d, hd, rfl⟩ := ih
    rw [hd.gapless.removeAttribute_arena]
    exact hd.told fun _ _ done => .removeAttribute hd done
  | appendFragment _ _ id ih ihf =>
    obtain ⟨d, hd, rfl⟩ := ih
    obtain ⟨fragment, hf, rfl⟩ := ihf
    rw [hd.gapless.appendFragment_arena hf.numbered]
    exact hd.told fun _ _ done => .appendFragment hd hf done
  | detach _ id ih =>
    obtain ⟨d, hd, rfl⟩ := ih
    rw [hd.gapless.detach_arena]
    exact ⟨_, .detach hd id, rfl⟩

/-- **How the nodes of an arena hang together**, whatever edits it has seen, and whether they were carried out or refused: the two ends
of every link agree, no link leads upwards and none to the document itself; traversals end, and meet what can be reached once, in
document order; what is attached is ranked by its place, and all else by the rank that is none; a node is taken out if it is below
something; and what was just read has its numbers in document order. -/
theorem Built.coherent (h : a.Built) :
    a.Linked ∧ a.Traversed ∧ a.Ranked ∧ (∀ id, (a.detach id).1 = true ↔ ∃ p, a.parent? id = some p) ∧
      ∀ text, (Arena.parse text = .ok a ∨ Arena.parseFragment text = .ok a) → a.selfAndDescendants top = List.range a.nodes.length := by
  obtain ⟨d, hd, rfl⟩ := h.document
  have numbered := hd.numbered
  have linked := numbered.linked_arena hd.rising
  have traversed := numbered.traversed_arena
  refine ⟨linked, traversed, traversed.ranked linked (numbered.represents.size ▸ numbered.next), ?_, ?_⟩
  · intro id
    rw [hd.gapless.detach_arena, numbered.parent?_arena, Document.detach]
    cases d.parent? id <;> simp
  · intro text read
    rw [Document.parse_arena, Document.parseFragment_arena, map_eq_ok, map_eq_ok] at read
    obtain ⟨f, same⟩ : ∃ f, (Document.ofForest f).arena = d.arena := by
      rcases read with ⟨d', read, same⟩ | ⟨d', read, same⟩
      · obtain ⟨f, -, rfl⟩ := map_eq_ok.1 read
        exact ⟨f, same⟩
      · obtain ⟨f, -, rfl⟩ := map_eq_ok.1 read
        exact ⟨f, same⟩
    rw [← same]
    exact Document.selfAndDescendants_ofForest f

/-- an element with another one in it, just read -/
def nested : Arena :=
  ⟨[⟨.document, none, [1]⟩, ⟨.element "a" [], some 0, [2]⟩, ⟨.element "b" [], some 1, [3]⟩, ⟨.leaf .text "x", some 2, []⟩]⟩

/-- the same after it was given a copy of itself, lost the element with the copy in it, and got a text and lost that too; an edit that
was refused is among these -/
def pruned : Arena :=
  let doubled := (nested.appendFragment 2 nested).2
  let refused := (doubled.rename 3 "q").2
  let written := ((refused.detach 2).2.setText 1 "y").2
  (written.setText 1 "").2

theorem coherent_pruned :
    pruned.Built ∧ pruned.children 2 = [3, 4] ∧ pruned.parent? 4 = some 2 ∧ pruned.parent? 2 = none ∧ pruned.parent? 7 = none ∧
      pruned.selfAndDescendants top = [0, 1] ∧ pruned.selfAndDescendants 2 = [2, 3, 4, 5, 6] ∧
      pruned.Linked ∧ pruned.Traversed ∧ pruned.Ranked := by
  have read : Arena.parse "<a><b>x</b></a>" = .ok nested := by decide +kernel
  have start : nested.Built := .parse read
  have built : pruned.Built := .setText (.setText (.detach (.rename (.appendFragment start start 2) 3 "q") 2) 1 "y") 1 ""
  obtain ⟨linked, traversed, ranked, -⟩ := built.coherent
  exact ⟨built, by decide +kernel, by decide +kernel, by decide +kernel, by decide +kernel, by decide +kernel, by decide +kernel,
    linked, traversed, ranked⟩

end Arena

end XmlStore.Xml
