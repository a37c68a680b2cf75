/-
What no edit can spoil.

Content stays well formed under every change of an element, of a leaf or of where a node stands, as long as what is put in is well
formed itself; so all names, attributes and characters of an edited document are legal, in what is attached and in what was
taken out (`Document.WellFormed`).

Main statements:
- `Forest.wellFormed_modify`, `Forest.wellFormed_remove`, `Forest.wellFormed_setLeaf`: what single operations keep.
- `Document.Built.wellFormed`: every document that was read and then edited is well formed.
-/
import XmlStore.Proofs.Xml.Accepted
import XmlStore.Proofs.Xml.Built
import XmlStore.Proofs.Xml.Content

namespace XmlStore.Xml

/-! ## Attributes -/

theorem Attributes.keys_set (name value : String) (attributes : Attributes) :
    (attributes.set name value).map Prod.fst =
      if name ∈ attributes.map Prod.fst then attributes.map Prod.fst else attributes.map Prod.fst ++ [name] := by
  induction attributes with
  | nil => rfl
  | cons first rest ih =>
    obtain ⟨key, old⟩ := first
    rw [set]
    by_cases h : key = name
    · simp [h]
    · simp only [if_neg h, List.map_cons, ih, List.mem_cons, Ne.symm h, false_or]
      split <;> rfl

theorem Attributes.mem_set {name value : String} {attributes : Attributes} {a : String × String}
    (h : a ∈ attributes.set name value) : a = (name, value) ∨ a ∈ attributes := by
  induction attributes with
  | nil => exact Or.inl (List.mem_singleton.1 h)
  | cons first rest ih =>
    obtain ⟨key, old⟩ := first
    rw [set] at h
    split at h
    · rename_i hk
      subst hk
      exact (List.mem_cons.1 h).imp_right (List.mem_cons_of_mem _)
    · rcases List.mem_cons.1 h with rfl | h
      · exact Or.inr List.mem_cons_self
      · exact (ih h).imp_right (List.mem_cons_of_mem _)

theorem Attributes.WellFormed.set {attributes : Attributes} (h : attributes.WellFormed) {name value : String}
    (hn : isName name = true) (hv : XmlText value.toList) : (attributes.set name value).WellFormed := by
  refine ⟨?_, ?_, ?_⟩
  · rw [keys_set]
    by_cases known : name ∈ attributes.map Prod.fst
    · rw [if_pos known]
      exact h.distinct
    · rw [if_neg known, List.nodup_append]
      refine ⟨h.distinct, by simp, ?_⟩
      intro key hk key' hk' e
      exact known (List.mem_singleton.1 hk' ▸ e ▸ hk)
  · intro a ha
    rcases mem_set ha with rfl | ha
    · exact hn
    · exact h.names a ha
  · intro a ha
    rcases mem_set ha with rfl | ha
    · exact hv
    · exact h.values a ha

theorem Attributes.WellFormed.remove {attributes : Attributes} (h : attributes.WellFormed) (name : String) :
    (attributes.remove name).WellFormed where
  distinct := h.distinct.sublist (List.filter_sublist.map Prod.fst)
  names a ha := h.names a ((List.mem_filter.1 ha).1)
  values a ha := h.values a ((List.mem_filter.1 ha).1)

/-! ## Content -/

/-- what an element may be -/
structure Element.WellFormed {ι : Type} (e : Element ι) : Prop where
  name : isName e.name = true
  attributes : e.attributes.WellFormed
  children : e.children.WellFormed

namespace Forest

variable {ι : Type}

theorem wellFormed_erase (f : Forest ι) : f.erase.WellFormed ↔ f.WellFormed := by
  induction f with
  | nil => exact Iff.rfl
  | leaf mark kind value next ih => simp only [erase, WellFormed, ih]
  | element mark name attributes children next ihc ihn => simp only [erase, WellFormed, ihc, ihn]

theorem wellFormed_number (f : Forest Unit) (first : Nat) : (f.number first).WellFormed ↔ f.WellFormed := by
  rw [← wellFormed_erase, erase_number]

/-- a node of well-formed content is well formed with all that is below it -/
theorem WellFormed.of_mem {f : Forest ι} (h : f.WellFormed) {n : Node ι} (hn : n ∈ f.nodes) : n.toForest.WellFormed := by
  induction f with
  | nil => exact absurd hn List.not_mem_nil
  | leaf mark kind value next ih =>
    rcases mem_nodes_leaf.1 hn with rfl | hn
    · exact ⟨h.1, trivial⟩
    · exact ih h.2 hn
  | element mark name attributes children next ihc ihn =>
    obtain ⟨hname, hattributes, hchildren, hnext⟩ := h
    rcases mem_nodes_element.1 hn with rfl | hn | hn
    · exact ⟨hname, hattributes, hchildren, trivial⟩
    · exact ihc hchildren hn
    · exact ihn hnext hn

section Marked

variable [DecidableEq ι] {mark : ι}

theorem wellFormed_modify {f : Forest ι} (h : f.WellFormed) {change : Element ι → Element ι}
    (hc : ∀ e, e.WellFormed → (change e).WellFormed) : (f.modify mark change).WellFormed := by
  induction f with
  | nil => exact h
  | leaf i kind value next ih => exact ⟨h.1, ih h.2⟩
  | element i name attributes children next ihc ihn =>
    obtain ⟨hname, hattributes, hchildren, hnext⟩ := h
    rw [modify]
    by_cases hi : i = mark
    · rw [if_pos hi]
      have changed := hc ⟨i, name, attributes, children⟩ ⟨hname, hattributes, hchildren⟩
      exact ⟨changed.name, changed.attributes, changed.children, hnext⟩
    · rw [if_neg hi]
      exact ⟨hname, hattributes, ihc hchildren, ihn hnext⟩

theorem wellFormed_remove {f : Forest ι} (h : f.WellFormed) : (f.remove mark).WellFormed := by
  induction f with
  | nil => exact h
  | leaf i kind value next ih =>
    rw [remove]
    split
    · exact h.2
    · exact ⟨h.1, ih h.2⟩
  | element i name attributes children next ihc ihn =>
    obtain ⟨hname, hattributes, hchildren, hnext⟩ := h
    rw [remove]
    split
    · exact hnext
    · exact ⟨hname, hattributes, ihc hchildren, ihn hnext⟩

theorem wellFormed_setLeaf {f : Forest ι} (h : f.WellFormed) {value : String} (hv : XmlText value.toList) :
    (f.setLeaf mark value).WellFormed := by
  induction f with
  | nil => exact h
  | leaf i kind old next ih =>
    rw [setLeaf]
    split
    · exact ⟨hv, h.2⟩
    · exact ⟨h.1, ih h.2⟩
  | element i name attributes children next ihc ihn =>
    obtain ⟨hname, hattributes, hchildren, hnext⟩ := h
    exact ⟨hname, hattributes, ihc hchildren, ihn hnext⟩

end Marked

end Forest

/-! ## Documents -/

namespace Document

/-- every name, every list of attributes and every text is legal, in what is attached and in what was taken out -/
structure WellFormed (d : Document) : Prop where
  attached : d.attached.WellFormed
  detached : d.detached.WellFormed

namespace WellFormed

variable {d d' : Document}

theorem ofForest {f : Forest Unit} (h : f.WellFormed) : (ofForest f).WellFormed :=
  ⟨(Forest.wellFormed_number f 1).2 h, trivial⟩

theorem modify (h : d.WellFormed) (id : Nat) {change : Element Nat → Element Nat}
    (hc : ∀ e, e.WellFormed → (change e).WellFormed) : (d.modify id change).WellFormed :=
  ⟨Forest.wellFormed_modify h.attached hc, Forest.wellFormed_modify h.detached hc⟩

theorem appendNodes (h : d.WellFormed) (id : Nat) {nodes : Forest Unit} (hn : nodes.WellFormed) :
    (d.appendNodes id nodes).WellFormed := by
  have grown : (d.modify id fun e => { e with children := e.children.append (nodes.number d.next) }).WellFormed := by
    refine h.modify id ?_
    intro e he
    exact ⟨he.name, he.attributes, Forest.wellFormed_append.2 ⟨he.children, (Forest.wellFormed_number nodes d.next).2 hn⟩⟩
  exact ⟨grown.attached, grown.detached⟩

theorem subtree (h : d.WellFormed) (id : Nat) : (d.subtree id).WellFormed := by
  unfold Document.subtree
  split
  · exact h.attached
  · cases hf : d.find? id with
    | none => exact trivial
    | some n =>
      rw [find?, Option.or_eq_some_iff] at hf
      rcases hf with hf | ⟨-, hf⟩
      · exact h.attached.of_mem (Forest.mem_of_find? hf).1
      · exact h.detached.of_mem (Forest.mem_of_find? hf).1

theorem detach (h : d.WellFormed) (id : Nat) : (d.detach id).1.WellFormed := by
  unfold Document.detach
  split
  · exact h
  · exact ⟨Forest.wellFormed_remove h.attached,
      Forest.wellFormed_append.2 ⟨Forest.wellFormed_remove h.detached, h.subtree id⟩⟩

theorem rename (h : d.WellFormed) {id : Nat} {name : String} (hd : d.rename id name = .ok d') : d'.WellFormed := by
  simp only [Document.rename, bind_eq_ok, pure_ok, Except.ok.injEq] at hd
  obtain ⟨_, hn, _, -, rfl⟩ := hd
  exact h.modify id fun e he => ⟨isName_of_checkName hn, he.attributes, he.children⟩

theorem setText (h : d.WellFormed) {id : Nat} {text : String} (hd : d.setText id text = .ok d') : d'.WellFormed := by
  simp only [Document.setText, bind_eq_ok] at hd
  obtain ⟨_, ht, e, -, hd⟩ := hd
  have legal : XmlText text.toList := checkChars_eq_ok.1 ht
  split at hd
  · cases hd
    exact h.detach _
  · cases hd
    exact ⟨Forest.wellFormed_setLeaf h.attached legal, Forest.wellFormed_setLeaf h.detached legal⟩
  · cases hd
    exact h
  · cases hd
    exact h.appendNodes id ⟨legal, trivial⟩

theorem setAttribute (h : d.WellFormed) {id : Nat} {name value : String} (hd : d.setAttribute id name value = .ok d') :
    d'.WellFormed := by
  simp only [Document.setAttribute, bind_eq_ok, pure_ok, Except.ok.injEq] at hd
  obtain ⟨_, hn, _, hv, _, -, rfl⟩ := hd
  exact h.modify id fun e he =>
    ⟨he.name, he.attributes.set (isName_of_checkName hn) (checkChars_eq_ok.1 hv), he.children⟩

theorem removeAttribute (h : d.WellFormed) {id : Nat} {name : String} {removed : Bool}
    (hd : d.removeAttribute id name = .ok (d', removed)) : d'.WellFormed := by
  simp only [Document.removeAttribute, bind_eq_ok, pure_ok, Except.ok.injEq, Prod.mk.injEq] at hd
  obtain ⟨_, -, rfl, -⟩ := hd
  exact h.modify id fun e he => ⟨he.name, he.attributes.remove name, he.children⟩

theorem appendFragment (h : d.WellFormed) {fragment : Document} (hf : fragment.WellFormed) {id : Nat} {added : List Nat}
    (hd : d.appendFragment id fragment = .ok (d', added)) : d'.WellFormed := by
  simp only [Document.appendFragment, bind_eq_ok, pure_ok, Except.ok.injEq, Prod.mk.injEq] at hd
  obtain ⟨_, -, rfl, -⟩ := hd
  exact h.appendNodes id ((Forest.wellFormed_erase _).2 hf.attached)

end WellFormed

/-- **No edit spoils a document.** What was read and then edited in any way is well formed. -/
theorem Built.wellFormed {d : Document} (h : d.Built) : d.WellFormed := by
  induction h with
  | parse h =>
    obtain ⟨f, hf, rfl⟩ := map_eq_ok.1 h
    exact .ofForest (readForest_sound hf).1
  | parseFragment h =>
    obtain ⟨f, hf, rfl⟩ := map_eq_ok.1 h
    exact .ofForest (readForest_sound hf).1
  | rename _ h ih => exact ih.rename h
  | setText _ h ih => exact ih.setText h
  | setAttribute _ h ih => exact ih.setAttribute h
  | removeAttribute _ h ih => exact ih.removeAttribute h
  | appendFragment _ _ h ih ihf => exact ih.appendFragment ihf h
  | detach _ id ih => exact ih.detach id

end Document

end XmlStore.Xml
