/-
Changes of content, told without numbers.

Content is changed at one element if it is the same everywhere else (`Forest.ChangedAt`), or pruned of some nodes with all that is
below them (`Forest.prune`). What is done to the element is told by how its attributes or the siblings in it are split around the
place of the change. The operations on numbered content do just that, as long as no number is given twice.

Main statements:
- `Forest.changedAt_modify`: changing a numbered element is a change at that element.
- `Forest.erase_removeAll`: taking out numbered nodes one after the other, in any order, is pruning them all at once.
-/
import XmlStore.Proofs.Xml.Edits

namespace XmlStore.Xml

/-! ## What is done to attributes -/

namespace Attributes

variable {attributes : Attributes}

/-- one value is set: in place of the one that the name has, or after all others if it has none -/
def SetTo (name value : String) (old new : Attributes) : Prop :=
  (∃ before given after, old = before ++ (name, given) :: after ∧ name ∉ before.map Prod.fst ∧
    new = before ++ (name, value) :: after) ∨
  (name ∉ old.map Prod.fst ∧ new = old ++ [(name, value)])

/-- the attribute of a name is taken out from between the others -/
def TakenOut (name : String) (old new : Attributes) : Prop :=
  ∃ before given after, old = before ++ (name, given) :: after ∧ name ∉ (before ++ after).map Prod.fst ∧ new = before ++ after

theorem setTo_set (attributes : Attributes) (name value : String) : SetTo name value attributes (attributes.set name value) := by
  induction attributes with
  | nil => exact Or.inr ⟨by simp, rfl⟩
  | cons first rest ih =>
    obtain ⟨key, given⟩ := first
    rw [set]
    by_cases hk : key = name
    · subst hk
      rw [if_pos rfl]
      exact Or.inl ⟨[], given, rest, rfl, by simp, rfl⟩
    · rw [if_neg hk]
      rcases ih with ⟨before, held, after, rfl, absent, e⟩ | ⟨absent, e⟩
      · exact Or.inl ⟨(key, given) :: before, held, after, rfl, by simp [Ne.symm hk, absent], by rw [e]; rfl⟩
      · exact Or.inr ⟨by simp [Ne.symm hk, absent], by rw [e]; rfl⟩

theorem remove_of_notMem {name : String} (h : name ∉ attributes.map Prod.fst) : attributes.remove name = attributes := by
  refine List.filter_eq_self.2 ?_
  intro a ha
  exact decide_eq_true fun e => h (e ▸ List.mem_map_of_mem ha)

theorem takenOut_remove (hd : (attributes.map Prod.fst).Nodup) {name : String} (there : attributes.any (·.1 == name) = true) :
    TakenOut name attributes (attributes.remove name) := by
  obtain ⟨⟨key, given⟩, ha, same⟩ := List.any_eq_true.1 there
  obtain rfl : key = name := eq_of_beq same
  obtain ⟨before, after, rfl⟩ := List.append_of_mem ha
  rw [List.map_append, List.map_cons, List.nodup_append, List.nodup_cons] at hd
  obtain ⟨-, ⟨notAfter, -⟩, apart⟩ := hd
  have notBefore : key ∉ before.map Prod.fst := fun hb => apart key hb key List.mem_cons_self rfl
  refine ⟨before, given, after, rfl, ?_, ?_⟩
  · rw [List.map_append, List.mem_append]
    exact fun h => h.elim notBefore notAfter
  · have front := remove_of_notMem notBefore
    have back := remove_of_notMem notAfter
    rw [remove] at front back
    rw [remove, List.filter_append, List.filter_cons_of_neg (by simp), front, back]

end Attributes

variable {ι : Type}

def Element.erase (e : Element ι) : Element Unit := ⟨(), e.name, e.attributes, e.children.erase⟩

namespace Forest

/-! ## What is done to siblings -/

/-- one text is set: in place of the first text or CDATA among the siblings, or after all of them if there is none; the empty text only
takes that one out -/
def TextSet (text : String) (old new : Forest Unit) : Prop :=
  (∃ (before : Forest Unit) (kind : LeafKind) (given : String) (after : Forest Unit),
    old = before.append (.leaf () kind given after) ∧ kind.isText = true ∧ before.hasText = false ∧
      new = before.append (if text.isEmpty then after else .leaf () .text text after)) ∨
  (old.hasText = false ∧ new = if text.isEmpty then old else old.append (.leaf () .text text .nil))

theorem textSet_withText (f : Forest Unit) (text : String) : TextSet text f (f.withText () text) := by
  induction f with
  | nil =>
    refine Or.inr ⟨rfl, ?_⟩
    rw [withText]
    split <;> rfl
  | leaf mark kind value next ih =>
    rw [withText]
    by_cases hk : kind.isText = true
    · rw [if_pos hk]
      exact Or.inl ⟨.nil, kind, value, next, rfl, hk, rfl, rfl⟩
    · rw [if_neg hk]
      have comment : kind.isText = false := Bool.not_eq_true _ ▸ hk
      rcases ih with ⟨before, kind', given, after, rfl, hk', absent, e⟩ | ⟨absent, e⟩
      · exact Or.inl ⟨.leaf () kind value before, kind', given, after, rfl, hk', by rw [hasText, comment, absent]; rfl,
          by rw [e]; rfl⟩
      · refine Or.inr ⟨by rw [hasText, comment, absent]; rfl, ?_⟩
        rw [e]
        split <;> rfl
  | element mark name attributes children next _ ihn =>
    rw [withText]
    rcases ihn with ⟨before, kind', given, after, rfl, hk', absent, e⟩ | ⟨absent, e⟩
    · exact Or.inl ⟨.element () name attributes children before, kind', given, after, rfl, hk', absent, by rw [e]; rfl⟩
    · refine Or.inr ⟨absent, ?_⟩
      rw [e]
      split <;> rfl

theorem erase_append (f g : Forest ι) : (f.append g).erase = f.erase.append g.erase := by
  induction f with
  | nil => rfl
  | leaf mark kind value next ih => rw [append, erase, ih]; rfl
  | element mark name attributes children next _ ihn => rw [append, erase, ihn]; rfl

theorem erase_withText (f : Forest ι) (fresh : ι) (text : String) :
    (f.withText fresh text).erase = f.erase.withText () text := by
  induction f with
  | nil =>
    rw [withText]
    split
    · rename_i h
      rw [erase, withText, if_pos h]
    · rename_i h
      rw [erase, erase, erase, withText, if_neg h]
  | leaf mark kind value next ih =>
    rw [withText, erase, withText]
    split
    · split <;> rfl
    · rw [erase, ih]
  | element mark name attributes children next _ ihn => rw [withText, erase, erase, withText, ihn]

/-! ## Changes at one element -/

/-- content that is the same as before, but for one marked element to which something is done -/
inductive ChangedAt (mark : ι) (done : Element Unit → Element Unit → Prop) : Forest ι → Forest Unit → Prop where
  | leaf {i : ι} {kind : LeafKind} {value : String} {next : Forest ι} {next' : Forest Unit}
      (h : ChangedAt mark done next next') : ChangedAt mark done (.leaf i kind value next) (.leaf () kind value next')
  | here {name : String} {attributes : Attributes} {children next : Forest ι} {e : Element Unit}
      (h : done ⟨(), name, attributes, children.erase⟩ e) :
      ChangedAt mark done (.element mark name attributes children next)
        (.element () e.name e.attributes e.children next.erase)
  | inside {i : ι} {name : String} {attributes : Attributes} {children next : Forest ι} {children' : Forest Unit}
      (h : ChangedAt mark done children children') :
      ChangedAt mark done (.element i name attributes children next) (.element () name attributes children' next.erase)
  | beside {i : ι} {name : String} {attributes : Attributes} {children next : Forest ι} {next' : Forest Unit}
      (h : ChangedAt mark done next next') :
      ChangedAt mark done (.element i name attributes children next) (.element () name attributes children.erase next')

theorem noBlanks_erase (f : Forest ι) : f.erase.NoBlanks ↔ f.NoBlanks := by
  induction f with
  | nil => exact Iff.rfl
  | leaf mark kind value next ih => simp only [erase, NoBlanks, ih]
  | element mark name attributes children next ihc ihn => simp only [erase, NoBlanks, ihc, ihn]

/-- a change that brings no blank text into its element brings none into the content -/
theorem ChangedAt.noBlanks {mark : ι} {done : Element Unit → Element Unit → Prop} {f : Forest ι} {g : Forest Unit}
    (h : f.ChangedAt mark done g) (hf : f.NoBlanks)
    (keeps : ∀ e e', done e e' → e.children.NoBlanks → e'.children.NoBlanks) : g.NoBlanks := by
  induction h with
  | leaf _ ih => exact ⟨hf.1, ih hf.2⟩
  | here h => exact ⟨keeps _ _ h ((noBlanks_erase _).2 hf.1), (noBlanks_erase _).2 hf.2⟩
  | inside _ ih => exact ⟨ih hf.1, (noBlanks_erase _).2 hf.2⟩
  | beside _ ih => exact ⟨(noBlanks_erase _).2 hf.1, ih hf.2⟩

section Marked

variable [DecidableEq ι]

/-- **Changing a marked element** changes nothing else, if no mark occurs twice. -/
theorem changedAt_modify {f : Forest ι} (hf : f.marks.Nodup) {e : Element ι} (he : .element e ∈ f.nodes)
    {change : Element ι → Element ι} {done : Element Unit → Element Unit → Prop} (h : done e.erase (change e).erase) :
    f.ChangedAt e.mark done (f.modify e.mark change).erase := by
  induction f with
  | nil => exact absurd he List.not_mem_nil
  | leaf i kind value next ih =>
    rw [marks_leaf, List.nodup_cons] at hf
    rcases mem_nodes_leaf.1 he with he | he
    · cases he
    · exact .leaf (ih hf.2 he)
  | element i name attributes children next ihc ihn =>
    have apart := apart hf
    rw [modify]
    rcases mem_nodes_element.1 he with he | he | he
    · cases he
      rw [if_pos rfl]
      exact .here h
    · have known : e.mark ∈ children.marks := mem_marks_of_mem he
      have other : i ≠ e.mark := fun eq => apart.notBelow (eq ▸ known)
      rw [if_neg other, modify_of_notMem (apart.disjoint _ known), erase]
      exact .inside (ihc apart.below he)
    · have known : e.mark ∈ next.marks := mem_marks_of_mem he
      have other : i ≠ e.mark := fun eq => apart.notBeside (eq ▸ known)
      have away : e.mark ∉ children.marks := fun hc => apart.disjoint _ hc known
      rw [if_neg other, modify_of_notMem away, erase]
      exact .beside (ihn apart.beside he)

end Marked

/-! ## Pruning -/

/-- the content without the nodes that are hit and without all that is below them -/
def prune (hit : ι → Bool) : Forest ι → Forest Unit
  | .nil => .nil
  | .leaf i kind value next => if hit i then next.prune hit else .leaf () kind value (next.prune hit)
  | .element i name attributes children next =>
    if hit i then next.prune hit else .element () name attributes (children.prune hit) (next.prune hit)

theorem prune_congr {f : Forest ι} {hit hit' : ι → Bool} (h : ∀ m ∈ f.marks, hit m = hit' m) : f.prune hit = f.prune hit' := by
  induction f with
  | nil => rfl
  | leaf i kind value next ih =>
    rw [marks_leaf] at h
    rw [prune, prune, h i List.mem_cons_self, ih fun m hm => h m (List.mem_cons_of_mem _ hm)]
  | element i name attributes children next ihc ihn =>
    rw [marks_element] at h
    rw [prune, prune, h i List.mem_cons_self, ihc fun m hm => h m (List.mem_cons_of_mem _ (List.mem_append_left _ hm)),
      ihn fun m hm => h m (List.mem_cons_of_mem _ (List.mem_append_right _ hm))]

theorem prune_none (f : Forest ι) : (f.prune fun _ => false) = f.erase := by
  induction f with
  | nil => rfl
  | leaf i kind value next ih => rw [prune, if_neg Bool.false_ne_true, ih, erase]
  | element i name attributes children next ihc ihn => rw [prune, if_neg Bool.false_ne_true, ihc, ihn, erase]

theorem noBlanks_prune {f : Forest ι} (h : f.NoBlanks) (hit : ι → Bool) : (f.prune hit).NoBlanks := by
  induction f with
  | nil => exact h
  | leaf i kind value next ih =>
    rw [prune]
    split
    · exact ih h.2
    · exact ⟨h.1, ih h.2⟩
  | element i name attributes children next ihc ihn =>
    rw [prune]
    split
    · exact ihn h.2
    · exact ⟨ihc h.1, ihn h.2⟩

section Marked

variable [DecidableEq ι]

/-- a node that is taken out first need not be pruned later -/
theorem prune_remove {f : Forest ι} (hf : f.marks.Nodup) (mark : ι) (hit : ι → Bool) :
    (f.remove mark).prune hit = f.prune fun m => decide (m = mark) || hit m := by
  -- where the mark does not occur it makes no difference
  have away : ∀ {g : Forest ι}, mark ∉ g.marks → g.prune hit = g.prune fun m => decide (m = mark) || hit m := by
    intro g hg
    refine prune_congr ?_
    intro m hm
    have other : m ≠ mark := fun e => hg (e ▸ hm)
    rw [decide_eq_false other, Bool.false_or]
  induction f with
  | nil => rfl
  | leaf i kind value next ih =>
    rw [marks_leaf, List.nodup_cons] at hf
    rw [remove, prune]
    by_cases hi : i = mark
    · rw [if_pos hi, if_pos (by simp [hi])]
      exact away (hi ▸ hf.1)
    · rw [if_neg hi, prune, decide_eq_false hi, Bool.false_or, ih hf.2]
  | element i name attributes children next ihc ihn =>
    have apart := apart hf
    rw [remove, prune]
    by_cases hi : i = mark
    · rw [if_pos hi, if_pos (by simp [hi])]
      exact away (hi ▸ apart.notBeside)
    · rw [if_neg hi, prune, decide_eq_false hi, Bool.false_or, ihc apart.below, ihn apart.beside]

/-- **Taking out nodes one after the other** takes out each with all that is below it and nothing else, whether or not some of them are
below others. -/
theorem erase_removeAll {f : Forest ι} (hf : f.marks.Nodup) (marks : List ι) :
    (marks.foldl (fun f mark => f.remove mark) f).erase = f.prune fun m => decide (m ∈ marks) := by
  induction marks generalizing f with
  | nil =>
    rw [List.foldl_nil, ← prune_none]
    exact prune_congr fun m _ => (decide_eq_false List.not_mem_nil).symm
  | cons mark rest ih =>
    rw [List.foldl_cons, ih (nodup_remove hf mark), prune_remove hf]
    refine prune_congr ?_
    intro m _
    rw [← Bool.decide_or]
    exact decide_eq_decide.2 List.mem_cons.symm

end Marked

end Forest

/-- a text that is only blanks is never read -/
theorem Document.noBlanks_of_parse {text : String} {d : Document} (h : parse text = .ok d) : d.attached.NoBlanks := by
  obtain ⟨f, hf, rfl⟩ := map_eq_ok.1 h
  rw [← Forest.noBlanks_erase, ofForest, Forest.erase_number]
  exact (readForest_sound hf).2.1

end XmlStore.Xml
