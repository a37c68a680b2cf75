/-
Fragments written and read again.

A fragment may begin with text, and so its written form may begin with any character that is allowed in a text. One of them is lost
there: the byte order mark, which the reader takes for that of the file. A text that begins with it, as it can if the mark was given by a
character reference, is written as it is and comes back without it, or not at all if only blanks are left of it. Everything else of a
fragment survives.

Main statements:
- `readForest_render_fragment`: the written form of a fragment is read as the fragment without the mark.
- `Forest.length_render_dropBlanks`: nothing that is written becomes longer when blank texts are left out.
- `Document.parseFragment_xml_iff`: when the text of a fragment is read as a fragment with that text.
- `Document.not_parseFragment_xml_marked`: a fragment of which it is not.
-/
import XmlStore.Proofs.Xml.RoundTrip

namespace XmlStore.Xml

open Text

namespace Forest

variable {ι : Type}

/-- the forest without the byte order mark that its first node begins with, if that is a text -/
def unmarked : Forest ι → Forest ι
  | .leaf mark .text value next => .leaf mark .text (String.ofList (dropMark value.toList)) next
  | f => f

/-- what is written of a fragment begins with the mark just if its first node is a text that does -/
theorem unmarked_cases {f : Forest ι} (h : f.NoBlanks) :
    (f.render.head? ≠ some '\uFEFF' ∧ f.unmarked = f) ∨ f.render = '\uFEFF' :: f.unmarked.render := by
  cases f with
  | nil => exact Or.inl ⟨by simp [render], rfl⟩
  | element => exact Or.inl ⟨by simp [render, renderTag], rfl⟩
  | leaf mark kind value next =>
    cases kind with
    | cdata => exact Or.inl ⟨by simp [render, LeafKind.render], rfl⟩
    | comment => exact Or.inl ⟨by simp [render, LeafKind.render], rfl⟩
    | text =>
      have nonblank := h.1 rfl
      rw [unmarked, render, render, LeafKind.render, LeafKind.render, String.toList_ofList]
      cases hv : value.toList with
      | nil => rw [hv] at nonblank; cases nonblank
      | cons c rest =>
        by_cases marked : c = '\uFEFF'
        · subst marked
          rw [escapeText_cons]
          exact Or.inr rfl
        · have same : dropMark (c :: rest) = c :: rest := dropMark_eq_self fun e => marked (Option.some.inj e)
          refine Or.inl ⟨?_, by rw [same, ← hv, String.ofList_toList]⟩
          rw [escapeText_cons, List.append_assoc]
          exact head?_escapeTextChar marked _

theorem dropMark_render_unmarked {f : Forest ι} (h : f.NoBlanks) : dropMark f.render = f.unmarked.render := by
  rcases unmarked_cases h with ⟨plain, e⟩ | e
  · rw [e]
    exact dropMark_eq_self plain
  · rw [e]
    rfl

theorem wellFormed_unmarked {f : Forest ι} (h : f.WellFormed) : f.unmarked.WellFormed := by
  unfold unmarked
  split
  · rename_i mark value next
    refine ⟨?_, h.2⟩
    intro c hc
    rw [String.toList_ofList] at hc
    refine h.1 c ?_
    unfold dropMark at hc
    split at hc
    · rename_i rest marked
      rw [marked]
      exact List.mem_cons_of_mem _ hc
    · exact hc
  · exact h

theorem elements_unmarked (f : Forest ι) : f.unmarked.elements = f.elements := by
  unfold unmarked
  split <;> rfl

/-- **Nothing that is written becomes longer** when the texts that are only blanks are left out. -/
theorem length_render_dropBlanks (f : Forest ι) : f.dropBlanks.render.length ≤ f.render.length := by
  induction f with
  | nil => exact Nat.le_refl _
  | leaf mark kind value next ih =>
    rw [dropBlanks]
    split
    · rw [render, List.length_append]
      exact Nat.le_add_left_of_le ih
    · rw [render, render, List.length_append, List.length_append]
      exact Nat.add_le_add_left ih _
  | element mark name attributes children next ihc ihn =>
    have inside : (if children.dropBlanks.isEmpty then ['/', '>'] else '>' :: children.dropBlanks.render ++ renderEndTag name).length ≤
        (if children.isEmpty then ['/', '>'] else '>' :: children.render ++ renderEndTag name).length := by
      by_cases nothing : children.dropBlanks.isEmpty = true
      · -- an end tag is longer than the slash that stands for it
        rw [if_pos nothing]
        split
        · exact Nat.le_refl _
        · simp only [renderEndTag, List.length_append, List.length_cons]
          omega
      · have some : children.isEmpty ≠ true := by
          intro e
          cases children with
          | nil => exact nothing rfl
          | leaf => cases e
          | element => cases e
        rw [if_neg nothing, if_neg some]
        simp [ihc]
    simp only [dropBlanks, render, List.length_append] at inside ⊢
    omega

end Forest

theorem readForest_render_fragment {f : Forest Unit} (hw : f.WellFormed) (hb : f.NoBlanks) (hs : f.elements.length ≠ 0) :
    readForest .fragment f.xml = .ok f.unmarked.joinTexts.dropBlanks := by
  have admits : checkShape f.unmarked.joinTexts.dropBlanks .fragment = .ok () := by
    rwa [checkShape_eq_ok, Forest.length_elements_dropBlanks, Forest.length_elements_joinTexts, Forest.elements_unmarked]
  rw [readForest, Forest.xml, String.toList_ofList, Forest.dropMark_render_unmarked hb,
    run_render (Forest.wellFormed_unmarked hw) (Or.inl rfl)]
  simp [admits]

namespace Document

/-- what the text of a fragment is read as: its first text without a byte order mark, adjacent texts joined, and blank ones left out -/
def reread (d : Document) : Document :=
  ofForest d.attached.erase.unmarked.joinTexts.dropBlanks

/-- **The text of a fragment that was read is read again**, and as a fragment with the same text exactly if it does not begin with a byte
order mark. -/
theorem parseFragment_xml_iff {text : String} {d : Document} (h : parseFragment text = .ok d) :
    parseFragment d.xml = .ok d.reread ∧ (d.reread.xml = d.xml ↔ d.xml.toList.head? ≠ some '\uFEFF') := by
  obtain ⟨f, hf, rfl⟩ := map_eq_ok.1 h
  obtain ⟨hw, hb, -, hs⟩ := readForest_sound hf
  have again : (ofForest f).reread = ofForest f.unmarked.joinTexts.dropBlanks := by
    simp only [reread, ofForest, Forest.erase_number]
  rw [again, xml_ofForest, xml_ofForest, parseFragment, readForest_render_fragment hw hb hs, ok_map]
  refine ⟨rfl, ?_⟩
  rcases Forest.unmarked_cases hb with ⟨plain, e⟩ | e
  · rw [e, Forest.dropBlanks_of_noBlanks (Forest.noBlanks_joinTexts hb)]
    simp [Forest.xml, Forest.render_joinTexts, plain]
  · have shorter : f.unmarked.joinTexts.dropBlanks.render.length < f.render.length := by
      calc f.unmarked.joinTexts.dropBlanks.render.length
        _ ≤ f.unmarked.joinTexts.render.length := Forest.length_render_dropBlanks _
        _ = f.unmarked.render.length := by rw [Forest.render_joinTexts]
        _ < f.render.length := by rw [e]; exact Nat.lt_succ_self _
    have marked : f.xml.toList.head? = some '\uFEFF' := by rw [Forest.xml, String.toList_ofList, e]; rfl
    have other : f.unmarked.joinTexts.dropBlanks.xml ≠ f.xml := by
      intro same
      rw [Forest.xml, Forest.xml, String.ofList_inj] at same
      rw [same] at shorter
      exact Nat.lt_irrefl _ shorter
    simp [other, marked]

/-- a text that begins with a blank comes back with the mark that is inside it -/
theorem parseFragment_xml_iff_text :
    let d : Document := ofForest (.leaf () .text " t\uFEFF" (.leaf () .text "&" (.element () "a" [] .nil .nil)))
    parseFragment " t\uFEFF<?p?>&amp;<a> </a>" = .ok d ∧ parseFragment d.xml = .ok d.reread ∧ d.reread.xml = d.xml := by
  intro d
  have read : parseFragment " t\uFEFF<?p?>&amp;<a> </a>" = .ok d := by decide +kernel
  obtain ⟨again, same⟩ := parseFragment_xml_iff read
  exact ⟨read, again, same.2 (by decide +kernel)⟩

/-- a text that begins with a byte order mark comes back without it -/
theorem not_parseFragment_xml_marked :
    ∃ d, parseFragment "&#xFEFF;t<a/>" = .ok d ∧ ¬ ∃ d', parseFragment d.xml = .ok d' ∧ d'.xml = d.xml := by
  refine ⟨ofForest (.leaf () .text "\uFEFFt" (.element () "a" [] .nil .nil)), by decide +kernel, ?_⟩
  rintro ⟨d', again, same⟩
  have read : parseFragment (ofForest (.leaf () .text "\uFEFFt" (.element () "a" [] .nil .nil))).xml =
      .ok (ofForest (.leaf () .text "t" (.element () "a" [] .nil .nil))) := by
    decide +kernel
  rw [read, Except.ok.injEq] at again
  subst again
  exact absurd same (by decide +kernel)

end Document

end XmlStore.Xml
