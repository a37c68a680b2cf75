/-
The indented form, read again.

The indented form of a forest is the compact form of another one, with blank texts between its nodes (`Forest.indented`). It puts
none next to a text: an element with text directly in it keeps its content as it is, and that is where content can be told from
white space. Everywhere else the blanks are all the text there is, so they are dropped when the form is read.

Main statements:
- `Forest.render_indented`: the indented form is the compact form with blanks between the nodes.
- `Forest.dropBlanks_indented`: dropping blank texts takes out just those blanks.
- `Document.parse_prettyXml`: the indented form of a document that was read is read as the compact form is.
-/
import XmlStore.Proofs.Xml.Changes
import XmlStore.Proofs.Xml.Preservation
import XmlStore.Proofs.Xml.RoundTrip

namespace XmlStore.Xml

open Text

namespace Forest

variable {ι : Type}

/-! ## Blanks between the nodes -/

/-- the blanks before a node of a level -/
def margin (indent depth : Nat) : String :=
  String.ofList (List.replicate (depth * indent) ' ')

/-- the forest with the blanks of the indented form as texts: a margin before every node and a line end after it, and `last`
before what comes after all of them -/
def indented (indent depth : Nat) (last : String) : Forest ι → Forest Unit
  | .nil => .leaf () .text last .nil
  | .leaf _ kind value next =>
    .leaf () .text (margin indent depth)
      (.leaf () kind value (.leaf () .text "\n" (next.indented indent depth last)))
  | .element _ name attributes children next =>
    .leaf () .text (margin indent depth)
      (.element () name attributes
        (if children.isEmpty || children.hasText then children.erase
         else .leaf () .text "\n" (children.indented indent (depth + 1) (margin indent depth)))
        (.leaf () .text "\n" (next.indented indent depth last)))

theorem blank_margin (indent depth : Nat) : (margin indent depth).toList.all isBlank = true := by
  rw [margin, String.toList_ofList, List.all_eq_true]
  intro c hc
  rw [List.eq_of_mem_replicate hc]
  decide

theorem xmlText_margin (indent depth : Nat) : XmlText (margin indent depth).toList := by
  rw [margin, String.toList_ofList]
  intro c hc
  rw [List.eq_of_mem_replicate hc]
  decide

theorem escapeText_margin (indent depth : Nat) :
    escapeText (margin indent depth).toList = List.replicate (depth * indent) ' ' := by
  rw [margin, String.toList_ofList]
  induction depth * indent with
  | zero => rfl
  | succ n ih => rw [List.replicate_succ, escapeText_cons, ih]; rfl

/-- **The indented form** is the compact form of the forest with blanks between its nodes. -/
theorem render_indented (indent depth : Nat) (last : String) (f : Forest ι) :
    (f.indented indent depth last).render = f.renderIndented indent depth ++ escapeText last.toList := by
  have line_end : escapeText ['\n'] = ['\n'] := by decide
  induction f generalizing depth last with
  | nil => simp [indented, render, renderIndented, LeafKind.render]
  | leaf mark kind value next ih =>
    simp [indented, render, renderIndented, ih, LeafKind.render, escapeText_margin, line_end]
  | element mark name attributes children next ihc ihn =>
    by_cases he : children.isEmpty = true
    · have empty : children = .nil := by cases children <;> simp [isEmpty] at he ⊢
      subst empty
      simp [indented, render, renderIndented, isEmpty, erase, ihn, LeafKind.render, escapeText_margin, line_end]
    · by_cases ht : children.hasText = true
      · have kept : children.erase.isEmpty = false := by cases children <;> simp_all [isEmpty, erase]
        simp [indented, render, renderIndented, he, ht, kept, render_erase, ihn, LeafKind.render, escapeText_margin, line_end]
      · rw [indented, if_neg (by simp [he, ht])]
        rw [renderIndented, if_neg he, if_neg ht]
        simp [render, isEmpty, ihc, ihn, LeafKind.render, escapeText_margin, line_end]

/-! ## What the blanks leave as it was -/

theorem wellFormed_indented {f : Forest ι} (h : f.WellFormed) (indent depth : Nat) {last : String} (hl : XmlText last.toList) :
    (f.indented indent depth last).WellFormed := by
  have line_end : XmlText "\n".toList := by simp [XmlText, isXmlChar]
  induction f generalizing depth last with
  | nil => exact ⟨hl, trivial⟩
  | leaf mark kind value next ih => exact ⟨xmlText_margin _ _, h.1, line_end, ih h.2 depth hl⟩
  | element mark name attributes children next ihc ihn =>
    refine ⟨xmlText_margin _ _, h.1, h.2.1, ?_, line_end, ihn h.2.2.2 depth hl⟩
    split
    · exact (wellFormed_erase _).2 h.2.2.1
    · exact ⟨line_end, ihc h.2.2.1 (depth + 1) (xmlText_margin _ _)⟩

theorem bare_indented {f : Forest ι} (h : f.hasText = false) (indent depth : Nat) {last : String}
    (hl : last.toList.all isBlank = true) : (f.indented indent depth last).Bare := by
  have line_end : "\n".toList.all isBlank = true := by decide
  induction f with
  | nil => exact ⟨hl, trivial⟩
  | leaf mark kind value next ih =>
    rw [hasText, Bool.or_eq_false_iff] at h
    cases kind with
    | comment => exact ⟨blank_margin _ _, line_end, ih h.2⟩
    | text => exact absurd h.1 (by decide)
    | cdata => exact absurd h.1 (by decide)
  | element mark name attributes children next _ ihn => exact ⟨blank_margin _ _, line_end, ihn h⟩

theorem length_elements_indented (f : Forest ι) (indent depth : Nat) (last : String) :
    (f.indented indent depth last).elements.length = f.elements.length := by
  induction f with
  | nil => rfl
  | leaf mark kind value next ih => simpa [indented] using ih
  | element mark name attributes children next _ ihn => simpa [indented] using ihn

theorem length_elements_erase (f : Forest ι) : f.erase.elements.length = f.elements.length := by
  induction f with
  | nil => rfl
  | leaf mark kind value next ih => exact ih
  | element mark name attributes children next _ ihn => simpa [erase] using ihn

/-! ## What dropping blanks takes out -/

/-- outside the root there is no text that would not be dropped -/
theorem hasText_of_bare {f : Forest ι} (hb : f.Bare) (hn : f.NoBlanks) : f.hasText = false := by
  induction f with
  | nil => rfl
  | leaf mark kind value next ih =>
    cases kind with
    | text =>
      have blank := hb.1
      rw [hn.1 rfl] at blank
      exact absurd blank (by decide)
    | cdata => exact absurd hb id
    | comment => exact ih hb hn.2
  | element mark name attributes children next _ ihn => exact ihn hb hn.2

theorem hasText_erase (f : Forest ι) : f.erase.hasText = f.hasText := by
  induction f with
  | nil => rfl
  | leaf mark kind value next ih => simp [erase, hasText, ih]
  | element mark name attributes children next _ ihn => exact ihn

/-- a blank text before a node that is no text is dropped -/
theorem dropBlanks_blank {f : Forest Unit} (hf : f.startsWithText = false) {first second : String}
    (h₁ : first.toList.all isBlank = true) (h₂ : second.toList.all isBlank = true) :
    ((f.prependText () second).prependText () first).dropBlanks = f.dropBlanks := by
  have blank : (first ++ second).toList.all isBlank = true := by
    rw [String.toList_append, List.all_append, h₁, h₂, Bool.and_self]
  rw [prependText_prependText, prependText_of_not_text hf, dropBlanks, if_pos ⟨rfl, blank⟩]

/-- **Dropping blank texts** takes out the blanks of the indented form and nothing else, if there is no text among the siblings:
the blanks before a node make one text with what ends the line before, and that text is blank. -/
theorem dropBlanks_indented {f : Forest ι} (ht : f.hasText = false) (hn : f.NoBlanks) (indent depth : Nat)
    {first last : String} (hf : first.toList.all isBlank = true) (hl : last.toList.all isBlank = true) :
    ((f.indented indent depth last).joinTexts.prependText () first).dropBlanks = f.erase.joinTexts := by
  have line_end : "\n".toList.all isBlank = true := by decide
  induction f generalizing depth first last with
  | nil =>
    rw [indented, joinTexts, joinTexts, dropBlanks_blank rfl hf hl, dropBlanks, erase, joinTexts]
  | leaf mark kind value next ih =>
    rw [hasText, Bool.or_eq_false_iff] at ht
    cases kind with
    | comment =>
      rw [indented, joinTexts, dropBlanks_blank rfl hf (blank_margin indent depth)]
      simp [dropBlanks, joinTexts, erase, ih ht.2 hn.2 depth line_end hl]
    | text => exact absurd ht.1 (by decide)
    | cdata => exact absurd ht.1 (by decide)
  | element mark name attributes children next ihc ihn =>
    rw [indented, joinTexts, dropBlanks_blank rfl hf (blank_margin indent depth)]
    simp only [dropBlanks, joinTexts, erase, ihn ht hn.2 depth line_end hl]
    congr 1
    split
    · exact dropBlanks_of_noBlanks (noBlanks_joinTexts ((noBlanks_erase children).2 hn.1))
    · rename_i h
      have plain : children.hasText = false := by simp_all
      exact ihc plain hn.1 (depth + 1) line_end (blank_margin indent depth)

end Forest

/-! ## Documents -/

namespace Document

/-- **Indenting keeps content.** Whatever the indentation, the indented form of a document that was read is read as the same
document with adjacent texts joined, as its compact form is; so both have the same compact form, and no text, section, comment or
value has gained or lost white space. -/
theorem parse_prettyXml {text : String} {d : Document} (h : parse text = .ok d) (indent : Nat) :
    parse (d.prettyXml indent) = .ok d.joined ∧ d.joined.xml = d.xml := by
  obtain ⟨f, hf, rfl⟩ := map_eq_ok.1 h
  obtain ⟨hw, hn, hb, hs⟩ := readForest_sound hf
  have content : (ofForest f).attached.erase = f := Forest.erase_number f 1
  have bare : (ofForest f).attached.hasText = false := by
    rw [← Forest.hasText_erase, content, Forest.hasText_of_bare (hb rfl) hn]
  have full : (ofForest f).attached.NoBlanks := by
    rwa [← Forest.noBlanks_erase, content]
  let shown := (ofForest f).attached.indented indent 0 ""
  have written : (ofForest f).prettyXml indent = shown.xml := by
    rw [prettyXml, Forest.prettyXml, Forest.xml, Forest.render_indented]
    simp
  have admits : Shape.document.Admits shown.elements.length := by
    rw [Forest.length_elements_indented, ← Forest.length_elements_erase, content]
    exact hs
  have kept : shown.joinTexts.dropBlanks = (ofForest f).attached.erase.joinTexts := by
    rw [← Forest.dropBlanks_prependText_nil, Forest.dropBlanks_indented bare full indent 0 (by decide) (by decide)]
  have wellFormed : shown.WellFormed :=
    Forest.wellFormed_indented ((Forest.wellFormed_number f 1).2 hw) indent 0 (by simp [XmlText])
  have read := readForest_render wellFormed (Forest.bare_indented bare indent 0 (by decide)) admits
  exact ⟨by rw [written, parse, read, kept, ok_map, joined], xml_joined _⟩

theorem parse_prettyXml_mixed :
    let text := "<!--h--><a k=' '><?p?><b>x <d/> y</b><e><f><![CDATA[ ]]></f><!-- --></e></a>"
    let d : Document := ofForest (.leaf () .comment "h" (.element () "a" [("k", " ")]
      (.element () "b" [] (.leaf () .text "x " (.element () "d" [] .nil (.leaf () .text " y" .nil)))
        (.element () "e" [] (.element () "f" [] (.leaf () .cdata " " .nil) (.leaf () .comment " " .nil)) .nil)) .nil))
    parse text = .ok d ∧
      d.prettyXml 2 = "<!--h-->\n<a k=\" \">\n  <b>x <d/> y</b>\n  <e>\n    <f><![CDATA[ ]]></f>\n    <!-- -->\n  </e>\n</a>\n" ∧
      parse (d.prettyXml 2) = .ok d.joined ∧ parse (d.prettyXml 0) = .ok d.joined ∧ d.joined.xml = d.xml := by
  intro text d
  have read : parse text = .ok d := by decide +kernel
  exact ⟨read, by decide +kernel, (parse_prettyXml read 2).1, (parse_prettyXml read 0).1, (parse_prettyXml read 2).2⟩

end Document

end XmlStore.Xml
