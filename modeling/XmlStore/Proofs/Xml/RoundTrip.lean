/-
Documents written and read again.

What is read is well formed, and what is well formed can be written and read; between the two only the texts that stand side by
side are joined, which the written form does not show.

Main statement:
- `parse_xml_of_parse`: the text of every document that was read is read as that document with adjacent texts joined.
-/
import XmlStore.Proofs.Xml.Rereading
import XmlStore.Xml.Document

namespace XmlStore.Xml

namespace Document

/-- the document with every maximal run of adjacent texts made one text, numbered anew -/
def joined (d : Document) : Document :=
  ofForest d.attached.erase.joinTexts

/-- numbering does not change the text of a document -/
theorem xml_ofForest (f : Forest Unit) : (ofForest f).xml = f.xml := by
  rw [xml, ofForest, Forest.xml, Forest.xml, ← Forest.render_erase, Forest.erase_number]

/-- joining texts does not change the text of a document -/
theorem xml_joined (d : Document) : d.joined.xml = d.xml := by
  rw [joined, xml_ofForest, xml, Forest.xml, Forest.xml, Forest.render_joinTexts, Forest.render_erase]

/-- **Documents survive being written.** The text of a document that was read is read again, as the same document with adjacent
texts joined; that has the same text, so writing and reading again changes nothing more. -/
theorem parse_xml_of_parse {text : String} {d : Document} (h : parse text = .ok d) :
    parse d.xml = .ok d.joined ∧ d.joined.xml = d.xml := by
  obtain ⟨f, hf, rfl⟩ := map_eq_ok.1 h
  obtain ⟨hw, hb, hbare, hs⟩ := readForest_sound hf
  have written : (ofForest f).xml = f.xml := by
    simp only [xml, ofForest, Forest.xml, ← Forest.render_erase (f.number 1), Forest.erase_number]
  have reread : readForest .document f.xml = .ok f.joinTexts := by
    rw [readForest_render hw (hbare rfl) hs, Forest.dropBlanks_of_noBlanks (Forest.noBlanks_joinTexts hb)]
  refine ⟨?_, xml_joined _⟩
  rw [written, parse, reread, ok_map, joined]
  simp only [ofForest, Forest.erase_number]

theorem parse_xml_split_text :
    let d : Document :=
      ofForest (.element () "a" [("k", "<\t")]
        (.leaf () .text "x" (.leaf () .text "&" (.leaf () .cdata "]" (.leaf () .comment "c" .nil)))) .nil)
    parse "\uFEFF<a k='&lt;&#9;'>x<?p?>&amp;<![CDATA[]]]><!--c--> </a>" = .ok d ∧
      parse d.xml = .ok d.joined ∧ d.joined.xml = d.xml ∧
      d.xml = "<a k=\"&lt;&#9;\">x&amp;<![CDATA[]]]><!--c--></a>" := by
  have read : parse "\uFEFF<a k='&lt;&#9;'>x<?p?>&amp;<![CDATA[]]]><!--c--> </a>" =
      .ok (ofForest (.element () "a" [("k", "<\t")]
        (.leaf () .text "x" (.leaf () .text "&" (.leaf () .cdata "]" (.leaf () .comment "c" .nil)))) .nil)) := by
    decide +kernel
  obtain ⟨again, same⟩ := parse_xml_of_parse read
  exact ⟨read, again, same, by decide +kernel⟩

end Document

end XmlStore.Xml
