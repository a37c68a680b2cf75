/-
Written content, read again.

The reader goes through the written form of a forest as through the forest itself: `moves_render` says that it takes in node
after node, where text is kept back until it ends (`Forest.absorb`). So what it comes to is the forest with its texts joined and
blank ones dropped.

Main statements:
- `run_render`: the written form of a well-formed forest is read as the forest with texts joined and blanks dropped.
- `readForest_render`: so it is as a document, if exactly one element and no text is outermost.
-/
import XmlStore.Proofs.Xml.Accepted
import XmlStore.Proofs.Xml.Markup

namespace XmlStore.Xml

open Text

/-- between tags, after the given siblings and text -/
def Spot.between (around : List OpenElement) (s : Stretch) : Spot :=
  ⟨.text (escapeText s.pending).reverse, around.map OpenElement.name, ⟨s.here, around⟩⟩

namespace Forest

theorem xmlText_absorb {f : Forest Unit} (hw : f.WellFormed) {s : Stretch} (hp : XmlText s.pending) :
    XmlText (f.absorb s).pending := by
  induction f generalizing s with
  | nil => exact hp
  | leaf mark kind value next ih =>
    cases kind with
    | text =>
      refine ih hw.2 ?_
      intro c hc
      rcases List.mem_append.1 hc with hc | hc
      · exact hp c hc
      · exact hw.1 c hc
    | cdata => rw [absorb]; exact ih hw.2 (by simp [XmlText]); all_goals simp
    | comment => rw [absorb]; exact ih hw.2 (by simp [XmlText]); all_goals simp
  | element mark name attributes children next _ ihn => exact ihn hw.2.2.2 (by simp [XmlText])

theorem blank_absorb {f : Forest Unit} (hb : f.Bare) {s : Stretch} (hp : s.pending.all isBlank = true) :
    (f.absorb s).pending.all isBlank = true := by
  induction f generalizing s with
  | nil => exact hp
  | leaf mark kind value next ih =>
    cases kind with
    | text => exact ih hb.2 (by rw [List.all_append, hp, hb.1]; rfl)
    | cdata => exact absurd hb id
    | comment => rw [absorb]; exact ih hb rfl; all_goals simp
  | element mark name attributes children next _ ihn => exact ihn hb rfl

end Forest

variable {shape : Shape} {around : List OpenElement} {s : Stretch}

/-- the bracket of a tag, a section or a comment ends the text before it -/
theorem moves_between_open (hp : XmlText s.pending) (ht : TextAllowed shape around ∨ s.pending.all isBlank = true) :
    Moves shape ['<'] (.between around s) ⟨.opened, around.map OpenElement.name, ⟨s.close, around⟩⟩ :=
  moves_open (a := ⟨s.here, around⟩) hp ht

theorem moves_between_text (value : String) :
    Moves shape (escapeText value.toList) (.between around s) (.between around ⟨s.here, s.pending ++ value.toList⟩) := by
  rw [Spot.between, Spot.between, escapeText_append, List.reverse_append]
  exact moves_text (fun c hc => (mem_escapeText hc).1) _

/-- an element whose content has been taken in, from after the bracket of its start tag to its end -/
theorem moves_element {name : String} {attributes : Attributes} (hn : isName name = true) (ha : attributes.WellFormed)
    {here : Forest Unit} {content : List Char} (hs : XmlText s.pending)
    (inner : Moves shape content (.between (⟨name, attributes, here⟩ :: around) ⟨.nil, []⟩)
      (.between (⟨name, attributes, here⟩ :: around) s)) :
    Moves shape (name.toList ++ TagReader.written attributes ++ ['>'] ++ content ++ '<' :: ('/' :: name.toList ++ ['>']))
      ⟨.opened, around.map OpenElement.name, ⟨here, around⟩⟩
      (.between around ⟨here.append (.element () name attributes s.close .nil), []⟩) := by
  have inside : TextAllowed shape (⟨name, attributes, here⟩ :: around) := fun h => absurd h (List.cons_ne_nil _ _)
  have ends : Moves shape ['<'] (.between (⟨name, attributes, here⟩ :: around) s)
      ⟨.opened, name :: around.map OpenElement.name, ⟨s.close, ⟨name, attributes, here⟩ :: around⟩⟩ :=
    moves_between_open hs (Or.inl inside)
  exact ((moves_startTag hn ha).trans inner).trans (ends.cons (moves_endTag hn))

/-- **The reader takes in a written forest** node by node. -/
theorem moves_render {f : Forest Unit} (hw : f.WellFormed) (around : List OpenElement) {s : Stretch}
    (hp : XmlText s.pending) (ht : TextAllowed shape around ∨ (f.Bare ∧ s.pending.all isBlank = true)) :
    Moves shape f.render (.between around s) (.between around (f.absorb s)) := by
  induction f generalizing around s with
  | nil => exact Moves.refl
  | leaf mark kind value next ih =>
    have opens := moves_between_open hp (ht.imp_right And.right)
    cases kind with
    | text =>
      refine (moves_between_text value).trans (ih hw.2 around ?_ ?_)
      · intro c hc
        rcases List.mem_append.1 hc with hc | hc
        · exact hp c hc
        · exact hw.1 c hc
      · refine ht.imp_right fun h => ⟨h.1.2, ?_⟩
        rw [List.all_append, h.2, h.1.1]; rfl
    | cdata =>
      have inside : TextAllowed shape around := ht.resolve_right fun h => h.1
      have fed : Assembly.feed shape ⟨s.close, around⟩ (.cdata value.toList) =
          .ok ⟨s.close.append (.leaf () .cdata value .nil), around⟩ := by
        simp [Assembly.feed, checkInside_of_allowed (a := ⟨s.close, around⟩) inside, checkChars_eq_ok.2 hw.1.1, Assembly.add]
      have rest := ih hw.2 around (s := ⟨s.close.append (.leaf () .cdata value .nil), []⟩) (by simp [XmlText]) (Or.inl inside)
      rw [Forest.absorb]
      · exact (opens.cons (moves_cdata hw.1.2 fed)).trans rest
      all_goals simp
    | comment =>
      have fed : Assembly.feed shape ⟨s.close, around⟩ (.comment value.toList) =
          .ok ⟨s.close.append (.leaf () .comment value .nil), around⟩ := by
        simp [Assembly.feed, checkChars_eq_ok.2 hw.1.1, Assembly.add]
      have rest := ih hw.2 around (s := ⟨s.close.append (.leaf () .comment value .nil), []⟩) (by simp [XmlText])
        (ht.imp_right fun h => ⟨h.1, rfl⟩)
      rw [Forest.absorb]
      · exact (opens.cons (moves_comment hw.1.2 fed)).trans rest
      all_goals simp
  | element mark name attributes children next ihc ihn =>
    obtain ⟨hn, ha, hc, hnext⟩ := hw
    have opens := moves_between_open hp (ht.imp_right And.right)
    have rest := ihn hnext around
      (s := ⟨s.close.append (.element () name attributes (children.absorb ⟨.nil, []⟩).close .nil), []⟩) (by simp [XmlText])
      (ht.imp_right fun h => ⟨h.1, rfl⟩)
    have written : (Forest.element mark name attributes children next).render =
        '<' :: (name.toList ++ TagReader.written attributes) ++
          (if children.isEmpty then ['/', '>'] else '>' :: children.render ++ renderEndTag name) ++ next.render := rfl
    rw [written]
    by_cases he : children.isEmpty = true
    · have empty : children = .nil := by cases children <;> simp [Forest.isEmpty] at he ⊢
      subst empty
      rw [if_pos he, List.cons_append]
      exact (opens.cons (moves_emptyTag hn ha)).trans rest
    · rw [if_neg he]
      have inside : TextAllowed shape (⟨name, attributes, s.close⟩ :: around) := fun h => absurd h (List.cons_ne_nil _ _)
      have inner := ihc hc (⟨name, attributes, s.close⟩ :: around) (s := ⟨.nil, []⟩) (by simp [XmlText]) (Or.inl inside)
      have element := moves_element hn ha (Forest.xmlText_absorb hc (by simp [XmlText])) inner
      have parts : '<' :: (name.toList ++ TagReader.written attributes) ++ ('>' :: children.render ++ renderEndTag name) =
          '<' :: (name.toList ++ TagReader.written attributes ++ ['>'] ++ children.render ++
            '<' :: ('/' :: name.toList ++ ['>'])) := by
        simp [renderEndTag]
      rw [parts]
      exact (opens.cons element).trans rest

/-- **Written content is read** as the content with its texts joined and blank ones dropped. -/
theorem run_render {f : Forest Unit} (hw : f.WellFormed) (ht : shape = .fragment ∨ f.Bare) :
    Reader.run shape f.render = .ok f.joinTexts.dropBlanks := by
  have allowed : TextAllowed shape [] ∨ (f.Bare ∧ ([] : List Char).all isBlank = true) :=
    ht.imp (fun h _ => h) fun h => ⟨h, rfl⟩
  obtain ⟨r, hr, hspot⟩ := moves_render (s := ⟨.nil, []⟩) hw [] (by simp [XmlText]) allowed .initial rfl
  simp only [Reader.spot, Spot.between, Spot.mk.injEq] at hspot
  obtain ⟨hscan, -, ha⟩ := hspot
  have last : r.assembly.addText shape (escapeText (f.absorb ⟨.nil, []⟩).pending) =
      .ok ⟨(f.absorb ⟨.nil, []⟩).close, []⟩ := by
    rw [ha]
    exact addText_escaped (Forest.xmlText_absorb hw (by simp [XmlText]))
      (allowed.imp_right fun h => Forest.blank_absorb h.1 h.2)
  have result : (f.absorb ⟨.nil, []⟩).close = f.joinTexts.dropBlanks := by
    rw [Forest.close_absorb, String.ofList_nil, Forest.dropBlanks_prependText_nil]; rfl
  rw [result] at last
  simp [Reader.run, hr, Reader.finish, Scanner.finish, hscan, Assembly.feed, last, Assembly.finish]

theorem dropMark_eq_self {s : List Char} (h : s.head? ≠ some '\uFEFF') : dropMark s = s := by
  unfold dropMark
  split
  · exact absurd rfl h
  · rfl

theorem head?_escapeTextChar {c : Char} (h : c ≠ '\uFEFF') (rest : List Char) :
    (escapeTextChar c ++ rest).head? ≠ some '\uFEFF' := by
  unfold escapeTextChar
  split <;> simp [h]

/-- the written form of content without text outermost does not begin with a byte order mark -/
theorem dropMark_render {f : Forest Unit} (hb : f.Bare) : dropMark f.render = f.render := by
  have first : f.render.head? ≠ some '\uFEFF' := by
    induction f with
    | nil => simp [Forest.render]
    | leaf mark kind value next ih =>
      cases kind with
      | text =>
        rw [Forest.render, LeafKind.render]
        cases hv : value.toList with
        | nil => exact ih hb.2
        | cons c rest =>
          have blank : isBlank c = true := by
            have all := hb.1
            rw [hv, List.all_cons, Bool.and_eq_true] at all
            exact all.1
          have plain : c ≠ '\uFEFF' := by rintro rfl; exact absurd blank (by decide)
          rw [escapeText_cons, List.append_assoc]
          exact head?_escapeTextChar plain _
      | cdata => exact absurd hb id
      | comment => simp [Forest.render, LeafKind.render]
    | element mark name attributes children next => simp [Forest.render, renderTag]
  exact dropMark_eq_self first

/-- **Written content is read**, as a document or a fragment, if the elements that the shape asks for and no text are outermost. -/
theorem readForest_render {f : Forest Unit} (hw : f.WellFormed) (hb : f.Bare) (hs : shape.Admits f.elements.length) :
    readForest shape f.xml = .ok f.joinTexts.dropBlanks := by
  have admits : checkShape f.joinTexts.dropBlanks shape = .ok () := by
    rwa [checkShape_eq_ok, Forest.length_elements_dropBlanks, Forest.length_elements_joinTexts]
  rw [readForest, Forest.xml, String.toList_ofList, dropMark_render hb, run_render hw (Or.inr hb)]
  simp [admits]

end XmlStore.Xml
