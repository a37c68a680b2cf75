/-
What content may hold, and what becomes of it when it is written and read again.

A forest is well formed when its names are names, its attributes are distinct, all its characters are those of XML, and no CDATA
section or comment holds the mark that ends it. Written text does not show where one text ends and the next begins, and blank
text is not read; so what comes back is the forest with adjacent texts joined (`Forest.joinTexts`) and blank ones left out
(`Forest.dropBlanks`).

Main statements:
- `Forest.render_joinTexts`: joining texts does not change what is written.
- `Forest.close_absorb`: taking in nodes one after the other, with text kept back until it ends, joins texts and drops blanks.
-/
import XmlStore.Name
import XmlStore.Proofs.Xml.Forest
import XmlStore.Text.Basic
import XmlStore.Xml.Printer
import XmlStore.Xml.Tag

namespace XmlStore.Xml

open Text

variable {ι : Type}

/-! ## Well-formed content -/

/-- all characters are those of XML -/
def XmlText (s : List Char) : Prop := ∀ c ∈ s, isXmlChar c = true

/-- a value that does not hold what ends a section: the mark twice and a closing bracket -/
def Unbroken (mark : Char) (value : List Char) : Prop := ¬ [mark, mark, '>'] <:+: value

/-- what the value of a leaf may be -/
def LeafKind.WellFormed (value : String) : LeafKind → Prop
  | .text => XmlText value.toList
  | .cdata => XmlText value.toList ∧ Unbroken ']' value.toList
  | .comment => XmlText value.toList ∧ Unbroken '-' value.toList

/-- what the attributes of an element may be -/
structure Attributes.WellFormed (attributes : Attributes) : Prop where
  distinct : (attributes.map Prod.fst).Nodup
  names : ∀ a ∈ attributes, isName a.1 = true
  values : ∀ a ∈ attributes, XmlText a.2.toList

namespace Forest

/-- what content may be -/
def WellFormed : Forest ι → Prop
  | .nil => True
  | .leaf _ kind value next => kind.WellFormed value ∧ next.WellFormed
  | .element _ name attributes children next =>
    isName name = true ∧ attributes.WellFormed ∧ children.WellFormed ∧ next.WellFormed

/-- no text among the siblings but blanks, and no CDATA, as is asked for outside the root of a document -/
def Bare : Forest ι → Prop
  | .nil => True
  | .leaf _ .text value next => value.toList.all isBlank = true ∧ next.Bare
  | .leaf _ .cdata _ _ => False
  | .leaf _ .comment _ next => next.Bare
  | .element _ _ _ _ next => next.Bare

/-- no text anywhere that is only blanks -/
def NoBlanks : Forest ι → Prop
  | .nil => True
  | .leaf _ kind value next => (kind = .text → value.toList.all isBlank = false) ∧ next.NoBlanks
  | .element _ _ _ children next => children.NoBlanks ∧ next.NoBlanks

/-! ## Joining texts -/

/-- the forest with text in front, as a part of its first node if that is a text too -/
def prependText (mark : ι) (value : String) : Forest ι → Forest ι
  | .leaf _ .text more next => .leaf mark .text (value ++ more) next
  | f => .leaf mark .text value f

/-- the forest with every maximal run of adjacent texts made one text -/
def joinTexts : Forest ι → Forest ι
  | .nil => .nil
  | .leaf mark .text value next => next.joinTexts.prependText mark value
  | .leaf mark kind value next => .leaf mark kind value next.joinTexts
  | .element mark name attributes children next => .element mark name attributes children.joinTexts next.joinTexts

/-- the forest without the texts that are only blanks -/
def dropBlanks : Forest ι → Forest ι
  | .nil => .nil
  | .leaf mark kind value next =>
    if kind = .text ∧ value.toList.all isBlank then next.dropBlanks else .leaf mark kind value next.dropBlanks
  | .element mark name attributes children next => .element mark name attributes children.dropBlanks next.dropBlanks

def startsWithText : Forest ι → Bool
  | .leaf _ .text _ _ => true
  | _ => false

theorem prependText_of_not_text {f : Forest ι} (h : f.startsWithText = false) (mark : ι) (value : String) :
    f.prependText mark value = .leaf mark .text value f := by
  cases f with
  | nil => rfl
  | leaf i kind old next => cases kind <;> first | rfl | simp [startsWithText] at h
  | element => rfl

theorem prependText_cases (f : Forest ι) (mark : ι) (value : String) :
    (∃ i more next, f = .leaf i .text more next ∧ f.prependText mark value = .leaf mark .text (value ++ more) next) ∨
      (f.startsWithText = false ∧ f.prependText mark value = .leaf mark .text value f) := by
  cases hs : f.startsWithText
  · exact Or.inr ⟨rfl, prependText_of_not_text hs mark value⟩
  · cases f with
    | nil => simp [startsWithText] at hs
    | leaf i kind more next =>
      cases kind with
      | text => exact Or.inl ⟨i, more, next, rfl, rfl⟩
      | cdata => simp [startsWithText] at hs
      | comment => simp [startsWithText] at hs
    | element => simp [startsWithText] at hs

theorem render_prependText (f : Forest ι) (mark : ι) (value : String) :
    (f.prependText mark value).render = escapeText value.toList ++ f.render := by
  rcases prependText_cases f mark value with ⟨i, more, next, rfl, e⟩ | ⟨_, e⟩
  · rw [e]; simp [render, LeafKind.render, escapeText_append]
  · rw [e]; simp [render, LeafKind.render]

theorem isEmpty_joinTexts (f : Forest ι) : f.joinTexts.isEmpty = f.isEmpty := by
  cases f with
  | nil => rfl
  | leaf mark kind value next =>
    cases kind with
    | text =>
      rcases prependText_cases next.joinTexts mark value with ⟨i, more, rest, _, e⟩ | ⟨_, e⟩ <;>
        simp only [joinTexts, e, isEmpty]
    | cdata => rfl
    | comment => rfl
  | element => rfl

theorem render_joinTexts (f : Forest ι) : f.joinTexts.render = f.render := by
  induction f with
  | nil => rfl
  | leaf mark kind value next ih =>
    cases kind with
    | text => rw [joinTexts, render_prependText, ih]; rfl
    | cdata => simp only [joinTexts, render, ih]
    | comment => simp only [joinTexts, render, ih]
  | element mark name attributes children next ihc ihn =>
    simp only [joinTexts, render, ihc, ihn, isEmpty_joinTexts]

theorem dropBlanks_of_noBlanks {f : Forest ι} (h : f.NoBlanks) : f.dropBlanks = f := by
  induction f with
  | nil => rfl
  | leaf mark kind value next ih =>
    rw [dropBlanks, ih h.2, if_neg]
    rintro ⟨hk, hv⟩
    rw [h.1 hk] at hv
    exact absurd hv (by decide)
  | element mark name attributes children next ihc ihn => rw [dropBlanks, ihc h.1, ihn h.2]

theorem noBlanks_prependText {f : Forest ι} {mark : ι} {value : String} (hv : value.toList.all isBlank = false)
    (h : f.NoBlanks) : (f.prependText mark value).NoBlanks := by
  rcases prependText_cases f mark value with ⟨i, more, next, rfl, e⟩ | ⟨_, e⟩
  · rw [e]
    refine ⟨?_, h.2⟩
    intro _
    rw [String.toList_append, List.all_append, hv, Bool.false_and]
  · rw [e]; exact ⟨fun _ => hv, h⟩

theorem noBlanks_joinTexts {f : Forest ι} (h : f.NoBlanks) : f.joinTexts.NoBlanks := by
  induction f with
  | nil => trivial
  | leaf mark kind value next ih =>
    cases kind with
    | text => exact noBlanks_prependText (h.1 rfl) (ih h.2)
    | cdata => exact ⟨h.1, ih h.2⟩
    | comment => exact ⟨h.1, ih h.2⟩
  | element mark name attributes children next ihc ihn => exact ⟨ihc h.1, ihn h.2⟩

theorem elements_prependText (f : Forest ι) (mark : ι) (value : String) :
    (f.prependText mark value).elements = f.elements := by
  rcases prependText_cases f mark value with ⟨i, more, next, rfl, e⟩ | ⟨_, e⟩ <;> rw [e] <;> rfl

theorem length_elements_joinTexts (f : Forest ι) : f.joinTexts.elements.length = f.elements.length := by
  induction f with
  | nil => rfl
  | leaf mark kind value next ih =>
    cases kind with
    | text => rw [joinTexts, elements_prependText, ih, elements_leaf]
    | cdata => exact ih
    | comment => exact ih
  | element mark name attributes children next _ ihn => simp [joinTexts, ihn]

theorem length_elements_dropBlanks (f : Forest ι) : f.dropBlanks.elements.length = f.elements.length := by
  induction f with
  | nil => rfl
  | leaf mark kind value next ih =>
    rw [dropBlanks, elements_leaf]
    split
    · exact ih
    · exact ih
  | element mark name attributes children next _ ihn => simp [dropBlanks, ihn]

/-! ## Marks do not matter -/

theorem render_erase (f : Forest ι) : f.erase.render = f.render := by
  have empty : ∀ g : Forest ι, g.erase.isEmpty = g.isEmpty := fun g => by cases g <;> rfl
  induction f with
  | nil => rfl
  | leaf mark kind value next ih => simp only [erase, render, ih]
  | element mark name attributes children next ihc ihn => simp only [erase, render, ihc, ihn, empty]

end Forest

/-! ## Taking in nodes one after the other -/

/-- siblings finished so far, and the text after the last of them, which goes on as long as no other node comes -/
structure Stretch where
  here : Forest Unit
  pending : List Char

/-- the text that characters between tags make, which is none if they are only blanks -/
def textRun (s : List Char) : Forest Unit :=
  if s.all isBlank then .nil else .leaf () .text (String.ofList s) .nil

/-- the siblings, once the text after the last of them has ended -/
def Stretch.close (s : Stretch) : Forest Unit :=
  s.here.append (textRun s.pending)

namespace Forest

/-- takes in nodes: text goes on with the text before it, and all other nodes end that -/
def absorb : Forest Unit → Stretch → Stretch
  | .nil, s => s
  | .leaf _ .text value next, s => next.absorb ⟨s.here, s.pending ++ value.toList⟩
  | .leaf _ kind value next, s => next.absorb ⟨s.close.append (.leaf () kind value .nil), []⟩
  | .element _ name attributes children next, s =>
    next.absorb ⟨s.close.append (.element () name attributes (children.absorb ⟨.nil, []⟩).close .nil), []⟩

theorem dropBlanks_prependText_nil (f : Forest Unit) : (f.prependText () "").dropBlanks = f.dropBlanks := by
  rcases prependText_cases f () "" with ⟨i, more, next, rfl, e⟩ | ⟨_, e⟩
  · rw [e, String.empty_append]
  · rw [e]; simp [dropBlanks]

theorem prependText_prependText (f : Forest ι) (mark mark' : ι) (value value' : String) :
    (f.prependText mark' value').prependText mark value = f.prependText mark (value ++ value') := by
  rcases prependText_cases f mark' value' with ⟨i, more, next, rfl, e⟩ | ⟨hs, e⟩
  · rw [e]; simp [prependText, String.append_assoc]
  · rw [e, prependText_of_not_text hs]; rfl

theorem dropBlanks_textRun (s : List Char) (f : Forest Unit) :
    Forest.dropBlanks (.leaf () .text (String.ofList s) f) = (textRun s).append f.dropBlanks := by
  unfold textRun
  by_cases h : s.all isBlank = true
  · simp [dropBlanks, h, append]
  · simp [dropBlanks, h, append]

/-- **Taking in a forest** after some siblings and a text leaves the siblings with the joined forest after them, the text being
a part of it. -/
theorem close_absorb (f : Forest Unit) (s : Stretch) :
    (f.absorb s).close = s.here.append (f.joinTexts.prependText () (String.ofList s.pending)).dropBlanks := by
  -- a node that is no text ends the text before it and starts with none after it
  have fresh : ∀ (g h : Forest Unit) (s : Stretch),
      (s.close.append g).append (h.joinTexts.prependText () (String.ofList [])).dropBlanks =
        s.here.append ((textRun s.pending).append (g.append h.joinTexts.dropBlanks)) := by
    intro g h s
    rw [String.ofList_nil, dropBlanks_prependText_nil, Stretch.close, append_assoc, append_assoc]
  induction f generalizing s with
  | nil => rw [absorb, joinTexts, prependText_of_not_text rfl, dropBlanks_textRun, dropBlanks, append_nil, Stretch.close]
  | leaf mark kind value next ih =>
    cases kind with
    | text =>
      rw [absorb, ih, joinTexts, prependText_prependText, String.ofList_append, String.ofList_toList]
    | cdata =>
      rw [absorb, ih, fresh, joinTexts, prependText_of_not_text rfl, dropBlanks_textRun]
      · simp [dropBlanks, append]
      · simp
      · simp
    | comment =>
      rw [absorb, ih, fresh, joinTexts, prependText_of_not_text rfl, dropBlanks_textRun]
      · simp [dropBlanks, append]
      · simp
      · simp
  | element mark name attributes children next ihc ihn =>
    rw [absorb, ihn, fresh, joinTexts, prependText_of_not_text rfl, dropBlanks_textRun, ihc, String.ofList_nil,
      dropBlanks_prependText_nil]
    rfl

end Forest

end XmlStore.Xml
