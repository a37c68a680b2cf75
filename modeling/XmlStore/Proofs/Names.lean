/-
What the characters of a name are not.

No character of a name is white space, and none has a meaning of its own in XML markup or in a locator. So a name ends where it
is followed by any of those.
-/
import XmlStore.Name
import XmlStore.Text.Basic
import XmlStore.Xml.Tag

namespace XmlStore

open Text Xml

theorem isNameChar_of_isNameStart {c : Char} (h : isNameStart c = true) : isNameChar c = true := by
  simp [isNameChar, h]

/-- the characters of a name, with its first one taken like the others -/
theorem isNameChar_of_mem {name : String} (h : isName name = true) {c : Char} (hc : c ∈ name.toList) :
    isNameChar c = true := by
  unfold isName isNameText at h
  split at h
  · exact absurd h (by decide)
  · rename_i first rest e
    simp only [Bool.and_eq_true, List.all_eq_true] at h
    rw [e] at hc
    rcases List.mem_cons.1 hc with rfl | hc
    · exact isNameChar_of_isNameStart h.1
    · exact h.2 c hc

theorem isName_cons {name : String} (h : isName name = true) :
    ∃ c rest, name.toList = c :: rest ∧ isNameStart c = true ∧ ∀ d ∈ rest, isNameChar d = true := by
  unfold isName isNameText at h
  split at h
  · exact absurd h (by decide)
  · rename_i c rest e
    simp only [Bool.and_eq_true, List.all_eq_true] at h
    exact ⟨c, rest, e, h.1, h.2⟩

/-! ## Markers -/

/-- the characters of ASCII that mark something in XML or in a locator -/
def markers : List Char :=
  ['<', '>', '/', '"', '\'', '=', '&', ';', '!', '?', '[', ']', '@', '*', '+', ' ', '\t', '\n', '\r']

theorem isNameChar_marker (c : Char) (hc : c ∈ markers) : isNameChar c = false := by
  have all : markers.all (!isNameChar ·) = true := by decide
  simpa using List.all_eq_true.1 all c hc

theorem isNameChar_ne {c d : Char} (h : isNameChar c = true) (hd : d ∈ markers) : c ≠ d := by
  rintro rfl
  rw [isNameChar_marker c hd] at h
  exact absurd h (by decide)

theorem isMarkupBlank_of_isNameChar {c : Char} (h : isNameChar c = true) : isMarkupBlank c = false := by
  simp [isMarkupBlank, isNameChar_ne h (d := ' ') (by decide), isNameChar_ne h (d := '\t') (by decide),
    isNameChar_ne h (d := '\r') (by decide), isNameChar_ne h (d := '\n') (by decide)]

/-! ## White space -/

/-- the code points of white space -/
def blankCodes : List Nat :=
  [0x9, 0xA, 0xB, 0xC, 0xD, 0x20, 0x85, 0xA0, 0x1680, 0x2000, 0x2001, 0x2002, 0x2003, 0x2004, 0x2005, 0x2006, 0x2007, 0x2008,
    0x2009, 0x200A, 0x2028, 0x2029, 0x202F, 0x205F, 0x3000]

theorem mem_blankCodes {c : Char} (h : isBlank c = true) : c.toNat ∈ blankCodes := by
  simp only [isBlank, blankRanges, Ranges.contains, Bool.if_false_left, Bool.if_true_left, Bool.if_false_right,
    Bool.and_eq_true, Bool.or_eq_true, Bool.not_eq_true', decide_eq_true_eq, decide_eq_false_iff_not] at h
  simp only [blankCodes, List.mem_cons, List.not_mem_nil, or_false]
  omega

theorem isBlank_of_isDigit {c : Char} (h : c.isDigit = true) : isBlank c = false := by
  cases hb : isBlank c
  · rfl
  · have code := mem_blankCodes hb
    simp only [blankCodes, List.mem_cons, List.not_mem_nil, or_false] at code
    simp only [Char.isDigit, Bool.and_eq_true, decide_eq_true_eq, ge_iff_le, UInt32.le_iff_toNat_le] at h
    change 48 ≤ c.toNat ∧ c.toNat ≤ 57 at h
    omega

theorem isNameChar_blank : ∀ n ∈ blankCodes, isNameChar (Char.ofNat n) = false := by
  decide +kernel

theorem isBlank_of_isNameChar {c : Char} (h : isNameChar c = true) : isBlank c = false := by
  cases hb : isBlank c
  · rfl
  · have := isNameChar_blank c.toNat (mem_blankCodes hb)
    rw [Char.ofNat_toNat, h] at this
    exact absurd this (by decide)

end XmlStore
