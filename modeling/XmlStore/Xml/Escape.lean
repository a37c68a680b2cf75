/-
Escaping text for XML.

Text between tags escapes the two angle brackets and the ampersand. A value between double quotes escapes in addition the
double quote and the blanks that a reader of XML may turn into spaces. A text whose bytes tell that there is nothing to escape in
it is left alone.
-/

namespace XmlStore.Xml

/-- one character of text between tags -/
def escapeTextChar (c : Char) : List Char :=
  match c with
  | '&' => ['&', 'a', 'm', 'p', ';']
  | '<' => ['&', 'l', 't', ';']
  | '>' => ['&', 'g', 't', ';']
  | _ => [c]

/-- one character of a value between double quotes -/
def escapeValueChar (c : Char) : List Char :=
  match c with
  | '"' => ['&', 'q', 'u', 'o', 't', ';']
  | '\n' => ['&', '#', '1', '0', ';']
  | '\t' => ['&', '#', '9', ';']
  | '\r' => ['&', '#', '1', '3', ';']
  | _ => escapeTextChar c

/-- a byte that stands for a character escaped in text between tags -/
def isTextByte (b : UInt8) : Bool :=
  b == '&'.toUInt8 || b == '<'.toUInt8 || b == '>'.toUInt8

/-- a byte that stands for a character escaped in a value between double quotes -/
def isValueByte (b : UInt8) : Bool :=
  isTextByte b || b == '"'.toUInt8 || b == '\n'.toUInt8 || b == '\t'.toUInt8 || b == '\r'.toUInt8

def utf8Bytes (s : List Char) : List UInt8 :=
  s.flatMap String.utf8EncodeChar

/-- a text with every character escaped, or as it is if none of its bytes asks for that -/
def escapeWith (asks : UInt8 → Bool) (escape : Char → List Char) (s : List Char) : List Char :=
  if (utf8Bytes s).any asks then s.flatMap escape else s

def escapeText (s : List Char) : List Char :=
  escapeWith isTextByte escapeTextChar s

def escapeValue (s : List Char) : List Char :=
  escapeWith isValueByte escapeValueChar s

/-! ## Character by character -/

/-- a character none of whose bytes asks for escaping is left as it is -/
def Spares (asks : UInt8 → Bool) (escape : Char → List Char) : Prop :=
  ∀ c, (String.utf8EncodeChar c).any asks = false → escape c = [c]

theorem Spares.flatMap_eq {asks : UInt8 → Bool} {escape : Char → List Char} (h : Spares asks escape) {s : List Char}
    (silent : (utf8Bytes s).any asks = false) : s.flatMap escape = s := by
  induction s with
  | nil => rfl
  | cons c rest ih =>
    rw [utf8Bytes, List.flatMap_cons, List.any_append, Bool.or_eq_false_iff] at silent
    rw [List.flatMap_cons, h c silent.1, ih silent.2, List.singleton_append]

theorem Spares.escapeWith_eq {asks : UInt8 → Bool} {escape : Char → List Char} (h : Spares asks escape) (s : List Char) :
    escapeWith asks escape s = s.flatMap escape := by
  unfold escapeWith
  split
  · rfl
  · rename_i silent
    exact (h.flatMap_eq (Bool.eq_false_iff.2 silent)).symm

theorem spares_text : Spares isTextByte escapeTextChar := by
  intro c silent
  unfold escapeTextChar
  split
  · exact absurd silent (by decide)
  · exact absurd silent (by decide)
  · exact absurd silent (by decide)
  · rfl

theorem spares_value : Spares isValueByte escapeValueChar := by
  intro c silent
  unfold escapeValueChar
  split
  · exact absurd silent (by decide)
  · exact absurd silent (by decide)
  · exact absurd silent (by decide)
  · exact absurd silent (by decide)
  · refine spares_text c ?_
    rw [List.any_eq_false] at silent ⊢
    intro b hb asked
    exact silent b hb (by simp [isValueByte, asked])

theorem escapeText_eq (s : List Char) : escapeText s = s.flatMap escapeTextChar :=
  spares_text.escapeWith_eq s

theorem escapeValue_eq (s : List Char) : escapeValue s = s.flatMap escapeValueChar :=
  spares_value.escapeWith_eq s

@[simp] theorem escapeText_nil : escapeText [] = [] := rfl

theorem escapeText_cons (c : Char) (s : List Char) : escapeText (c :: s) = escapeTextChar c ++ escapeText s := by
  rw [escapeText_eq, escapeText_eq, List.flatMap_cons]

theorem escapeText_append (s t : List Char) : escapeText (s ++ t) = escapeText s ++ escapeText t := by
  simp only [escapeText_eq, List.flatMap_append]

theorem escapeValue_append (s t : List Char) : escapeValue (s ++ t) = escapeValue s ++ escapeValue t := by
  simp only [escapeValue_eq, List.flatMap_append]

end XmlStore.Xml
