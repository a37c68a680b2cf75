/-
Texts as lists of characters.

Positions inside a text are counted in bytes of UTF-8. A character property of the Unicode standard is a list of closed ranges of
code points in ascending order, and `Ranges.contains` stops at the first range above the one that it looks for. `isBlank` is the
White_Space property; `trim` takes blanks off both ends of a text and keeps those inside.
-/

namespace XmlStore.Text

def byteSize : List Char → Nat
  | [] => 0
  | c :: rest => c.utf8Size + byteSize rest

theorem byteSize_append (s t : List Char) : byteSize (s ++ t) = byteSize s + byteSize t := by
  induction s with
  | nil => simp [byteSize]
  | cons c rest ih => simp only [List.cons_append, byteSize, ih]; omega

/-- closed ranges of code points, in ascending order and apart from each other -/
abbrev Ranges := List (Nat × Nat)

/-- whether a code point lies in one of the ranges -/
def Ranges.contains : Ranges → Nat → Bool
  | [], _ => false
  | (first, last) :: rest, n => if n < first then false else if n ≤ last then true else Ranges.contains rest n

/-- the White_Space property -/
def blankRanges : Ranges :=
  [ (0x9, 0xD), (0x20, 0x20), (0x85, 0x85), (0xA0, 0xA0), (0x1680, 0x1680), (0x2000, 0x200A), (0x2028, 0x2029),
    (0x202F, 0x202F), (0x205F, 0x205F), (0x3000, 0x3000) ]

def isBlank (c : Char) : Bool :=
  blankRanges.contains c.toNat

def trimStart (s : List Char) : List Char :=
  s.dropWhile isBlank

def trimEnd (s : List Char) : List Char :=
  (s.reverse.dropWhile isBlank).reverse

def trim (s : List Char) : List Char :=
  trimEnd (trimStart s)

end XmlStore.Text
