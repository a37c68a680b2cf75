/-
JSON values.

A number is kept as it is written and an object as the list of its members, since not every reader agrees on what a number too
large or a repeated member means. A string whose escapes name half of a surrogate pair is well formed but stands for no text,
and an object that has one for the name of a member stands for no object.
-/

namespace XmlStore

inductive Json where
  | null
  | bool (value : Bool)
  | number (literal : String)
  | string (value : String)
  /-- a string that stands for no text, or an object with such a name in it -/
  | unpaired
  | array (items : List Json)
  | object (members : List (String × Json))
  deriving Repr, Inhabited

namespace Json

def ofNat (n : Nat) : Json :=
  .number n.repr

def string? : Json → Option String
  | .string value => some value
  | _ => none

/-- the unsigned number of at most 64 bits that a value is, written with digits alone -/
def word? : Json → Option UInt64
  | .number literal =>
    if literal.toList.all Char.isDigit then
      let n := Nat.ofDigitChars 10 literal.toList 0
      if n < UInt64.size then some (.ofNat n) else none
    else none
  | _ => none

/-- the one member of an object that has a name -/
def member? (members : List (String × Json)) (name : String) : Option Json :=
  match members.filter (·.1 = name) with
  | [(_, value)] => some value
  | _ => none

end Json

end XmlStore
