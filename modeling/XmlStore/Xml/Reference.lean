/-
Character and entity references in XML text.

`resolve` replaces every reference by the character that it names. A reference runs from an ampersand to the next semicolon
and holds no other ampersand; it names one of the five entities, or a code point in decimal or in hexadecimal digits.
-/
import XmlStore.Text.Basic
import XmlStore.Text.Digits

namespace XmlStore.Xml

open Text

/-- what is wrong with the number of a character reference -/
inductive CodePointFault where
  | sign
  | number (fault : NumberFault)
  | zero
  /-- a number that is no code point of a character -/
  | noCharacter (code : Nat)
  deriving DecidableEq, Repr

/-- what is wrong with a reference, and where in the text it stands -/
inductive ReferenceFault where
  /-- no semicolon before the next ampersand or the end -/
  | unterminated (start stop : Nat)
  | unknownEntity (start stop : Nat) (name : String)
  | badCodePoint (fault : CodePointFault)
  deriving DecidableEq, Repr

def CodePointFault.message : CodePointFault → String
  | .sign => "unexpected number sign"
  | .number fault => fault.message
  | .zero => "0x0 character is not permitted in XML"
  | .noCharacter code => s!"`{code}` is not a valid codepoint"

def ReferenceFault.message : ReferenceFault → String
  | .unterminated start stop =>
    s!"Error while escaping character at range {start}..{stop}: Cannot find ';' after '&'"
  | .unknownEntity start stop name => s!"at {start}..{stop}: unrecognized entity `{name}`"
  | .badCodePoint fault => "invalid character reference: " ++ fault.message

/-- the five entities that need no declaration -/
def entity? (name : List Char) : Option Char :=
  match name with
  | ['l', 't'] => some '<'
  | ['g', 't'] => some '>'
  | ['a', 'm', 'p'] => some '&'
  | ['a', 'p', 'o', 's'] => some '\''
  | ['q', 'u', 'o', 't'] => some '"'
  | _ => none

/-- the largest number that the digits of a reference may give -/
def maxReference : Nat := 0xFFFFFFFF

def character (code : Nat) : Except CodePointFault Char :=
  if code = 0 then .error .zero
  else if h : code.isValidChar then .ok (Char.ofNatAux code h)
  else .error (.noCharacter code)

/-- the character that digits after `#` name: hexadecimal after an `x`, else decimal -/
def characterReference (s : List Char) : Except CodePointFault Char :=
  let (base, digits) := match s with
    | 'x' :: rest => (16, rest)
    | _ => (10, s)
  match digits with
  | '+' :: _ => .error .sign
  | '-' :: _ => .error .sign
  | _ => match readDigits base maxReference digits with
    | .error fault => .error (.number fault)
    | .ok code => character code

/-- the character that the text between an ampersand and a semicolon names -/
def reference (start stop : Nat) (name : List Char) : Except ReferenceFault Char :=
  match name with
  | '#' :: digits => (characterReference digits).mapError .badCodePoint
  | _ => match entity? name with
    | some c => .ok c
    | none => .error (.unknownEntity start stop (String.ofList name))

/-- how far the references of a text have been replaced; texts are kept with the last character first -/
structure Resolution where
  /-- bytes read -/
  position : Nat
  resolved : List Char
  /-- a reference under way: where its ampersand stands, and what follows that -/
  pending : Option (Nat × List Char)
  deriving DecidableEq, Repr

/-- reads one more character of a text of `size` bytes -/
def Resolution.step (size : Nat) (r : Resolution) (c : Char) : Except ReferenceFault Resolution :=
  let next := r.position + c.utf8Size
  match r.pending with
  | none =>
    if c = '&' then .ok ⟨next, r.resolved, some (r.position, [])⟩
    else .ok ⟨next, c :: r.resolved, none⟩
  | some (start, name) =>
    if c = ';' then (reference (start + 1) r.position name.reverse).map fun found => ⟨next, found :: r.resolved, none⟩
    else if c = '&' then .error (.unterminated start size)
    else .ok ⟨next, r.resolved, some (start, c :: name)⟩

/-- the text at its end, where no reference may be under way -/
def Resolution.finish (size : Nat) (r : Resolution) : Except ReferenceFault (List Char) :=
  match r.pending with
  | none => .ok r.resolved.reverse
  | some (start, _) => .error (.unterminated start size)

/-- the text with every reference replaced by its character -/
def resolve (s : List Char) : Except ReferenceFault (List Char) :=
  (s.foldlM (Resolution.step (byteSize s)) ⟨0, [], none⟩).bind (Resolution.finish (byteSize s))

end XmlStore.Xml
