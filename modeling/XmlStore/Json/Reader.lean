/-
Reading JSON, one character at a time.

The reader keeps the arrays and objects that are open, innermost first, and what it is in the middle of. Numbers are collected
as long as they may go on and checked when they end. There may be blanks around every value, and nothing after the last one.
-/
import XmlStore.Json.Basic

namespace XmlStore.Json

/-- members of an object, of which some may have a name that stands for no text -/
abbrev Members := List (Option String × Json)

/-- the object that has the given members, the last one first -/
def objectOf (members : Members) : Json :=
  match members.reverse.mapM fun (name, value) => name.map fun name => (name, value) with
  | some members => .object members
  | none => .unpaired

/-- an array or object that is open; items and members read so far stand last first -/
inductive Frame where
  | array (items : List Json)
  /-- with the name of the member whose value comes next -/
  | object (members : Members) (name : Option String)
  deriving Repr

/-- an escape in a string -/
inductive Escape where
  | none
  /-- after the backslash -/
  | slash
  /-- hexadecimal digits to come, and the value of those read -/
  | digits (left value : Nat)
  deriving DecidableEq, Repr

/-- a string under way; its text stands last character first, and is missing once half a surrogate pair was alone -/
structure Quoted where
  text : Option (List Char)
  /-- the first half of a surrogate pair that waits for the second -/
  half : Option Nat
  escape : Escape
  deriving DecidableEq, Repr

/-- what the reader is in the middle of -/
inductive Expect where
  | value
  /-- a value, or the end of an array that has none -/
  | firstItem
  /-- a member name, after the members that stand last first -/
  | name (members : Members)
  /-- a member name, or the end of an object that has none -/
  | firstName
  | colon (members : Members) (name : Option String)
  /-- after a value -/
  | next (value : Json)
  | quoted (q : Quoted)
  | quotedName (members : Members) (q : Quoted)
  /-- a number, last character first -/
  | number (literal : List Char)
  /-- the rest of a fixed word, and what it stands for -/
  | word (rest : List Char) (value : Json)
  deriving Repr

/-- a text of JSON half read -/
structure Reader where
  frames : List Frame
  expect : Expect
  deriving Repr

def isJsonBlank (c : Char) : Bool :=
  c == ' ' || c == '\n' || c == '\t' || c == '\r'

def isNumberChar (c : Char) : Bool :=
  c.isDigit || c == '-' || c == '+' || c == '.' || c == 'e' || c == 'E'

/-- whether the characters are digits, at least one -/
def isDigits (s : List Char) : Bool :=
  !s.isEmpty && s.all Char.isDigit

def isExponent (s : List Char) : Bool :=
  match s with
  | [] => true
  | e :: '+' :: digits => (e == 'e' || e == 'E') && isDigits digits
  | e :: '-' :: digits => (e == 'e' || e == 'E') && isDigits digits
  | e :: digits => (e == 'e' || e == 'E') && isDigits digits

/-- what follows the integer part of a number -/
def isFraction (s : List Char) : Bool :=
  match s with
  | '.' :: rest => isDigits (rest.takeWhile Char.isDigit) && isExponent (rest.dropWhile Char.isDigit)
  | _ => isExponent s

/-- whether the characters make up a number without its sign: no zero before another digit -/
def isUnsigned (s : List Char) : Bool :=
  match s with
  | '0' :: rest => isFraction rest
  | _ => isDigits (s.takeWhile Char.isDigit) && isFraction (s.dropWhile Char.isDigit)

def isNumber (s : List Char) : Bool :=
  match s with
  | '-' :: rest => isUnsigned rest
  | _ => isUnsigned s

def hexValue? (c : Char) : Option Nat :=
  if c.isDigit then some (c.toNat - '0'.toNat)
  else if 'a' ≤ c ∧ c ≤ 'f' then some (c.toNat - 'a'.toNat + 10)
  else if 'A' ≤ c ∧ c ≤ 'F' then some (c.toNat - 'A'.toNat + 10)
  else none

/-- the character that the letter of a short escape stands for -/
def shortEscape? (c : Char) : Option Char :=
  match c with
  | '"' => some '"'
  | '\\' => some '\\'
  | '/' => some '/'
  | 'b' => some '\x08'
  | 'f' => some '\x0C'
  | 'n' => some '\n'
  | 'r' => some '\r'
  | 't' => some '\t'
  | _ => none

namespace Quoted

/-- after the opening quote -/
def empty : Quoted := ⟨some [], none, .none⟩

/-- adds a character; a half pair before it stays alone -/
def push (q : Quoted) (c : Char) : Quoted :=
  ⟨if q.half.isSome then none else q.text.map (c :: ·), none, .none⟩

/-- adds a unit of 16 bits, which may be half of a pair -/
def pushUnit (q : Quoted) (unit : Nat) : Quoted :=
  match q.half with
  | some first =>
    if 0xDC00 ≤ unit ∧ unit ≤ 0xDFFF then
      ⟨q.text.map (Char.ofNat (0x10000 + (first - 0xD800) * 0x400 + (unit - 0xDC00)) :: ·), none, .none⟩
    else ⟨none, none, .none⟩
  | none =>
    if 0xD800 ≤ unit ∧ unit ≤ 0xDBFF then ⟨q.text, some unit, .none⟩
    else if 0xDC00 ≤ unit ∧ unit ≤ 0xDFFF then ⟨none, none, .none⟩
    else ⟨q.text.map (Char.ofNat unit :: ·), none, .none⟩

def step (q : Quoted) (c : Char) : Option Quoted :=
  match q.escape with
  | .none =>
    if c = '\\' then some { q with escape := .slash }
    else if c.toNat < 0x20 then none
    else some (q.push c)
  | .slash =>
    if c = 'u' then some { q with escape := .digits 4 0 }
    else (shortEscape? c).map q.push
  | .digits left value =>
    (hexValue? c).map fun digit =>
      if left ≤ 1 then q.pushUnit (value * 16 + digit)
      else { q with escape := .digits (left - 1) (value * 16 + digit) }

/-- the text at the closing quote, if the string stands for one -/
def text? (q : Quoted) : Option String :=
  if q.half.isSome then none else q.text.map fun s => String.ofList s.reverse

/-- the value at the closing quote -/
def toJson (q : Quoted) : Json :=
  match q.text? with
  | some s => .string s
  | none => .unpaired

end Quoted

namespace Reader

def initial : Reader := ⟨[], .value⟩

/-- goes on with something else -/
def goOn (r : Reader) (expect : Expect) : Option Reader :=
  some { r with expect }

/-- the first character of a value -/
def startValue (r : Reader) (c : Char) : Option Reader :=
  if c = '"' then r.goOn (.quoted .empty)
  else if c = '[' then r.goOn .firstItem
  else if c = '{' then r.goOn .firstName
  else if c = 'n' then r.goOn (.word ['u', 'l', 'l'] .null)
  else if c = 't' then r.goOn (.word ['r', 'u', 'e'] (.bool true))
  else if c = 'f' then r.goOn (.word ['a', 'l', 's', 'e'] (.bool false))
  else if isNumberChar c then r.goOn (.number [c])
  else none

/-- a character after a value that is no blank: a comma, or the bracket that closes the innermost array or object -/
def afterValue (r : Reader) (value : Json) (c : Char) : Option Reader :=
  match r.frames with
  | .array items :: frames =>
    if c = ',' then some ⟨.array (value :: items) :: frames, .value⟩
    else if c = ']' then some ⟨frames, .next (.array (value :: items).reverse)⟩
    else none
  | .object members name :: frames =>
    if c = ',' then some ⟨frames, .name ((name, value) :: members)⟩
    else if c = '}' then some ⟨frames, .next (objectOf ((name, value) :: members))⟩
    else none
  | [] => none

def step (r : Reader) (c : Char) : Option Reader :=
  match r.expect with
  | .value => if isJsonBlank c then some r else r.startValue c
  | .firstItem =>
    if isJsonBlank c then some r
    else if c = ']' then r.goOn (.next (.array []))
    else startValue ⟨.array [] :: r.frames, .value⟩ c
  | .name members =>
    if isJsonBlank c then some r else if c = '"' then r.goOn (.quotedName members .empty) else none
  | .firstName =>
    if isJsonBlank c then some r
    else if c = '}' then r.goOn (.next (.object []))
    else if c = '"' then r.goOn (.quotedName [] .empty)
    else none
  | .colon members name =>
    if isJsonBlank c then some r
    else if c = ':' then some ⟨.object members name :: r.frames, .value⟩
    else none
  | .next value => if isJsonBlank c then some r else r.afterValue value c
  | .quoted q =>
    if c = '"' ∧ q.escape = .none then r.goOn (.next q.toJson)
    else (q.step c).bind fun q => r.goOn (.quoted q)
  | .quotedName members q =>
    if c = '"' ∧ q.escape = .none then r.goOn (.colon members q.text?)
    else (q.step c).bind fun q => r.goOn (.quotedName members q)
  | .number literal =>
    if isNumberChar c then r.goOn (.number (c :: literal))
    else if isNumber literal.reverse then
      let value := Json.number (String.ofList literal.reverse)
      if isJsonBlank c then r.goOn (.next value) else r.afterValue value c
    else none
  | .word rest value =>
    match rest with
    | [] => if isJsonBlank c then r.goOn (.next value) else r.afterValue value c
    | expected :: rest => if c = expected then r.goOn (if rest = [] then .next value else .word rest value) else none

/-- the value at the end of the text, where nothing may be open -/
def finish (r : Reader) : Option Json :=
  match r.frames, r.expect with
  | [], .next value => some value
  | [], .number literal =>
    if isNumber literal.reverse then some (.number (String.ofList literal.reverse)) else none
  | _, _ => none

end Reader

/-- the value that a text stands for -/
def parse (text : String) : Option Json :=
  (text.toList.foldlM Reader.step Reader.initial).bind Reader.finish

end XmlStore.Json
