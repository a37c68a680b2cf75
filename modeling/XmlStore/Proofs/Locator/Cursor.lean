/-
Reading a locator by byte offsets.

The text of a locator can be read without taking it apart: a cursor moves over its bytes, and what is left or has been passed is sliced
out of the text by offsets. A slice is only there if a character begins, or the text ends, at either end of it; otherwise reading breaks
off, and then there is not even an error. Here the parser of locators is written in this way. The offset of a fault is then that of the
cursor, or one that it has passed. Its loops are given a number of rounds, one more than there are characters, and reading also breaks off
if a loop has not ended by then.

Main definition:
- `Locator.parseBytes`: the parser by byte offsets.
-/
import Mathlib.Data.Nat.PSub
import XmlStore.Locator.Parser

namespace XmlStore

namespace Text

/-- the characters in the first `p` bytes and those after them; none if the text is shorter, or if a character goes on there -/
def splitBytes : Nat → List Char → Option (List Char × List Char)
  | 0, s => some ([], s)
  | _ + 1, [] => none
  | p + 1, c :: s =>
    if c.utf8Size ≤ p + 1 then (splitBytes (p + 1 - c.utf8Size) s).map fun (before, after) => (c :: before, after) else none

theorem splitBytes_cons {p : Nat} (hp : 0 < p) (c : Char) (s : List Char) : splitBytes p (c :: s) =
    if c.utf8Size ≤ p then (splitBytes (p - c.utf8Size) s).map fun (before, after) => (c :: before, after) else none := by
  cases p with
  | zero => omega
  | succ p => rfl

theorem splitBytes_append (before after : List Char) : splitBytes (byteSize before) (before ++ after) = some (before, after) := by
  induction before with
  | nil => rw [byteSize, List.nil_append, splitBytes]
  | cons c before ih =>
    have positive := c.utf8Size_pos
    rw [List.cons_append, byteSize, splitBytes_cons (by omega), if_pos (by omega), Nat.add_sub_cancel_left, ih, Option.map_some]

end Text

open Text

namespace Locator

/-- a parser with the offset of its cursor; it fails with an offset, or breaks off -/
abbrev Cursor := StateT Nat (ExceptT (LocatorFault × Nat) Option)

namespace Cursor

/-! ## The parser by byte offsets -/

variable (input : List Char)

/-- breaks off if there is nothing -/
def given {α : Type} (part : Option α) : Cursor α :=
  StateT.lift (ExceptT.mk (part.map .ok))

def fail {α : Type} (fault : LocatorFault) (position : Nat) : Cursor α :=
  throw (fault, position)

/-- the slice from the cursor to the end -/
def remaining : Cursor (List Char) := do
  let (_, after) ← given (splitBytes (← get) input)
  return after

/-- the slice from an offset to the cursor -/
def since (start : Nat) : Cursor (List Char) := do
  let (before, _) ← given (splitBytes (← get) input)
  let (_, part) ← given (splitBytes start before)
  return part

def peek : Cursor (Option Char) := do
  return (← remaining input).head?

def bump : Cursor (Option Char) := do
  match ← peek input with
  | some c =>
    modify (· + c.utf8Size)
    return some c
  | none => return none

def eat (mark : List Char) : Cursor Bool := do
  if mark.isPrefixOf (← remaining input) then
    modify (· + byteSize mark)
    return true
  else return false

def skipRounds (p : Char → Bool) : Nat → Cursor Unit
  | 0 => given none
  | rounds + 1 => do
    match ← peek input with
    | some c =>
      if p c then
        let _ ← bump input
        skipRounds p rounds
      else return
    | none => return

/-- moves on as long as the next character is such a one -/
def skipWhile (p : Char → Bool) : Cursor Unit :=
  skipRounds input p (input.length + 1)

def name : Cursor String := do
  let start ← get
  match ← peek input with
  | some c =>
    if isNameStart c then
      let _ ← bump input
      skipWhile input isNameChar
      return String.ofList (← since input start)
    else if c = '/' ∨ c = '[' then fail .emptyStep start
    else fail (.invalidName c) start
  | none => fail .emptyStep start

def quoteRounds (quote : Char) (opened : Nat) : Nat → Cursor Unit
  | 0 => given none
  | rounds + 1 => do
    match ← bump input with
    | some c => if c = quote then return else quoteRounds quote opened rounds
    | none => fail .unterminatedPredicate opened

/-- moves behind the next such quote -/
def closeQuote (quote : Char) (opened : Nat) : Cursor Unit :=
  quoteRounds input quote opened (input.length + 1)

def bareLiteral (start : Nat) : Cursor String := do
  skipWhile input (· ≠ ']')
  return String.ofList (trimEnd (← since input start))

def literal (opened : Nat) : Cursor String := do
  let start ← get
  match ← peek input with
  | some c =>
    if c = '"' ∨ c = '\'' then
      let _ ← bump input
      closeQuote input c opened
      return String.ofList (← since input start)
    else bareLiteral input start
  | none => bareLiteral input start

def close (opened : Nat) (predicate : Predicate) : Cursor Predicate := do
  skipWhile input isBlank
  if ← eat input [']'] then return predicate else fail .unterminatedPredicate opened

def predicate : Cursor Predicate := do
  let opened ← given (← get).ppred
  skipWhile input isBlank
  if ← eat input ['@'] then
    let name ← name input
    skipWhile input isBlank
    if ← eat input ['='] then
      skipWhile input isBlank
      close input opened (.attributeEquals name (← literal input opened))
    else close input opened (.hasAttribute name)
  else
    let start ← get
    skipWhile input (· ≠ ']')
    let text := trim (← since input start)
    if text.isEmpty then fail .emptyPredicate opened
    else match readWord? text with
      | some (place + 1) => close input opened (.position (place + 1))
      | _ => fail (.invalidPosition (String.ofList text)) start

def predicateRounds : Nat → Cursor (List Predicate)
  | 0 => given none
  | rounds + 1 => do
    if ← eat input ['['] then
      let first ← predicate input
      return first :: (← predicateRounds rounds)
    else return []

def predicates : Cursor (List Predicate) :=
  predicateRounds input (input.length + 1)

def nameTest : Cursor String := do
  if ← eat input ['*'] then return "*" else name input

def segment (axis : Axis) : Cursor Segment := do
  let name ← nameTest input
  return ⟨axis, name, ← predicates input⟩

/-- an axis, if something comes after its separator -/
def leading (axis : Axis) : Cursor Axis := do
  if (← peek input).isNone then fail .trailingSlash (← get) else return axis

def separator : Cursor Axis := do
  if ← eat input ['/', '/'] then leading input .descendant
  else if ← eat input ['/'] then leading input .child
  else fail (.unexpectedChar ((← peek input).getD ' ')) (← get)

def segmentRounds (axis : Axis) : Nat → Cursor (List Segment)
  | 0 => given none
  | rounds + 1 => do
    let first ← segment input axis
    if (← peek input).isNone then return [first]
    else
      let axis ← separator input
      return first :: (← segmentRounds axis rounds)

def segments (axis : Axis) : Cursor (List Segment) :=
  segmentRounds input axis (input.length + 1)

/-- whether a locator is relative, and the axis of its first segment -/
def opening : Cursor (Bool × Axis) := do
  if ← eat input ['/', '/'] then return (false, .descendant)
  else if ← eat input ['/'] then return (false, .child)
  else return (true, .child)

def path : Cursor Locator := do
  let (relative, axis) ← opening input
  return ⟨relative, ← segments input axis⟩

end Cursor

/-- the locator that a text stands for, read by byte offsets; none if a slice is not there, or if a loop does not end -/
def parseBytes (text : String) : Option (Except LocatorError Locator) :=
  let input := trim text.toList
  if input.isEmpty then some (.error .empty)
  else (((Cursor.path input).run' 0).run).map (·.mapError fun (fault, position) => .malformed fault position)

end Locator

end XmlStore
