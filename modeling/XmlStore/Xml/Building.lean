/-
Building an arena from events.

Every event that carries content adds a node below the innermost element that is open. These are kept by their numbers, innermost first.
-/
import XmlStore.Xml.Arena

namespace XmlStore.Xml

open Text

/-- an arena in the making, and the elements that are open in it, innermost first -/
structure Building where
  arena : Arena
  stack : List Nat
  deriving DecidableEq, Repr

namespace Building

def initial : Building := ⟨.empty, []⟩

/-- the node that the next one goes below -/
def parent (b : Building) : Nat :=
  b.stack.headD Document.top

def add (b : Building) (kind : NodeKind) : Building :=
  { b with arena := (b.arena.pushChild b.parent kind).2 }

/-- refuses text that would stand outside the root of a document -/
def checkInside (shape : Shape) (b : Building) : Except XmlError Unit :=
  if b.stack = [] ∧ shape = .document then .error .textOutsideRoot else .ok ()

/-- takes one event; text that has only blanks in it is left out -/
def feed (shape : Shape) (b : Building) : Event → Except XmlError Building
  | .startTag name rest => do
    let attributes ← readAttributes name rest
    let (id, arena) := b.arena.pushChild b.parent (.element name attributes)
    return ⟨arena, id :: b.stack⟩
  | .emptyTag name rest => do
    let attributes ← readAttributes name rest
    return b.add (.element name attributes)
  | .endTag name =>
    match b.stack with
    | [] => .error (.unexpectedEndTag name)
    | _ :: outer => .ok { b with stack := outer }
  | .text raw => do
    let value ← (resolve raw).mapError fun fault => .malformed (.badReference fault) 0
    checkChars .text value
    if value.all isBlank then return b
    b.checkInside shape
    return b.add (.leaf .text (String.ofList value))
  | .cdata value => do
    b.checkInside shape
    checkChars .cdata value
    return b.add (.leaf .cdata (String.ofList value))
  | .comment value => do
    checkChars .comment value
    return b.add (.leaf .comment (String.ofList value))
  | .skipped => .ok b

/-- the arena, once nothing is open -/
def finish (b : Building) : Except XmlError Arena :=
  if b.stack = [] then .ok b.arena else .error (.unclosedElements (b.stack.reverse.filterMap b.arena.name?))

def step (shape : Shape) (reading : Scanner × Building) (c : Char) : Except XmlError (Scanner × Building) := do
  let (scanner, event) ← reading.1.step c
  match event with
  | none => return (scanner, reading.2)
  | some event => return (scanner, ← reading.2.feed shape event)

end Building

namespace Arena

/-- the arena that a text stands for, whatever nodes it has -/
def build (shape : Shape) (text : String) : Except XmlError Arena := do
  let (scanner, b) ← (dropMark text.toList).foldlM (Building.step shape) (.initial, .initial)
  let event ← scanner.finish
  (← b.feed shape event).finish

def parse (text : String) : Except XmlError Arena := do
  let a ← build .document text
  match a.childElements Document.top with
  | [] => .error .noRootElement
  | [_] => return a
  | _ :: second :: _ => .error (.multipleRoots ((a.name? second).getD ""))

def parseFragment (text : String) : Except XmlError Arena := do
  let a ← build .fragment text
  if a.root?.isNone then .error .emptyFragment
  return a

end Arena

end XmlStore.Xml
