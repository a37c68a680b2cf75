/-
Reading a forest from text.

`Reader.run` goes through the text with a scanner and hands every event to an assembly, so that the first fault in reading order
is the one reported. A document must have one root element; a fragment must have an element among its outermost nodes.
-/
import XmlStore.Xml.Assembly
import XmlStore.Xml.Scanner

namespace XmlStore.Xml

/-- a text half read: where the scanner is, and what has been put together -/
structure Reader where
  scanner : Scanner
  assembly : Assembly
  deriving DecidableEq, Repr

namespace Reader

def initial : Reader := ⟨.initial, .initial⟩

def step (shape : Shape) (r : Reader) (c : Char) : Except XmlError Reader := do
  let (scanner, event) ← r.scanner.step c
  match event with
  | none => return ⟨scanner, r.assembly⟩
  | some event => return ⟨scanner, ← r.assembly.feed shape event⟩

/-- the forest at the end of the text -/
def finish (shape : Shape) (r : Reader) : Except XmlError (Forest Unit) := do
  let event ← r.scanner.finish
  let assembly ← r.assembly.feed shape event
  assembly.finish

/-- the forest that a text stands for, whatever nodes it has -/
def run (shape : Shape) (s : List Char) : Except XmlError (Forest Unit) :=
  (s.foldlM (step shape) initial).bind (finish shape)

end Reader

/-- the text without the byte order mark that it may begin with -/
def dropMark : List Char → List Char
  | '\uFEFF' :: rest => rest
  | s => s

/-- whether the outermost nodes are as the shape asks for -/
def checkShape (f : Forest Unit) : Shape → Except XmlError Unit
  | .document =>
    match f.elements with
    | [] => .error .noRootElement
    | [_] => .ok ()
    | _ :: second :: _ => .error (.multipleRoots second.name)
  | .fragment => if f.elements = [] then .error .emptyFragment else .ok ()

/-- the forest that a text of the given shape stands for -/
def readForest (shape : Shape) (text : String) : Except XmlError (Forest Unit) := do
  let f ← Reader.run shape (dropMark text.toList)
  checkShape f shape
  return f

end XmlStore.Xml
