/-
Cutting a text of XML into events, one character at a time.

An event is a run of text between tags or one piece of markup. References in text and the attributes of a tag are still as
they were written.

The scanner knows what it is in the middle of, and which start tags are still open: an end tag that does not close the
innermost of them stops it. Positions count bytes from the start of the text; a fault inside markup is reported where the
markup began.
-/
import XmlStore.Xml.Tag

namespace XmlStore.Xml

/-- one piece of a text of XML -/
inductive Event where
  /-- a tag that opens an element, with what follows the name in it -/
  | startTag (name : String) (rest : List Char)
  /-- a tag for an element with nothing in it -/
  | emptyTag (name : String) (rest : List Char)
  | endTag (name : String)
  /-- text between tags, which may be empty -/
  | text (raw : List Char)
  | cdata (value : List Char)
  | comment (value : List Char)
  /-- a declaration, a processing instruction or a document type, which carry no content -/
  | skipped
  deriving DecidableEq, Repr

/-- what the scanner is in the middle of; texts under way are kept with the last character first -/
inductive Scan where
  /-- text between tags -/
  | text (raw : List Char)
  /-- after the opening bracket -/
  | opened
  /-- a start tag or an empty tag, and the quote that is open in it -/
  | tag (content : List Char) (quote : Option Char)
  /-- an end tag after its slash, and the quote that is open in it -/
  | endTag (content : List Char) (quote : Option Char)
  /-- after the exclamation mark -/
  | bang
  /-- the fixed start of a comment, a CDATA section or a document type, with what is still to come of it -/
  | lead (kind : Markup) (rest : List Char)
  | comment (value : List Char)
  | cdata (value : List Char)
  /-- a document type: brackets open in it, and whether there were only blanks so far -/
  | doctype (depth : Nat) (blank : Bool)
  /-- just after the question mark that opens an instruction -/
  | question
  /-- an instruction, and whether its last character was a question mark -/
  | instruction (asked : Bool)
  deriving DecidableEq, Repr

/-- a text of XML read so far -/
structure Scanner where
  /-- bytes read -/
  position : Nat
  /-- where the markup under way began -/
  start : Nat
  scan : Scan
  /-- names of the start tags that are open, innermost first -/
  openNames : List String
  deriving DecidableEq, Repr

namespace Scanner

def initial : Scanner := ⟨0, 0, .text [], []⟩

/-- a fault where the markup under way began -/
def fail {α : Type} (s : Scanner) (fault : SyntaxFault) : Except XmlError α :=
  .error (.malformed fault s.start)

/-- goes on with something else, without an event -/
def goOn (s : Scanner) (scan : Scan) : Except XmlError (Scanner × Option Event) :=
  .ok ({ s with scan }, none)

/-- ends the markup under way with its event -/
def emit (s : Scanner) (event : Event) : Except XmlError (Scanner × Option Event) :=
  .ok ({ s with scan := .text [] }, some event)

/-- the quote that is open after one more character of a tag -/
def quoteAfter (quote : Option Char) (c : Char) : Option Char :=
  match quote with
  | none => if c = '"' ∨ c = '\'' then some c else none
  | some q => if c = q then none else some q

/-- the name in the content of a tag, and what follows it -/
def splitTag (content : List Char) : String × List Char :=
  (String.ofList (content.takeWhile (!isMarkupBlank ·)), content.dropWhile (!isMarkupBlank ·))

/-- the end of a start tag, or of an empty tag if its last character was a slash; the content has that one first -/
def endOfTag (s : Scanner) (content : List Char) : Except XmlError (Scanner × Option Event) :=
  match content with
  | '/' :: content =>
    let (name, rest) := splitTag content.reverse
    s.emit (.emptyTag name rest)
  | _ =>
    let (name, rest) := splitTag content.reverse
    { s with openNames := name :: s.openNames }.emit (.startTag name rest)

/-- the name in an end tag, without the blanks after it unless there is nothing else -/
def endTagName (content : List Char) : String :=
  match content.dropWhile isMarkupBlank with
  | [] => String.ofList content.reverse
  | name => String.ofList name.reverse

/-- the end of an end tag, which must close the innermost open element -/
def endOfEndTag (s : Scanner) (content : List Char) : Except XmlError (Scanner × Option Event) :=
  let name := endTagName content
  match s.openNames with
  | [] => s.fail (.unmatchedEndTag name)
  | expected :: outer =>
    if expected = name then { s with openNames := outer }.emit (.endTag name)
    else s.fail (.mismatchedEndTag expected name)

/-- the first character after the opening bracket of markup -/
def afterOpening (s : Scanner) (c : Char) : Except XmlError (Scanner × Option Event) :=
  if c = '!' then s.goOn .bang
  else if c = '?' then s.goOn .question
  else if c = '/' then s.goOn (.endTag [] none)
  else if c = '>' then s.endOfTag []
  else s.goOn (.tag [c] (quoteAfter none c))

/-- the first character after the exclamation mark, which tells the kind of markup -/
def afterBang (s : Scanner) (c : Char) : Except XmlError (Scanner × Option Event) :=
  if c = '-' then s.goOn (.lead .comment ['-'])
  else if c = '[' then s.goOn (.lead .cdata ['C', 'D', 'A', 'T', 'A', '['])
  else if c = 'D' ∨ c = 'd' then s.goOn (.lead .doctype ['O', 'C', 'T', 'Y', 'P', 'E'])
  else s.fail .unknownMarkup

/-- what comes after the fixed start of a kind of markup -/
def body : Markup → Scan
  | .comment => .comment []
  | .cdata => .cdata []
  | .doctype => .doctype 0 true
  | .tag => .tag [] none
  | .instruction => .instruction false

/-- whether a character is the one that the fixed start asks for, where a document type takes letters of either case -/
def leadMatches (kind : Markup) (expected c : Char) : Bool :=
  c == expected || (kind == .doctype && c.toUpper == expected)

/-- what one more character does but for the position -/
def turn (s : Scanner) (c : Char) : Except XmlError (Scanner × Option Event) :=
  match s.scan with
  | .text raw =>
    if c = '<' then .ok ({ s with start := s.position, scan := .opened }, some (.text raw.reverse))
    else s.goOn (.text (c :: raw))
  | .opened => s.afterOpening c
  | .tag content quote =>
    if c = '>' ∧ quote = none then s.endOfTag content else s.goOn (.tag (c :: content) (quoteAfter quote c))
  | .endTag content quote =>
    if c = '>' ∧ quote = none then s.endOfEndTag content else s.goOn (.endTag (c :: content) (quoteAfter quote c))
  | .bang => s.afterBang c
  | .lead kind [] => s.goOn (body kind)
  | .lead kind (expected :: rest) =>
    if leadMatches kind expected c then s.goOn (if rest = [] then body kind else .lead kind rest)
    else s.fail (.unclosed kind)
  | .comment value =>
    match c, value with
    | '>', '-' :: '-' :: value => s.emit (.comment value.reverse)
    | _, _ => s.goOn (.comment (c :: value))
  | .cdata value =>
    match c, value with
    | '>', ']' :: ']' :: value => s.emit (.cdata value.reverse)
    | _, _ => s.goOn (.cdata (c :: value))
  | .doctype depth blank =>
    if c = '>' then
      match depth with
      | 0 => if blank then .error (.malformed .namelessDoctype s.position) else s.emit .skipped
      | depth + 1 => s.goOn (.doctype depth false)
    else if c = '<' then s.goOn (.doctype (depth + 1) false)
    else s.goOn (.doctype depth (blank && isMarkupBlank c))
  | .question => if c = '>' then s.fail (.unclosed .instruction) else s.goOn (.instruction (c == '?'))
  | .instruction asked => if c = '>' ∧ asked then s.emit .skipped else s.goOn (.instruction (c == '?'))

/-- reads one more character, which may complete an event -/
def step (s : Scanner) (c : Char) : Except XmlError (Scanner × Option Event) :=
  (s.turn c).map fun (s, event) => ({ s with position := s.position + c.utf8Size }, event)

/-- the last event, at the end of the text, where no markup may be under way -/
def finish (s : Scanner) : Except XmlError Event :=
  match s.scan with
  | .text raw => .ok (.text raw.reverse)
  | .opened => s.fail (.unclosed .tag)
  | .tag .. => s.fail (.unclosed .tag)
  | .endTag .. => s.fail (.unclosed .tag)
  | .bang => s.fail .unknownMarkup
  | .lead kind _ => s.fail (.unclosed kind)
  | .comment _ => s.fail (.unclosed .comment)
  | .cdata _ => s.fail (.unclosed .cdata)
  | .doctype .. => s.fail (.unclosed .doctype)
  | .question => s.fail (.unclosed .instruction)
  | .instruction _ => s.fail (.unclosed .instruction)

end Scanner

end XmlStore.Xml
