/-
What can be wrong with XML text, or with an edit of a document.

Every name and every piece of text must pass a check, whether it is read or set by an edit: `checkName` and `checkChars`.
-/
import XmlStore.Name
import XmlStore.Text.Quoted
import XmlStore.Xml.Reference

namespace XmlStore.Xml

/-- a kind of markup, by what is missing when it is not closed -/
inductive Markup where
  | tag
  | comment
  | cdata
  | doctype
  | instruction
  deriving DecidableEq, Repr

/-- what is wrong in the list of attributes of a tag; positions count from the name of the tag -/
inductive AttributeFault where
  | expectedEquals (position : Nat)
  | expectedValue (position : Nat)
  | unquotedValue (position : Nat)
  | unclosedValue (position : Nat) (quote : Char)
  | duplicated (position previous : Nat)
  deriving DecidableEq, Repr

/-- what makes a text no XML -/
inductive SyntaxFault where
  | unclosed (kind : Markup)
  | unknownMarkup
  | namelessDoctype
  | mismatchedEndTag (expected found : String)
  | unmatchedEndTag (name : String)
  | badAttribute (element : String) (fault : AttributeFault)
  /-- a reference in text between tags -/
  | badReference (fault : ReferenceFault)
  /-- a reference in the value of an attribute -/
  | badValue (key element : String) (fault : ReferenceFault)
  deriving DecidableEq, Repr

/-- where a character stands -/
inductive Place where
  | text
  | cdata
  | comment
  | attributeValue
  deriving DecidableEq, Repr

/-- why there is no document, or why an edit was refused -/
inductive XmlError where
  | malformed (fault : SyntaxFault) (position : Nat)
  | unexpectedEndTag (name : String)
  /-- elements that the text leaves open, outermost first -/
  | unclosedElements (names : List String)
  | noRootElement
  | multipleRoots (second : String)
  | textOutsideRoot
  | emptyFragment
  | invalidName (name : String)
  | invalidChar (found : Char) (place : Place)
  | notAnElement
  deriving DecidableEq, Repr

/-- how the markup is called, and how it should have ended -/
def Markup.description : Markup → String
  | .tag => "tag not closed: `>` not found before end of input"
  | .comment => "comment not closed: `-->` not found before end of input"
  | .cdata => "CDATA not closed: `]]>` not found before end of input"
  | .doctype => "DOCTYPE not closed: `>` not found before end of input"
  | .instruction => "processing instruction or xml declaration not closed: `?>` not found before end of input"

def AttributeFault.message : AttributeFault → String
  | .expectedEquals position =>
    s!"position {position}: attribute key must be directly followed by `=` or space"
  | .expectedValue position => s!"position {position}: `=` must be followed by an attribute value"
  | .unquotedValue position => s!"position {position}: attribute value must be enclosed in `\"` or `'`"
  | .unclosedValue position quote => s!"position {position}: missing closing quote `{quote}` in attribute value"
  | .duplicated position previous =>
    s!"position {position}: duplicated attribute, previous declaration at position {previous}"

def SyntaxFault.message : SyntaxFault → String
  | .unclosed kind => "syntax error: " ++ kind.description
  | .unknownMarkup => "syntax error: unknown or missed symbol in markup"
  | .namelessDoctype =>
    "ill-formed document: `<!DOCTYPE>` declaration does not contain a name of a document type"
  | .mismatchedEndTag expected found =>
    s!"ill-formed document: expected `</{expected}>`, but `</{found}>` was found"
  | .unmatchedEndTag name => s!"ill-formed document: close tag `</{name}>` does not match any open tag"
  | .badAttribute element fault => s!"attribute error in <{element}>: " ++ fault.message
  | .badReference fault => fault.message
  | .badValue key element fault => s!"attribute {key} in <{element}>: " ++ fault.message

def Place.description : Place → String
  | .text => "text"
  | .cdata => "CDATA"
  | .comment => "comment"
  | .attributeValue => "attribute value"

/-- a code point in at least four hexadecimal digits -/
def codePointText (c : Char) : String :=
  let digits := (Nat.toDigits 16 c.toNat).map Char.toUpper
  String.ofList (List.replicate (4 - digits.length) '0' ++ digits)

def XmlError.message : XmlError → String
  | .malformed fault position => s!"XML syntax error at position {position}: " ++ fault.message
  | .unexpectedEndTag name => s!"Unexpected closing tag </{name}>"
  | .unclosedElements names => "Unclosed element(s): <" ++ String.intercalate ">, <" names ++ ">"
  | .noRootElement => "Document has no root element"
  | .multipleRoots second => s!"Document has more than one root element (second root: <{second}>)"
  | .textOutsideRoot => "Text is not allowed outside the root element"
  | .emptyFragment => "Fragment contains no element"
  | .invalidName name => "Invalid XML name: " ++ Text.quote name
  | .invalidChar found place => "Character U+" ++ codePointText found ++ " is not allowed in " ++ place.description
  | .notAnElement => "Node is not an element"

/-! ## Checks -/

/-- a character of XML: no control but tab, line feed and carriage return, and none of the two last of the basic plane -/
def isXmlChar (c : Char) : Bool :=
  c == '\t' || c == '\n' || c == '\r' || (0x20 ≤ c.toNat && c.toNat ≤ 0xD7FF) || (0xE000 ≤ c.toNat && c.toNat ≤ 0xFFFD)
    || 0x10000 ≤ c.toNat

/-- refuses a name that is none -/
def checkName (name : String) : Except XmlError Unit :=
  if isName name then .ok () else .error (.invalidName name)

/-- refuses text with a character that XML does not allow, and names the first one -/
def checkChars (place : Place) (s : List Char) : Except XmlError Unit :=
  match s.find? (!isXmlChar ·) with
  | some c => .error (.invalidChar c place)
  | none => .ok ()

end XmlStore.Xml
