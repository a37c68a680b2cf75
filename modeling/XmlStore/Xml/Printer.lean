/-
Writing a forest as text.

The compact form is the one that is kept: double quotes around values, no white space between nodes, and one tag for an element
with nothing in it. The indented form puts every node on a line of its own, except that an element with text directly in it
keeps its content on one line, so that no text gains or loses white space.
-/
import XmlStore.Xml.Escape
import XmlStore.Xml.Forest

namespace XmlStore.Xml

def LeafKind.render (value : List Char) : LeafKind → List Char
  | .text => escapeText value
  | .cdata => ['<', '!', '[', 'C', 'D', 'A', 'T', 'A', '['] ++ value ++ [']', ']', '>']
  | .comment => ['<', '!', '-', '-'] ++ value ++ ['-', '-', '>']

def renderAttribute (key value : String) : List Char :=
  ' ' :: key.toList ++ '=' :: '"' :: escapeValue value.toList ++ ['"']

/-- a start tag without its closing bracket -/
def renderTag (name : String) (attributes : Attributes) : List Char :=
  '<' :: name.toList ++ attributes.flatMap fun (key, value) => renderAttribute key value

def renderEndTag (name : String) : List Char :=
  '<' :: '/' :: name.toList ++ ['>']

namespace Forest

variable {ι : Type}

def isEmpty : Forest ι → Bool
  | .nil => true
  | _ => false

/-- the compact form -/
def render : Forest ι → List Char
  | .nil => []
  | .leaf _ kind value next => kind.render value.toList ++ next.render
  | .element _ name attributes children next =>
    renderTag name attributes
      ++ (if children.isEmpty then ['/', '>'] else '>' :: children.render ++ renderEndTag name)
      ++ next.render

/-- the form with `indent` spaces for every level, from level `depth` on -/
def renderIndented (indent depth : Nat) : Forest ι → List Char
  | .nil => []
  | .leaf _ kind value next =>
    List.replicate (depth * indent) ' ' ++ kind.render value.toList ++ '\n' :: next.renderIndented indent depth
  | .element _ name attributes children next =>
    List.replicate (depth * indent) ' ' ++ renderTag name attributes
      ++ (if children.isEmpty then ['/', '>']
          else if children.hasText then '>' :: children.render ++ renderEndTag name
          else '>' :: '\n' :: children.renderIndented indent (depth + 1)
            ++ List.replicate (depth * indent) ' ' ++ renderEndTag name)
      ++ '\n' :: next.renderIndented indent depth

def xml (f : Forest ι) : String :=
  String.ofList f.render

def prettyXml (indent : Nat) (f : Forest ι) : String :=
  String.ofList (f.renderIndented indent 0)

end Forest

end XmlStore.Xml
