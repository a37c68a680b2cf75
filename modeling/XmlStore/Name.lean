/-
Names of elements and attributes.

A name starts with a letter, an underscore or a colon and goes on with those, numbers, hyphens and points. Locators and XML
text share the rule.
-/
import XmlStore.Text.Alphabetic
import XmlStore.Text.Numeric

namespace XmlStore

open Text

/-- a character that may start a name -/
def isNameStart (c : Char) : Bool :=
  isAlphabetic c || c == '_' || c == ':'

/-- a character that may stand in a name after the first one -/
def isNameChar (c : Char) : Bool :=
  isNameStart c || isNumeric c || c == '-' || c == '.'

def isNameText : List Char → Bool
  | [] => false
  | c :: rest => isNameStart c && rest.all isNameChar

/-- whether a text can name an element or an attribute -/
def isName (s : String) : Bool :=
  isNameText s.toList

end XmlStore
