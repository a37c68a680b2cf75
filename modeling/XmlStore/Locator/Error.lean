/-
What can be wrong with the text of a locator, or with one that is being built.
-/
import XmlStore.Text.Quoted

namespace XmlStore

/-- what is wrong at a place of the text -/
inductive LocatorFault where
  /-- no name where a segment starts -/
  | emptyStep
  /-- a character that no name starts with -/
  | invalidName (found : Char)
  /-- something else than a separator after a segment -/
  | unexpectedChar (found : Char)
  /-- nothing after a separator -/
  | trailingSlash
  /-- nothing between the brackets -/
  | emptyPredicate
  /-- a bracket that is not closed where it should be -/
  | unterminatedPredicate
  /-- a predicate that is neither an attribute test nor a number from 1 on -/
  | invalidPosition (text : String)
  deriving DecidableEq, Repr

/-- why there is no locator -/
inductive LocatorError where
  | empty
  /-- a fault and the number of bytes before it -/
  | malformed (fault : LocatorFault) (position : Nat)
  | invalidSegmentName (name : String)
  | danglingPredicate
  deriving DecidableEq, Repr

def LocatorFault.message (position : Nat) : LocatorFault → String
  | .emptyStep => s!"Empty step at position {position}"
  | .invalidName found => s!"Invalid name character '{found}' at position {position}"
  | .unexpectedChar found => s!"Unexpected character '{found}' at position {position}"
  | .trailingSlash => s!"Locator ends with a separator at position {position}"
  | .emptyPredicate => s!"Empty predicate at position {position}"
  | .unterminatedPredicate => s!"Unterminated predicate starting at position {position}"
  | .invalidPosition text =>
    "Invalid position " ++ Text.quote text ++ s!" at {position} (positions start at 1)"

def LocatorError.message : LocatorError → String
  | .empty => "Locator is empty"
  | .malformed fault position => fault.message position
  | .invalidSegmentName name => "Invalid segment name: " ++ Text.quote name
  | .danglingPredicate => "Predicate appended before any segment"

end XmlStore
