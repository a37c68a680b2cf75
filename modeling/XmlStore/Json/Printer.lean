/-
Writing JSON on several lines.

Every item of an array and every member of an object stands on a line of its own, two spaces further in than the bracket that
opens it; what is empty stays on one line. Strings escape the quote, the backslash and the controls, and nothing else.
-/
import XmlStore.Json.Basic

namespace XmlStore.Json

def escapeChar (c : Char) : List Char :=
  if c = '"' then ['\\', '"']
  else if c = '\\' then ['\\', '\\']
  else if c = '\n' then ['\\', 'n']
  else if c = '\r' then ['\\', 'r']
  else if c = '\t' then ['\\', 't']
  else if c.toNat = 0x08 then ['\\', 'b']
  else if c.toNat = 0x0C then ['\\', 'f']
  else if c.toNat < 0x20 then ['\\', 'u', '0', '0', Nat.digitChar (c.toNat / 16), Nat.digitChar (c.toNat % 16)]
  else [c]

/-- a string between its quotes -/
def renderString (s : String) : List Char :=
  '"' :: s.toList.flatMap escapeChar ++ ['"']

/-- a new line at a level -/
def newLine (level : Nat) : List Char :=
  '\n' :: List.replicate (2 * level) ' '

mutual

/-- a value whose first line stands at a level -/
def render (level : Nat) : Json → List Char
  | .null => ['n', 'u', 'l', 'l']
  | .bool true => ['t', 'r', 'u', 'e']
  | .bool false => ['f', 'a', 'l', 's', 'e']
  | .number literal => literal.toList
  | .string value => renderString value
  | .unpaired => ['"', '\\', 'u', 'd', '8', '0', '0', '"']
  | .array [] => ['[', ']']
  | .array (first :: rest) =>
    '[' :: newLine (level + 1) ++ render (level + 1) first ++ renderItems (level + 1) rest ++ newLine level ++ [']']
  | .object [] => ['{', '}']
  | .object ((name, value) :: rest) =>
    '{' :: newLine (level + 1) ++ renderString name ++ [':', ' '] ++ render (level + 1) value
      ++ renderMembers (level + 1) rest ++ newLine level ++ ['}']

/-- the items after the first one -/
def renderItems (level : Nat) : List Json → List Char
  | [] => []
  | item :: rest => ',' :: newLine level ++ render level item ++ renderItems level rest

/-- the members after the first one -/
def renderMembers (level : Nat) : List (String × Json) → List Char
  | [] => []
  | (name, value) :: rest =>
    ',' :: newLine level ++ renderString name ++ [':', ' '] ++ render level value ++ renderMembers level rest

end

def pretty (j : Json) : String :=
  String.ofList (render 0 j)

end XmlStore.Json
