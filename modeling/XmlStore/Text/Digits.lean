/-
Unsigned numbers written in digits, read with an upper bound.

`readDigits` goes through the digits from the left and stops at the first thing that is wrong: a character that is no digit
of the base, or a value above the bound.
-/

namespace XmlStore.Text

/-- why a text is no number -/
inductive NumberFault where
  | empty
  | badDigit
  | tooLarge
  deriving DecidableEq, Repr

def NumberFault.message : NumberFault → String
  | .empty => "cannot parse integer from empty string"
  | .badDigit => "invalid digit found in string"
  | .tooLarge => "number too large to fit in target type"

/-- the value of one digit, `0` to `9` and then the letters of either case -/
def digitValue (base : Nat) (c : Char) : Option Nat :=
  let value :=
    if c.isDigit then some (c.toNat - '0'.toNat)
    else if 'a' ≤ c ∧ c ≤ 'z' then some (c.toNat - 'a'.toNat + 10)
    else if 'A' ≤ c ∧ c ≤ 'Z' then some (c.toNat - 'A'.toNat + 10)
    else none
  value.filter (· < base)

/-- the value after one more digit -/
def digitStep (base bound : Nat) (sum : Nat) (c : Char) : Except NumberFault Nat :=
  match digitValue base c with
  | none => .error .badDigit
  | some d => if sum * base + d ≤ bound then .ok (sum * base + d) else .error .tooLarge

def readDigits (base bound : Nat) (s : List Char) : Except NumberFault Nat :=
  if s.isEmpty then .error .empty else s.foldlM (digitStep base bound) 0

/-- the largest unsigned number of 64 bits -/
def maxWord : Nat := UInt64.size - 1

/-- an unsigned decimal number of at most 64 bits, which may carry a plus sign -/
def readWord? (s : List Char) : Option Nat :=
  let digits := match s with
    | '+' :: rest => rest
    | _ => s
  (readDigits 10 maxWord digits).toOption

end XmlStore.Text
