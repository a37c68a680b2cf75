/-
Reading a locator from text.

The text is trimmed and then read from the left: a separator or none, a segment, and so on by separators to the end. Every
reader takes what is left of the text and returns what it read together with the rest; one that fails returns the rest at the
place of the fault, and the position of an error is the size of the text before that rest.
-/
import XmlStore.Locator.Basic
import XmlStore.Locator.Error
import XmlStore.Name
import XmlStore.Text.Basic
import XmlStore.Text.Digits

namespace XmlStore.Locator

open Text

/-- where reading stopped: what is wrong, and what was left to read -/
structure Stop where
  fault : LocatorFault
  rest : List Char
  deriving DecidableEq, Repr

/-- a name, as long as it goes on -/
def readName : List Char → Except Stop (String × List Char)
  | [] => .error ⟨.emptyStep, []⟩
  | c :: rest =>
    if isNameStart c then .ok (String.ofList (c :: rest.takeWhile isNameChar), rest.dropWhile isNameChar)
    else if c = '/' ∨ c = '[' then .error ⟨.emptyStep, c :: rest⟩
    else .error ⟨.invalidName c, c :: rest⟩

/-- the characters before the closing bracket -/
def beforeBracket (s : List Char) : List Char :=
  s.takeWhile (· ≠ ']')

/-- the closing bracket and what follows it -/
def fromBracket (s : List Char) : List Char :=
  s.dropWhile (· ≠ ']')

/-- the value of an attribute test: up to the same quote, or up to the bracket without the blanks before it -/
def readLiteral (opened : List Char) : List Char → Except Stop (String × List Char)
  | [] => .ok ("", [])
  | c :: rest =>
    if c = '"' ∨ c = '\'' then
      match rest.dropWhile (· ≠ c) with
      | [] => .error ⟨.unterminatedPredicate, opened⟩
      | _ :: after => .ok (String.ofList (c :: rest.takeWhile (· ≠ c) ++ [c]), after)
    else .ok (String.ofList (trimEnd (beforeBracket (c :: rest))), fromBracket (c :: rest))

/-- the bracket that closes a predicate -/
def closePredicate (opened : List Char) (predicate : Predicate) (s : List Char) : Except Stop (Predicate × List Char) :=
  match trimStart s with
  | ']' :: rest => .ok (predicate, rest)
  | _ => .error ⟨.unterminatedPredicate, opened⟩

/-- a predicate of which the bracket at the head of `opened` has been read and `s` is left -/
def readPredicate (opened s : List Char) : Except Stop (Predicate × List Char) :=
  match trimStart s with
  | '@' :: test => do
    let (name, rest) ← readName test
    match trimStart rest with
    | '=' :: value =>
      let (literal, rest) ← readLiteral opened (trimStart value)
      closePredicate opened (.attributeEquals name literal) rest
    | rest => closePredicate opened (.hasAttribute name) rest
  | start =>
    let text := trim (beforeBracket start)
    if text.isEmpty then .error ⟨.emptyPredicate, opened⟩
    else match readWord? text with
      | some (place + 1) => closePredicate opened (.position (place + 1)) (fromBracket start)
      | _ => .error ⟨.invalidPosition (String.ofList text), start⟩

theorem length_dropWhile_le (p : Char → Bool) (s : List Char) : (s.dropWhile p).length ≤ s.length :=
  (List.dropWhile_sublist p).length_le

theorem readName_length {s rest : List Char} {name : String} (h : readName s = .ok (name, rest)) :
    rest.length < s.length := by
  unfold readName at h
  split at h
  · simp at h
  · rename_i c t
    split at h
    · simp only [Except.ok.injEq, Prod.mk.injEq] at h
      have := length_dropWhile_le isNameChar t
      simp only [← h.2, List.length_cons]; omega
    · split at h <;> simp at h

theorem readLiteral_length {opened s rest : List Char} {literal : String} (h : readLiteral opened s = .ok (literal, rest)) :
    rest.length ≤ s.length := by
  unfold readLiteral at h
  split at h
  · simp_all
  · rename_i c t
    split at h
    · split at h
      · simp at h
      · rename_i d after e
        have := length_dropWhile_le (· ≠ c) t
        rw [e] at this
        simp only [Except.ok.injEq, Prod.mk.injEq] at h
        simp only [← h.2, List.length_cons] at this ⊢; omega
    · simp only [Except.ok.injEq, Prod.mk.injEq] at h
      rw [← h.2]; exact length_dropWhile_le _ _

theorem closePredicate_length {opened s rest : List Char} {p q : Predicate} (h : closePredicate opened p s = .ok (q, rest)) :
    rest.length < s.length := by
  unfold closePredicate at h
  split at h
  · rename_i r e
    have := length_dropWhile_le isBlank s
    rw [trimStart] at e
    rw [e] at this
    simp only [Except.ok.injEq, Prod.mk.injEq] at h
    simp only [← h.2, List.length_cons] at this ⊢; omega
  · simp at h

theorem readPredicate_length {opened s rest : List Char} {p : Predicate} (h : readPredicate opened s = .ok (p, rest)) :
    rest.length < s.length := by
  have blanks := length_dropWhile_le isBlank
  unfold readPredicate at h
  split at h
  · rename_i test e
    have start := blanks s
    rw [trimStart] at e
    rw [e] at start
    cases hn : readName test with
    | error stop => simp [hn, bind, Except.bind] at h
    | ok read =>
      obtain ⟨name, after⟩ := read
      have shorter := readName_length hn
      have after' := blanks after
      simp only [hn, bind, Except.bind] at h
      split at h
      · rename_i value e'
        rw [trimStart] at e'
        rw [e'] at after'
        have value' := blanks value
        cases hl : readLiteral opened (trimStart value) with
        | error stop => simp [hl] at h
        | ok read' =>
          obtain ⟨literal, last⟩ := read'
          simp only [hl] at h
          have := readLiteral_length hl
          have := closePredicate_length h
          simp only [trimStart, List.length_cons] at *; omega
      · have := closePredicate_length h
        simp only [trimStart, List.length_cons] at *; omega
  · dsimp only at h
    split at h
    · simp at h
    · split at h
      · have := closePredicate_length h
        have := length_dropWhile_le (· ≠ ']') (trimStart s)
        have := blanks s
        simp only [fromBracket, trimStart] at *; omega
      · simp at h

def readPredicates : List Char → Except Stop (List Predicate × List Char)
  | '[' :: s =>
    match _h : readPredicate ('[' :: s) s with
    | .error stop => .error stop
    | .ok (predicate, rest) =>
      match readPredicates rest with
      | .error stop => .error stop
      | .ok (predicates, rest) => .ok (predicate :: predicates, rest)
  | s => .ok ([], s)
termination_by s => s.length
decreasing_by have := readPredicate_length _h; simp only [List.length_cons]; omega

theorem readPredicates_length {s rest : List Char} {ps : List Predicate} (h : readPredicates s = .ok (ps, rest)) :
    rest.length ≤ s.length := by
  fun_induction readPredicates s generalizing ps rest with
  | case1 => simp at h
  | case2 => simp at h
  | case3 s predicate rest' hp predicates rest'' hps ih =>
    have := readPredicate_length hp
    have := ih hps
    simp only [Except.ok.injEq, Prod.mk.injEq] at h
    simp only [← h.2, List.length_cons]; omega
  | case4 => simp_all

def readNameTest : List Char → Except Stop (String × List Char)
  | '*' :: rest => .ok ("*", rest)
  | s => readName s

theorem readNameTest_length {s rest : List Char} {name : String} (h : readNameTest s = .ok (name, rest)) :
    rest.length < s.length := by
  unfold readNameTest at h
  split at h
  · simp only [Except.ok.injEq, Prod.mk.injEq] at h
    simp [← h.2]
  · exact readName_length h

def readSegment (axis : Axis) (s : List Char) : Except Stop (Segment × List Char) :=
  match readNameTest s with
  | .error stop => .error stop
  | .ok (name, rest) =>
    match readPredicates rest with
    | .error stop => .error stop
    | .ok (predicates, rest) => .ok (⟨axis, name, predicates⟩, rest)

theorem readSegment_length {axis : Axis} {s rest : List Char} {segment : Segment}
    (h : readSegment axis s = .ok (segment, rest)) : rest.length < s.length := by
  unfold readSegment at h
  split at h
  · simp at h
  · rename_i hn
    split at h
    · simp at h
    · rename_i hp
      have := readNameTest_length hn
      have := readPredicates_length hp
      simp only [Except.ok.injEq, Prod.mk.injEq] at h
      simp only [← h.2]; omega

/-- a separator that must have something after it -/
def readSeparator : List Char → Except Stop (Axis × List Char)
  | '/' :: '/' :: [] => .error ⟨.trailingSlash, []⟩
  | '/' :: '/' :: rest => .ok (.descendant, rest)
  | '/' :: [] => .error ⟨.trailingSlash, []⟩
  | '/' :: rest => .ok (.child, rest)
  | [] => .error ⟨.trailingSlash, []⟩
  | c :: rest => .error ⟨.unexpectedChar c, c :: rest⟩

theorem readSeparator_length {s rest : List Char} {axis : Axis} (h : readSeparator s = .ok (axis, rest)) :
    rest.length < s.length := by
  unfold readSeparator at h
  split at h
  · simp at h
  · simp only [Except.ok.injEq, Prod.mk.injEq] at h
    simp only [← h.2, List.length_cons]; omega
  · simp at h
  · simp only [Except.ok.injEq, Prod.mk.injEq] at h
    simp only [← h.2, List.length_cons]; omega
  · simp at h
  · simp at h

/-- segments up to the end of the text -/
def readSegments (axis : Axis) (s : List Char) : Except Stop (List Segment) :=
  match _h : readSegment axis s with
  | .error stop => .error stop
  | .ok (segment, []) => .ok [segment]
  | .ok (segment, c :: rest) =>
    match _h' : readSeparator (c :: rest) with
    | .error stop => .error stop
    | .ok (axis, rest) =>
      match readSegments axis rest with
      | .error stop => .error stop
      | .ok segments => .ok (segment :: segments)
termination_by s.length
decreasing_by
  have := readSegment_length _h
  have := readSeparator_length _h'
  omega

/-- the segments of a trimmed text, by the separator that it starts with -/
def readPath : List Char → Except Stop Locator
  | '/' :: '/' :: rest => (readSegments .descendant rest).map (⟨false, ·⟩)
  | '/' :: rest => (readSegments .child rest).map (⟨false, ·⟩)
  | s => (readSegments .child s).map (⟨true, ·⟩)

/-- the locator that a text stands for; positions count from the first character that is not blank -/
def parse (text : String) : Except LocatorError Locator :=
  let s := trim text.toList
  if s.isEmpty then .error .empty
  else (readPath s).mapError fun stop => .malformed stop.fault (byteSize s - byteSize stop.rest)

end XmlStore.Locator
