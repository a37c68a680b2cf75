/-
Escaped text, read back.

Main statements:
- `resolve_escapeText`, `resolve_escapeValue`: replacing the references of an escaped text gives the text again.
- `mem_escapeText`, `mem_escapeValue`: which characters an escaped text never holds, so that it ends neither the run of text
  nor the quoted value that it is written into.
- `WritesReferences.refers`: an ampersand in an escaped text is the beginning of a reference.
- `flatMap_eq_self_iff`: the bytes of a text tell exactly whether there is nothing to escape in it.
- `escaping_invertible`: all of this for texts between tags and for quoted values.
-/
import XmlStore.Xml.Escape
import XmlStore.Xml.Reference

namespace XmlStore.Xml

/-! ## References undo escaping -/

/-- an escaping of single characters that references undo: what it writes for a character is read as that character -/
def Undone (escape : Char → List Char) : Prop :=
  ∀ (size position : Nat) (resolved : List Char) (c : Char), ∃ position',
    (escape c).foldlM (Resolution.step size) ⟨position, resolved, none⟩ = .ok ⟨position', c :: resolved, none⟩

theorem step_plain (size position : Nat) (resolved : List Char) {c : Char} (h : c ≠ '&') :
    [c].foldlM (Resolution.step size) ⟨position, resolved, none⟩ =
      .ok ⟨position + c.utf8Size, c :: resolved, none⟩ := by
  simp [Resolution.step, h]

theorem undone_escapeTextChar : Undone escapeTextChar := by
  intro size position resolved c
  unfold escapeTextChar
  split
  · exact ⟨_, rfl⟩
  · exact ⟨_, rfl⟩
  · exact ⟨_, rfl⟩
  · rename_i h _ _
    exact ⟨_, step_plain size position resolved h⟩

theorem undone_escapeValueChar : Undone escapeValueChar := by
  intro size position resolved c
  unfold escapeValueChar
  split
  · exact ⟨_, rfl⟩
  · exact ⟨_, rfl⟩
  · exact ⟨_, rfl⟩
  · exact ⟨_, rfl⟩
  · exact undone_escapeTextChar size position resolved c

theorem Undone.foldlM_flatMap {escape : Char → List Char} (h : Undone escape) (size position : Nat)
    (resolved s : List Char) : ∃ position',
      (s.flatMap escape).foldlM (Resolution.step size) ⟨position, resolved, none⟩ =
        .ok ⟨position', s.reverse ++ resolved, none⟩ := by
  induction s generalizing position resolved with
  | nil => exact ⟨position, rfl⟩
  | cons c s ih =>
    obtain ⟨middle, hc⟩ := h size position resolved c
    obtain ⟨last, hs⟩ := ih middle (c :: resolved)
    refine ⟨last, ?_⟩
    rw [List.flatMap_cons, List.foldlM_append, hc]
    simpa [bind, Except.bind] using hs

theorem Undone.resolve {escape : Char → List Char} (h : Undone escape) (s : List Char) :
    Xml.resolve (s.flatMap escape) = .ok s := by
  obtain ⟨position, hs⟩ := h.foldlM_flatMap (Text.byteSize (s.flatMap escape)) 0 [] s
  simp [Xml.resolve, hs, Except.bind, Resolution.finish]

theorem resolve_escapeText (s : List Char) : resolve (escapeText s) = .ok s := by
  rw [escapeText_eq, undone_escapeTextChar.resolve]

theorem resolve_escapeValue (s : List Char) : resolve (escapeValue s) = .ok s := by
  rw [escapeValue_eq, undone_escapeValueChar.resolve]

/-! ## What an escaped text does not hold -/

theorem unmarked_of_all {s : List Char} (h : s.all (fun d => decide (d ≠ '<' ∧ d ≠ '>' ∧ d ≠ '"')) = true) {d : Char}
    (hd : d ∈ s) : d ≠ '<' ∧ d ≠ '>' ∧ d ≠ '"' :=
  of_decide_eq_true (List.all_eq_true.1 h d hd)

/-- a quote between tags is written as it is, and only a quote is written as one -/
theorem mem_escapeTextChar {c d : Char} (h : d ∈ escapeTextChar c) : d ≠ '<' ∧ d ≠ '>' ∧ (c ≠ '"' → d ≠ '"') := by
  unfold escapeTextChar at h
  split at h
  · exact (unmarked_of_all (by decide) h).imp_right (And.imp_right fun quote _ => quote)
  · exact (unmarked_of_all (by decide) h).imp_right (And.imp_right fun quote _ => quote)
  · exact (unmarked_of_all (by decide) h).imp_right (And.imp_right fun quote _ => quote)
  · rename_i hl hg
    obtain rfl : d = c := List.mem_singleton.1 h
    exact ⟨hl, hg, id⟩

theorem mem_escapeText {s : List Char} {d : Char} (h : d ∈ escapeText s) : d ≠ '<' ∧ d ≠ '>' := by
  rw [escapeText_eq] at h
  obtain ⟨c, _, hd⟩ := List.mem_flatMap.1 h
  obtain ⟨open', close, -⟩ := mem_escapeTextChar hd
  exact ⟨open', close⟩

theorem mem_escapeValueChar {c d : Char} (h : d ∈ escapeValueChar c) : d ≠ '<' ∧ d ≠ '>' ∧ d ≠ '"' := by
  unfold escapeValueChar at h
  split at h
  · exact unmarked_of_all (by decide) h
  · exact unmarked_of_all (by decide) h
  · exact unmarked_of_all (by decide) h
  · exact unmarked_of_all (by decide) h
  · rename_i hq _ _ _
    obtain ⟨open', close, quote⟩ := mem_escapeTextChar h
    exact ⟨open', close, quote hq⟩

theorem mem_escapeValue {s : List Char} {d : Char} (h : d ∈ escapeValue s) : d ≠ '<' ∧ d ≠ '>' ∧ d ≠ '"' := by
  rw [escapeValue_eq] at h
  obtain ⟨c, _, hd⟩ := List.mem_flatMap.1 h
  exact mem_escapeValueChar hd

theorem unbroken_of_all {s : List Char} (h : s.all (fun d => decide (d ≠ '\n' ∧ d ≠ '\t' ∧ d ≠ '\r')) = true) {d : Char}
    (hd : d ∈ s) : d ≠ '\n' ∧ d ≠ '\t' ∧ d ≠ '\r' :=
  of_decide_eq_true (List.all_eq_true.1 h d hd)

/-- a character is a blank only where it is written as it is -/
theorem blank_mem_escapeTextChar {c d : Char} (h : d ∈ escapeTextChar c) :
    d = c ∨ (d ≠ '\n' ∧ d ≠ '\t' ∧ d ≠ '\r') := by
  unfold escapeTextChar at h
  split at h
  · exact Or.inr (unbroken_of_all (by decide) h)
  · exact Or.inr (unbroken_of_all (by decide) h)
  · exact Or.inr (unbroken_of_all (by decide) h)
  · exact Or.inl (List.mem_singleton.1 h)

/-- the blanks that a reader may turn into spaces are written by their numbers -/
theorem blank_mem_escapeValueChar {c d : Char} (h : d ∈ escapeValueChar c) : d ≠ '\n' ∧ d ≠ '\t' ∧ d ≠ '\r' := by
  unfold escapeValueChar at h
  split at h
  · exact unbroken_of_all (by decide) h
  · exact unbroken_of_all (by decide) h
  · exact unbroken_of_all (by decide) h
  · exact unbroken_of_all (by decide) h
  · rename_i newline tab back
    rcases blank_mem_escapeTextChar h with rfl | other
    · exact ⟨newline, tab, back⟩
    · exact other

/-! ## References in an escaped text -/

/-- every ampersand of a text is the beginning of one of the given references -/
def Refers (references : List (List Char)) (s : List Char) : Prop :=
  ∀ before after, s = before ++ '&' :: after → ∃ reference ∈ references, reference <+: '&' :: after

/-- the references in text between tags -/
def textReferences : List (List Char) :=
  [['&', 'a', 'm', 'p', ';'], ['&', 'l', 't', ';'], ['&', 'g', 't', ';']]

/-- the references in a value between double quotes -/
def valueReferences : List (List Char) :=
  textReferences ++
    [['&', 'q', 'u', 'o', 't', ';'], ['&', '#', '1', '0', ';'], ['&', '#', '9', ';'], ['&', '#', '1', '3', ';']]

/-- a character is written as it is, if it is no ampersand, or as one of the references, none of which has another ampersand in it -/
def WritesReferences (references : List (List Char)) (escape : Char → List Char) : Prop :=
  ∀ c, (escape c = [c] ∧ c ≠ '&') ∨ ∃ name, escape c = '&' :: name ∧ escape c ∈ references ∧ '&' ∉ name

theorem WritesReferences.refers {references : List (List Char)} {escape : Char → List Char}
    (h : WritesReferences references escape) (s : List Char) : Refers references (s.flatMap escape) := by
  induction s with
  | nil =>
    intro before after e
    simp at e
  | cons c rest ih =>
    intro before after e
    rw [List.flatMap_cons] at e
    rcases List.append_eq_append_iff.1 e with ⟨between, hbefore, hrest⟩ | ⟨between, hc, hafter⟩
    · exact ih between after hrest
    -- the ampersand is the first one that the character is written with, or it comes after all of these
    · cases between with
      | nil => exact ih [] after hafter.symm
      | cons d more =>
        rw [List.cons_append, List.cons.injEq] at hafter
        rcases hafter with ⟨rfl, rfl⟩
        rcases h c with ⟨plain, other⟩ | ⟨name, written, known, single⟩
        · rw [plain] at hc
          have member : '&' ∈ [c] := hc ▸ List.mem_append_right _ List.mem_cons_self
          exact absurd (List.mem_singleton.1 member).symm other
        · rw [written] at hc
          cases before with
          | nil =>
            rw [List.nil_append, List.cons.injEq] at hc
            refine ⟨escape c, known, rest.flatMap escape, ?_⟩
            rw [written, hc.2, List.cons_append]
          | cons first others =>
            rw [List.cons_append, List.cons.injEq] at hc
            exact absurd (hc.2 ▸ List.mem_append_right _ List.mem_cons_self) single

theorem writesReferences_text : WritesReferences textReferences escapeTextChar := by
  intro c
  unfold escapeTextChar
  split
  · exact Or.inr ⟨_, rfl, by decide, by decide⟩
  · exact Or.inr ⟨_, rfl, by decide, by decide⟩
  · exact Or.inr ⟨_, rfl, by decide, by decide⟩
  · rename_i other _ _
    exact Or.inl ⟨rfl, other⟩

theorem writesReferences_value : WritesReferences valueReferences escapeValueChar := by
  intro c
  unfold escapeValueChar
  split
  · exact Or.inr ⟨_, rfl, by decide, by decide⟩
  · exact Or.inr ⟨_, rfl, by decide, by decide⟩
  · exact Or.inr ⟨_, rfl, by decide, by decide⟩
  · exact Or.inr ⟨_, rfl, by decide, by decide⟩
  · rcases writesReferences_text c with plain | ⟨name, written, known, single⟩
    · exact Or.inl plain
    · exact Or.inr ⟨name, written, List.mem_append_left _ known, single⟩

/-! ## Texts that are left alone -/

/-- a character of ASCII is one byte, and all bytes of another character are above those -/
theorem utf8EncodeChar_cases (c : Char) :
    String.utf8EncodeChar c = [UInt8.ofNat c.toNat] ∧ c.toNat < 128 ∨ ∀ b ∈ String.utf8EncodeChar c, 128 ≤ b.toNat := by
  have code : c.val.toNat = c.toNat := rfl
  simp only [String.utf8EncodeChar, code]
  split
  · exact Or.inl ⟨rfl, by omega⟩
  · right
    split
    · simp only [List.forall_mem_cons, UInt8.toNat_ofNat', List.not_mem_nil, false_imp_iff, implies_true, and_true]
      omega
    · split
      · simp only [List.forall_mem_cons, UInt8.toNat_ofNat', List.not_mem_nil, false_imp_iff, implies_true, and_true]
        omega
      · simp only [List.forall_mem_cons, UInt8.toNat_ofNat', List.not_mem_nil, false_imp_iff, implies_true, and_true]
        omega

/-- a byte of ASCII occurs in the character that it stands for and in no other -/
theorem eq_of_mem_utf8EncodeChar {c d : Char} {b : UInt8} (h : b ∈ String.utf8EncodeChar c) (e : b = d.toUInt8)
    (ascii : d.toNat < 128) : c = d := by
  have value : b.toNat = d.toNat := by
    have code : d.val.toNat = d.toNat := rfl
    rw [e, Char.toUInt8, UInt32.toNat_toUInt8]
    omega
  rcases utf8EncodeChar_cases c with ⟨single, short⟩ | long
  · rw [single, List.mem_singleton] at h
    rw [h, UInt8.toNat_ofNat'] at value
    exact Char.toNat_inj.1 (by omega)
  · have above := long b h
    omega

/-- a character one of whose bytes asks for escaping is written with more characters -/
def Finds (asks : UInt8 → Bool) (escape : Char → List Char) : Prop :=
  ∀ c, (String.utf8EncodeChar c).any asks = true → 1 < (escape c).length

theorem finds_text : Finds isTextByte escapeTextChar := by
  intro c asked
  rw [List.any_eq_true] at asked
  rcases asked with ⟨b, hb, known⟩
  simp only [isTextByte, Bool.or_eq_true, beq_iff_eq] at known
  rcases known with (e | e) | e
  all_goals
    rw [eq_of_mem_utf8EncodeChar hb e (by decide)]
    decide

theorem finds_value : Finds isValueByte escapeValueChar := by
  intro c asked
  rw [List.any_eq_true] at asked
  rcases asked with ⟨b, hb, known⟩
  simp only [isValueByte, isTextByte, Bool.or_eq_true, beq_iff_eq] at known
  rcases known with ((((((e | e) | e) | e) | e) | e) | e)
  all_goals
    rw [eq_of_mem_utf8EncodeChar hb e (by decide)]
    decide

/-- **The bytes of a text** tell exactly whether its characters are all written as they are. -/
theorem flatMap_eq_self_iff {asks : UInt8 → Bool} {escape : Char → List Char} (spares : Spares asks escape)
    (finds : Finds asks escape) (s : List Char) : s.flatMap escape = s ↔ (utf8Bytes s).any asks = false := by
  have some : ∀ c, 1 ≤ (escape c).length := by
    intro c
    cases asked : (String.utf8EncodeChar c).any asks with
    | false => exact Nat.le_of_eq (congrArg List.length (spares c asked)).symm
    | true => exact Nat.le_of_lt (finds c asked)
  have grows : ∀ s : List Char, s.length ≤ (s.flatMap escape).length := by
    intro s
    induction s with
    | nil => exact Nat.le_refl _
    | cons c rest ih =>
      have here := some c
      rw [List.flatMap_cons, List.length_append, List.length_cons]
      omega
  constructor
  · intro same
    induction s with
    | nil => rfl
    | cons c rest ih =>
      have whole := congrArg List.length same
      have later := grows rest
      rw [List.flatMap_cons, List.length_append, List.length_cons] at whole
      cases asked : (String.utf8EncodeChar c).any asks with
      | true =>
        have here := finds c asked
        omega
      | false =>
        rw [List.flatMap_cons, spares c asked, List.singleton_append, List.cons.injEq] at same
        have silent := ih same.2
        rw [utf8Bytes] at silent ⊢
        rw [List.flatMap_cons, List.any_append, asked, silent, Bool.or_false]
  · exact spares.flatMap_eq

/-- **Escaping is undone by references and leaves nothing out.** What is written for a text, between tags or between double quotes, is
read as that text; it holds nothing that would end the text or the value, no blank that a reader may change, and no ampersand but those
of its references; it is what comes of writing one character after the other, which is left alone just when it would change nothing;
and texts that are written one after the other are written as one. -/
theorem escaping_invertible (s t : List Char) :
    (resolve (escapeText s) = .ok s ∧ resolve (escapeValue s) = .ok s) ∧
      ((∀ c ∈ escapeText s, c ≠ '<' ∧ c ≠ '>') ∧ Refers textReferences (escapeText s)) ∧
      ((∀ c ∈ escapeValue s, (c ≠ '<' ∧ c ≠ '>' ∧ c ≠ '"') ∧ c ≠ '\n' ∧ c ≠ '\t' ∧ c ≠ '\r') ∧
        Refers valueReferences (escapeValue s)) ∧
      ((escapeText s = s.flatMap escapeTextChar ∧ escapeValue s = s.flatMap escapeValueChar) ∧
        (s.flatMap escapeTextChar = s ↔ (utf8Bytes s).any isTextByte = false) ∧
        (s.flatMap escapeValueChar = s ↔ (utf8Bytes s).any isValueByte = false)) ∧
      escapeText (s ++ t) = escapeText s ++ escapeText t ∧ escapeValue (s ++ t) = escapeValue s ++ escapeValue t := by
  refine ⟨⟨resolve_escapeText s, resolve_escapeValue s⟩, ⟨?_, ?_⟩, ⟨?_, ?_⟩, ⟨⟨escapeText_eq s, escapeValue_eq s⟩, ?_, ?_⟩,
    escapeText_append s t, escapeValue_append s t⟩
  · exact fun c hc => mem_escapeText hc
  · rw [escapeText_eq]
    exact writesReferences_text.refers s
  · intro c hc
    refine ⟨mem_escapeValue hc, ?_⟩
    rw [escapeValue_eq] at hc
    obtain ⟨d, -, hd⟩ := List.mem_flatMap.1 hc
    exact blank_mem_escapeValueChar hd
  · rw [escapeValue_eq]
    exact writesReferences_value.refers s
  · exact flatMap_eq_self_iff spares_text finds_text s
  · exact flatMap_eq_self_iff spares_value finds_value s

end XmlStore.Xml
