/-
Attributes, written and read again.

Main statements:
- `readAttributes_written`: well-formed attributes are read back from what is written for them.
- `wellFormed_of_readAttributes`: attributes that were read are well formed, and so is the name of their element.
-/
import XmlStore.Proofs.Names
import XmlStore.Proofs.Outcomes
import XmlStore.Proofs.Xml.Content
import XmlStore.Proofs.Xml.Escaping
import XmlStore.Xml.Tag

namespace XmlStore.Xml

open Text

theorem checkName_of_isName {name : String} (h : isName name = true) : checkName name = .ok () := by
  simp [checkName, h]

theorem isName_of_checkName {name : String} {u : Unit} (h : checkName name = .ok u) : isName name = true := by
  unfold checkName at h
  split at h
  · assumption
  · exact nomatch h

theorem checkChars_eq_ok {place : Place} {s : List Char} : checkChars place s = .ok () ↔ XmlText s := by
  unfold checkChars XmlText
  cases hf : s.find? (!isXmlChar ·) with
  | none =>
    rw [List.find?_eq_none] at hf
    simpa using hf
  | some c =>
    have hc := List.find?_some hf
    have hm := List.mem_of_find?_eq_some hf
    refine ⟨fun h => by simp at h, ?_⟩
    intro h
    rw [h c hm] at hc
    exact absurd hc (by decide)

namespace TagReader

/-! ## Written attributes -/

variable {element : String} {seen : List (String × Nat)} {attributes : Attributes}

theorem step_of_turn {r r' : TagReader} {c : Char} (h : turn element r c = .ok r') :
    step element r c = .ok { r' with position := r'.position + c.utf8Size } := by
  rw [step, h, ok_map]

theorem foldlM_key {key : List Char} (hk : ∀ c ∈ key, isNameChar c = true) (position start : Nat) (begun : List Char) :
    ∃ position', key.foldlM (step element) ⟨position, seen, attributes, .key start begun⟩ =
      .ok ⟨position', seen, attributes, .key start (key.reverse ++ begun)⟩ := by
  induction key generalizing position begun with
  | nil => exact ⟨position, rfl⟩
  | cons c key ih =>
    have hc := hk c List.mem_cons_self
    have ht : turn element ⟨position, seen, attributes, .key start begun⟩ c =
        .ok ⟨position, seen, attributes, .key start (c :: begun)⟩ := by
      simp [turn, isNameChar_ne hc (d := '=') (by decide), isMarkupBlank_of_isNameChar hc]
    obtain ⟨position', h⟩ := ih (fun d hd => hk d (List.mem_cons_of_mem c hd)) (position + c.utf8Size) (c :: begun)
    refine ⟨position', foldlM_cons_eq_ok.2 ⟨_, step_of_turn ht, ?_⟩⟩
    rw [h, List.reverse_cons, List.append_assoc]; rfl

theorem foldlM_value {name : String} {quote : Char} {value : List Char} (hv : quote ∉ value) (position : Nat)
    (begun : List Char) :
    ∃ position', value.foldlM (step element) ⟨position, seen, attributes, .value name quote begun⟩ =
      .ok ⟨position', seen, attributes, .value name quote (value.reverse ++ begun)⟩ := by
  induction value generalizing position begun with
  | nil => exact ⟨position, rfl⟩
  | cons c value ih =>
    have hc : c ≠ quote := fun e => hv (by rw [e]; exact List.mem_cons_self)
    have ht : turn element ⟨position, seen, attributes, .value name quote begun⟩ c =
        .ok ⟨position, seen, attributes, .value name quote (c :: begun)⟩ := by
      simp [turn, hc]
    obtain ⟨position', h⟩ := ih (fun hm => hv (List.mem_cons_of_mem c hm)) (position + c.utf8Size) (c :: begun)
    refine ⟨position', foldlM_cons_eq_ok.2 ⟨_, step_of_turn ht, ?_⟩⟩
    rw [h, List.reverse_cons, List.append_assoc]; rfl

theorem readAttribute_escaped {key value : String} (hk : isName key = true) (hv : XmlText value.toList) :
    readAttribute element key (escapeValue value.toList) = .ok (key, value) := by
  simp [readAttribute, checkName_of_isName hk, resolve_escapeValue, checkChars_eq_ok.2 hv]

theorem lookup_eq_none {key : String} (h : key ∉ seen.map Prod.fst) : seen.lookup key = none := by
  rw [List.lookup_eq_none_iff]
  intro p hp
  rw [bne_iff_ne]
  rintro rfl
  exact h (List.mem_map_of_mem hp)

/-- one written attribute is read, and the tag is as before it but for that -/
theorem foldlM_renderAttribute {key value : String} (hk : isName key = true) (hv : XmlText value.toList)
    (hs : key ∉ seen.map Prod.fst) (position : Nat) :
    ∃ position' start, (renderAttribute key value).foldlM (step element) ⟨position, seen, attributes, .gap⟩ =
      .ok ⟨position', seen ++ [(key, start)], attributes ++ [(key, value)], .gap⟩ := by
  obtain ⟨c, rest, e, hc, hrest⟩ := isName_cons hk
  have written : renderAttribute key value = ' ' :: c :: (rest ++ '=' :: '"' :: (escapeValue value.toList ++ ['"'])) := by
    simp [renderAttribute, e]
  have first : turn element ⟨position + 1, seen, attributes, .gap⟩ c =
      .ok ⟨position + 1, seen, attributes, .key (position + 1) [c]⟩ := by
    simp [turn, isMarkupBlank_of_isNameChar (isNameChar_of_isNameStart hc)]
  obtain ⟨p, hname⟩ : ∃ p, rest.foldlM (step element)
      ⟨position + 1 + c.utf8Size, seen, attributes, .key (position + 1) [c]⟩ =
        .ok ⟨p, seen, attributes, .key (position + 1) (rest.reverse ++ [c])⟩ :=
    foldlM_key hrest _ _ _
  have whole : String.ofList (rest.reverse ++ [c]).reverse = key := by
    simp [← e]
  have equals : turn element ⟨p, seen, attributes, .key (position + 1) (rest.reverse ++ [c])⟩ '=' =
      .ok ⟨p, seen ++ [(key, position + 1)], attributes, .equals key⟩ := by
    simp only [turn, endKey, if_true, whole, lookup_eq_none hs]
  obtain ⟨q, hvalue⟩ : ∃ q, (escapeValue value.toList).foldlM (step element)
      ⟨p + 1 + 1, seen ++ [(key, position + 1)], attributes, .value key '"' []⟩ =
        .ok ⟨q, seen ++ [(key, position + 1)], attributes, .value key '"' ((escapeValue value.toList).reverse ++ [])⟩ :=
    foldlM_value (fun h => (mem_escapeValue h).2.2 rfl) _ _
  have last : turn element
      ⟨q, seen ++ [(key, position + 1)], attributes, .value key '"' ((escapeValue value.toList).reverse ++ [])⟩ '"' =
        .ok ⟨q, seen ++ [(key, position + 1)], attributes ++ [(key, value)], .gap⟩ := by
    simp [turn, readAttribute_escaped hk hv]
  refine ⟨q + 1, position + 1, ?_⟩
  rw [written]
  refine foldlM_cons_eq_ok.2 ⟨_, rfl, foldlM_cons_eq_ok.2 ⟨_, step_of_turn first, ?_⟩⟩
  rw [List.foldlM_append, hname, ok_bind']
  refine foldlM_cons_eq_ok.2 ⟨_, step_of_turn equals, foldlM_cons_eq_ok.2 ⟨_, rfl, ?_⟩⟩
  rw [List.foldlM_append]
  refine bind_eq_ok.2 ⟨_, hvalue, foldlM_cons_eq_ok.2 ⟨_, step_of_turn last, rfl⟩⟩

/-- the written form of attributes, which is what follows the name in a tag -/
def written (attributes : Attributes) : List Char :=
  attributes.flatMap fun (key, value) => renderAttribute key value

theorem written_cons (key value : String) (attributes : Attributes) :
    written ((key, value) :: attributes) = renderAttribute key value ++ written attributes := rfl

theorem foldlM_written {more : Attributes} (hd : (seen.map Prod.fst ++ more.map Prod.fst).Nodup)
    (hn : ∀ a ∈ more, isName a.1 = true) (hv : ∀ a ∈ more, XmlText a.2.toList) (position : Nat) :
    ∃ position' seen', (written more).foldlM (step element) ⟨position, seen, attributes, .gap⟩ =
      .ok ⟨position', seen', attributes ++ more, .gap⟩ := by
  induction more generalizing seen attributes position with
  | nil => exact ⟨position, seen, by simp [written, pure, Except.pure]⟩
  | cons a more ih =>
    obtain ⟨key, value⟩ := a
    have fresh : key ∉ seen.map Prod.fst := by
      intro h
      exact (List.nodup_append.1 hd).2.2 key h key (by simp) rfl
    obtain ⟨p, start, h⟩ := foldlM_renderAttribute (hn _ List.mem_cons_self) (hv _ List.mem_cons_self) fresh position
    have distinct : ((seen ++ [(key, start)]).map Prod.fst ++ more.map Prod.fst).Nodup := by simpa using hd
    have names : ∀ a ∈ more, isName a.1 = true := fun a ha => hn a (List.mem_cons_of_mem _ ha)
    have values : ∀ a ∈ more, XmlText a.2.toList := fun a ha => hv a (List.mem_cons_of_mem _ ha)
    obtain ⟨p', seen', h'⟩ := ih distinct names values p
    refine ⟨p', seen', ?_⟩
    rw [written_cons, List.foldlM_append]
    refine bind_eq_ok.2 ⟨_, h, ?_⟩
    rw [List.append_assoc] at h'
    exact h'

end TagReader

/-- **Written attributes are read back**, after a name that is one. -/
theorem readAttributes_written {name : String} {attributes : Attributes} (hn : isName name = true)
    (ha : attributes.WellFormed) : readAttributes name (TagReader.written attributes) = .ok attributes := by
  have distinct : (([] : List (String × Nat)).map Prod.fst ++ attributes.map Prod.fst).Nodup := ha.distinct
  obtain ⟨position, seen, h⟩ : ∃ position seen, (TagReader.written attributes).foldlM (TagReader.step name)
      ⟨byteSize name.toList, [], [], .gap⟩ = .ok ⟨position, seen, [] ++ attributes, .gap⟩ :=
    TagReader.foldlM_written distinct ha.names ha.values _
  simp [readAttributes, checkName_of_isName hn, h, TagReader.finish]

/-! ## Read attributes -/

namespace TagReader

variable {element : String}

/-- the key whose value is still to come -/
def awaited : TagSpot → List String
  | .equals name => [name]
  | .value name _ _ => [name]
  | _ => []

/-- what holds of a tag however far it has been read: the keys are distinct, and what is complete has passed its checks -/
structure Sound (r : TagReader) : Prop where
  distinct : (r.seen.map Prod.fst).Nodup
  seen : r.seen.map Prod.fst = r.attributes.map Prod.fst ++ awaited r.spot
  names : ∀ a ∈ r.attributes, isName a.1 = true
  values : ∀ a ∈ r.attributes, XmlText a.2.toList

theorem Sound.move {r : TagReader} (h : r.Sound) {spot : TagSpot} (hs : awaited spot = awaited r.spot) (position : Nat) :
    Sound { r with position, spot } :=
  ⟨h.distinct, by rw [h.seen, hs], h.names, h.values⟩

theorem not_mem_of_lookup {seen : List (String × Nat)} {key : String} (h : seen.lookup key = none) :
    key ∉ seen.map Prod.fst := by
  intro hm
  obtain ⟨p, hp, rfl⟩ := List.mem_map.1 hm
  have := List.lookup_eq_none_iff.1 h p hp
  rw [bne_self_eq_false] at this
  exact absurd this (by decide)

theorem endKey_sound {r r' : TagReader} {start : Nat} {name : List Char} (h : r.Sound) (hs : awaited r.spot = [])
    (he : endKey element r start name = .ok r') : r'.Sound := by
  unfold endKey at he
  dsimp only at he
  split at he
  · simp [fail] at he
  · rename_i hl
    cases he
    refine ⟨?_, ?_, h.names, h.values⟩
    · rw [List.map_append, List.nodup_append]
      refine ⟨h.distinct, by simp, ?_⟩
      intro a ha b hb hab
      simp only [List.map_cons, List.map_nil, List.mem_singleton] at hb
      rw [hab, hb] at ha
      exact not_mem_of_lookup hl ha
    · rw [List.map_append, h.seen, hs, List.append_nil]; rfl

theorem readAttribute_sound {key : String} {raw : List Char} {a : String × String}
    (h : readAttribute element key raw = .ok a) : a.1 = key ∧ isName key = true ∧ XmlText a.2.toList := by
  simp only [readAttribute, bind_eq_ok, mapError_eq_ok, pure_ok, Except.ok.injEq] at h
  obtain ⟨_, hn, value, _, _, hc, rfl⟩ := h
  exact ⟨rfl, isName_of_checkName hn, by simpa using checkChars_eq_ok.1 hc⟩

theorem turn_sound {r r' : TagReader} {c : Char} (h : r.Sound) (ht : turn element r c = .ok r') : r'.Sound := by
  unfold turn at ht
  split at ht
  · rename_i hs
    split at ht <;> cases ht
    · exact h
    · exact h.move (by rw [hs]; rfl) r.position
  · rename_i start name hs
    split at ht
    · exact endKey_sound h (by rw [hs]; rfl) ht
    · split at ht <;> cases ht
      · exact h.move (by rw [hs]; rfl) r.position
      · exact h.move (by rw [hs]; rfl) r.position
  · rename_i start name hs
    split at ht
    · cases ht; exact h
    · split at ht
      · exact endKey_sound h (by rw [hs]; rfl) ht
      · simp [fail] at ht
  · rename_i name hs
    split at ht
    · cases ht; exact h
    · split at ht
      · cases ht; exact h.move (by rw [hs]; rfl) r.position
      · simp [fail] at ht
  · rename_i name quote text hs
    split at ht
    · obtain ⟨a, ha, rfl⟩ := map_eq_ok.1 ht
      obtain ⟨hk, hn, hv⟩ := readAttribute_sound ha
      refine ⟨h.distinct, ?_, ?_, ?_⟩
      · rw [h.seen, hs, List.map_append, ← hk]; simp [awaited]
      · intro b hb
        rcases List.mem_append.1 hb with hb | hb
        · exact h.names b hb
        · rw [List.mem_singleton.1 hb, hk]; exact hn
      · intro b hb
        rcases List.mem_append.1 hb with hb | hb
        · exact h.values b hb
        · rw [List.mem_singleton.1 hb]; exact hv
    · cases ht
      exact h.move (by rw [hs]; rfl) r.position

theorem step_sound (element : String) (r : TagReader) (c : Char) (r' : TagReader) (h : r.Sound)
    (hs : step element r c = .ok r') : r'.Sound := by
  obtain ⟨m, hm, rfl⟩ := map_eq_ok.1 hs
  exact (turn_sound h hm).move rfl _

theorem finish_sound {r : TagReader} {attributes : Attributes} (h : r.Sound) (hf : r.finish element = .ok attributes) :
    attributes.WellFormed := by
  unfold finish at hf
  split at hf
  · rename_i hs
    cases hf
    refine ⟨?_, h.names, h.values⟩
    have := h.distinct
    rw [h.seen, hs] at this
    simpa [awaited] using this
  all_goals simp [fail] at hf

end TagReader

/-- **Read attributes are well formed**, and the name before them is one. -/
theorem wellFormed_of_readAttributes {name : String} {rest : List Char} {attributes : Attributes}
    (h : readAttributes name rest = .ok attributes) : isName name = true ∧ attributes.WellFormed := by
  simp only [readAttributes, bind_eq_ok] at h
  obtain ⟨_, hn, r, hr, hf⟩ := h
  refine ⟨isName_of_checkName hn, TagReader.finish_sound ?_ hf⟩
  exact foldlM_keeps (TagReader.step_sound name) ⟨by simp, rfl, by simp, by simp⟩ hr

end XmlStore.Xml
