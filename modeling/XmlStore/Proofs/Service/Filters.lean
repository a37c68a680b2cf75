/-
The attribute filter of a reading, and the attribute predicate of a locator.

A reading of the nodes that carry an attribute filters what the target picks out, which is in document order and has each element
once. A locator with the predicate on its last segment filters the candidates of each parent, after all predicates before. They come
to the same, and the reading tells besides whether there was anything to be filtered.

Main statements:
- `AsksFor.passes`: filter and predicate ask for the same of an element.
- `Occasion.carrying_narrowed`: what the reading answers, in terms of the locator with the predicate.
-/
import XmlStore.Proofs.Service.Readings
import XmlStore.Proofs.Xml.Predicates

namespace XmlStore.Service

open Xml

/-- a predicate that asks for an attribute, with the value that its literal stands for if one is given -/
def AsksFor (name : String) : Option String → Predicate → Prop
  | none, predicate => predicate = .hasAttribute name
  | some value, predicate => ∃ literal, predicate = .attributeEquals name literal ∧ Predicate.literalValue literal = value

variable {name : String} {value : Option String} {predicate : Predicate}

theorem AsksFor.unplaced (asks : AsksFor name value predicate) : predicate.Unplaced := by
  cases value with
  | none => rw [asks]; trivial
  | some value => obtain ⟨literal, rfl, -⟩ := asks; trivial

theorem AsksFor.passes (asks : AsksFor name value predicate) (e : Element Nat) :
    predicate.passes e.attributes = carries name value e := by
  unfold carries
  cases value with
  | none =>
    rw [asks, Predicate.passes]
    cases e.attributes.get? name <;> rfl
  | some value =>
    obtain ⟨literal, rfl, rfl⟩ := asks
    rw [Predicate.passes]
    cases e.attributes.get? name <;> rfl

theorem AsksFor.select_narrowed (asks : AsksFor name value predicate) {d : Document} (h : d.Numbered) (l : Locator) :
    d.select (l.narrowed predicate) = (d.select l).filter (carries name value) := by
  rw [Document.select_narrowed h asks.unplaced]
  exact List.filter_congr fun e _ => asks.passes e

/-- the filtered compact forms are those of the elements that are left, if there are any -/
theorem xmlCarrying_eq_found {hits : List (Element Nat)} {forms : List String} :
    xmlCarrying name value hits = .found forms ↔ allXml (hits.filter (carries name value)) = .found forms := by
  cases hits with
  | nil => rfl
  | cons first rest =>
    rw [Readings.xmlCarrying_cons]
    cases (first :: rest).filter (carries name value) <;> simp [allXml, lookupIn]

/-- a document that an operation goes on with was read -/
theorem numbered_of_opened {id : UInt64} {found : Except StoreError (Option Row)} {d : Document}
    (h : (opened id found).map Prod.snd = .ok d) : d.Numbered := by
  obtain ⟨⟨row, _⟩, loaded, rfl⟩ := map_eq_ok.1 h
  exact (Document.Built.parse (opened_eq_ok.1 loaded).2).numbered

/-- **The attribute filter and the attribute predicate agree.** On every occasion a reading of the nodes that carry an attribute finds
what the reading of all nodes finds with the predicate on the last segment of the locator, whatever segments and predicates come
before it. And where there is a document, it finds no node just if the locator picks out nothing, and finds only others just if the
locator picks out something and with the predicate nothing. -/
theorem Occasion.carrying_narrowed (asks : AsksFor name value predicate) (occasion : Occasion) (id : UInt64) (l : Locator) :
    let carrying := occasion.run (getNodesCarrying id (.locator l) name value)
    let narrowed := occasion.run (getAllXml id (.locator (l.narrowed predicate)))
    (∀ forms, carrying = .ok (.found forms) ↔ narrowed = .ok (.found forms)) ∧
      ∀ row d, occasion.fetched id = .ok (some row) → Document.parse row.content = .ok d →
        (carrying = .ok .notFound ↔ d.select l = []) ∧
          (carrying = .ok .empty ↔ d.select l ≠ [] ∧ d.select (l.narrowed predicate) = []) := by
  intro carrying narrowed
  have first : carrying = (Readings.ofLoaded (.locator l) name value [] ((opened id (occasion.fetched id)).map Prod.snd)).carrying :=
    congrArg Readings.carrying (occasion.readings_eq id (.locator l) name value [])
  have second : narrowed = (Readings.ofLoaded (.locator (l.narrowed predicate)) name value []
      ((opened id (occasion.fetched id)).map Prod.snd)).allXml :=
    congrArg Readings.allXml (occasion.readings_eq id (.locator (l.narrowed predicate)) name value [])
  constructor
  · intro forms
    rw [first, second]
    cases loaded : (opened id (occasion.fetched id)).map Prod.snd with
    | error failure => cases failure <;> simp [Readings.ofLoaded, Readings.failed, Readings.away]
    | ok d =>
      have kept := asks.select_narrowed (numbered_of_opened loaded) l
      simp only [Readings.ofLoaded, Except.ok.injEq, Target.select, kept]
      exact xmlCarrying_eq_found
  · intro row d found read
    have loaded : (opened id (occasion.fetched id)).map Prod.snd = .ok d := by
      rw [found]
      simp [opened, readContent, read]
    have agree : (Readings.ofLoaded (.locator l) name value [] (.ok d)).Agree (.locator l) name value (d.select l) :=
      Readings.agree_of d
    rw [first, loaded, asks.select_narrowed (Document.Built.parse read).numbered]
    refine ⟨agree.carryingNone, agree.carryingEmpty.trans (and_congr_right fun _ => ?_)⟩
    rw [List.filter_eq_nil_iff]
    exact forall_congr' fun e => forall_congr' fun _ => by rw [Bool.not_eq_true]

/-- a document in which the same element is reached from two others -/
def overlap : Row :=
  ⟨1, "overlap", "", "<r><a><b/><b k='v'/><a><b k='v'/><b/></a></a></r>", 1, 0, 0⟩

theorem Occasion.carrying_narrowed_overlap :
    let occasion : Occasion := .memory ⟨⟨⟨[overlap], [("overlap", 1)], 1⟩, true⟩, none⟩
    let l : Locator := ⟨false, [⟨.descendant, "a", []⟩, ⟨.descendant, "b", [.position 1]⟩]⟩
    let v := Predicate.attributeEquals "k" "'v'"
    let w := Predicate.attributeEquals "k" "w"
    let inner : Forest Unit := .element () "b" [("k", "v")] .nil (.element () "b" [] .nil .nil)
    let outer : Forest Unit := .element () "b" [] .nil (.element () "b" [("k", "v")] .nil (.element () "a" [] inner .nil))
    let d := Document.ofForest (.element () "r" [] (.element () "a" [] outer .nil) .nil)
    occasion.fetched 1 = .ok (some overlap) ∧ Document.parse overlap.content = .ok d ∧
      AsksFor "k" (some "v") v ∧ AsksFor "k" (some "w") w ∧
      occasion.run (getAllXml 1 (.locator l)) = .ok (.found ["<b/>", "<b k=\"v\"/>"]) ∧
      occasion.run (getAllXml 1 (.locator (l.narrowed v))) = .ok (.found ["<b k=\"v\"/>"]) ∧
      occasion.run (getNodesCarrying 1 (.locator l) "k" (some "v")) = .ok (.found ["<b k=\"v\"/>"]) ∧
      d.select l ≠ [] ∧ d.select (l.narrowed w) = [] ∧
      occasion.run (getNodesCarrying 1 (.locator l) "k" (some "w")) = .ok .empty := by
  intro occasion l v w inner outer d
  have found : occasion.fetched 1 = .ok (some overlap) := by decide +kernel
  have read : Document.parse overlap.content = .ok d := by decide +kernel
  have asksV : AsksFor "k" (some "v") v := ⟨"'v'", rfl, by decide +kernel⟩
  have asksW : AsksFor "k" (some "w") w := ⟨"w", rfl, by decide +kernel⟩
  have narrowed : occasion.run (getAllXml 1 (.locator (l.narrowed v))) = .ok (.found ["<b k=\"v\"/>"]) := by decide +kernel
  have hit : d.select l ≠ [] := by decide +kernel
  have missed : d.select (l.narrowed w) = [] := by decide +kernel
  exact ⟨found, read, asksV, asksW, by decide +kernel, narrowed, ((occasion.carrying_narrowed asksV 1 l).1 _).2 narrowed, hit, missed,
    ((occasion.carrying_narrowed asksW 1 l).2 overlap d found read).2.2 ⟨hit, missed⟩⟩

end XmlStore.Service
