/-
Forests as sequences of siblings.

What `append`, `elements` and `erase` do to each other.
-/
import XmlStore.Xml.Forest

namespace XmlStore.Xml.Forest

variable {ι : Type}

/-! ## One sequence after another -/

@[simp] theorem append_nil (f : Forest ι) : f.append .nil = f := by
  induction f with
  | nil => rfl
  | leaf mark kind value next ih => rw [append, ih]
  | element mark name attributes children next _ ihn => rw [append, ihn]

theorem append_assoc (f g h : Forest ι) : (f.append g).append h = f.append (g.append h) := by
  induction f with
  | nil => rfl
  | leaf mark kind value next ih => simp only [append, ih]
  | element mark name attributes children next _ ihn => simp only [append, ihn]

theorem size_append (f g : Forest ι) : (f.append g).size = f.size + g.size := by
  induction f with
  | nil => simp [append, size]
  | leaf mark kind value next ih => simp only [append, size, ih]; omega
  | element mark name attributes children next _ ihn => simp only [append, size, ihn]; omega

/-! ## The elements among the siblings -/

@[simp] theorem elements_nil : (nil : Forest ι).elements = [] := rfl

@[simp] theorem elements_leaf (mark : ι) (kind : LeafKind) (value : String) (next : Forest ι) :
    (leaf mark kind value next).elements = next.elements := rfl

@[simp] theorem elements_element (mark : ι) (name : String) (attributes : Attributes) (children next : Forest ι) :
    (element mark name attributes children next).elements = ⟨mark, name, attributes, children⟩ :: next.elements := rfl

/-! ## Marks taken off -/

theorem erase_number (f : Forest Unit) (first : Nat) : (f.number first).erase = f := by
  induction f generalizing first with
  | nil => rfl
  | leaf mark kind value next ih => simp only [number, erase, ih]
  | element mark name attributes children next ihc ihn => simp only [number, erase, ihc, ihn]

end XmlStore.Xml.Forest
