import SchemaUnnest.Json
import SchemaUnnest.Schema.Keyword

namespace SchemaUnnest.Json

def isReference (node : Json) : Bool := node.has Keyword.ref

def properties? (node : Json) : Option Fields := node.object? Keyword.properties

/-- The definitions that unnesting begins with: none yet if the root has no such member, and no answer if
the member is no object. -/
def definitions? (root : Json) : Option Fields :=
  match root.get? Keyword.definitions with
  | none => some []
  | some (.obj definitions) => some definitions
  | some _ => none

def hasProperties (node : Json) : Bool := node.properties?.isSome

def isNestedObject (value : Json) : Bool := !value.isReference && value.hasProperties

def itemSchema? (value : Json) : Option Json :=
  if value.isReference then none
  else (value.get? Keyword.items).filter fun item => item.isObject && !item.isReference

def hasInlineItems (value : Json) : Bool := value.itemSchema?.isSome

def isInline (value : Json) : Bool := value.isNestedObject || value.itemSchema?.any hasProperties

def holdsNested (node : Json) : Bool :=
  !node.isReference && node.properties?.any fun properties => properties.any fun (_, value) => value.isInline

def reference (pointer : Text) : Json := .obj [(Keyword.ref, .str pointer)]

theorem properties?_eq_some {node : Json} {properties : Fields} :
    node.properties? = some properties ↔ node.get? Keyword.properties = some (.obj properties) := by
  unfold properties? object?
  constructor
  · intro h
    split at h
    · rename_i fields found
      cases h
      exact found
    · cases h
  · intro h
    rw [h]

theorem isReference_eq (node : Json) : node.isReference = (node.get? Keyword.ref).isSome := by
  cases node <;> rfl

theorem isReference_reference (pointer : Text) : (reference pointer).isReference := by
  simp [reference, isReference, has, Entries.has, Entries.get?]

theorem isNestedObject_of_isReference {value : Json} (h : value.isReference) : value.isNestedObject = false := by
  simp [isNestedObject, h]

theorem itemSchema?_of_isReference {value : Json} (h : value.isReference) : value.itemSchema? = none := by
  simp [itemSchema?, h]

theorem itemSchema?_eq_some {value item : Json} (h : value.itemSchema? = some item) :
    value.isReference = false ∧ value.get? Keyword.items = some item ∧ item.isObject ∧ item.isReference = false := by
  unfold itemSchema? at h
  split at h
  · cases h
  · rename_i reference
    obtain ⟨found, kept⟩ := Option.filter_eq_some_iff.1 h
    simp only [Bool.and_eq_true, Bool.not_eq_true'] at kept
    exact ⟨by simpa using reference, found, kept.1, kept.2⟩

theorem definitions?_cases {root : Json} {start : Fields} (begins : root.definitions? = some start) :
    start = [] ∨ root.get? Keyword.definitions = some (.obj start) := by
  unfold definitions? at begins
  split at begins
  · cases begins
    exact Or.inl rfl
  · rename_i held
    cases begins
    exact Or.inr held
  · cases begins

theorem properties?_set_definitions (root definitions : Json) :
    (root.set Keyword.definitions definitions).properties? = root.properties? := by
  have other : Keyword.definitions ≠ Keyword.properties := by decide
  cases root with
  | obj fields => simp [properties?, object?, get?, set, Entries.get?_set_of_ne other]
  | _ => rfl

end SchemaUnnest.Json
