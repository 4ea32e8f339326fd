import SchemaUnnest.Binary64
import SchemaUnnest.Entries
import SchemaUnnest.Text

namespace SchemaUnnest

inductive Json where
  | null
  | bool (value : Bool)
  | int (value : Int)
  | float (value : Binary64)
  | str (value : Text)
  | arr (items : List Json)
  | obj (fields : List (Text × Json))

abbrev Fields := List (Text × Json)

namespace Json

instance : Inhabited Json := ⟨null⟩

mutual

def decEq : (a b : Json) → Decidable (a = b)
  | .null, .null => isTrue rfl
  | .bool a, .bool b => if h : a = b then isTrue (by rw [h]) else isFalse (by simpa using h)
  | .int a, .int b => if h : a = b then isTrue (by rw [h]) else isFalse (by simpa using h)
  | .float a, .float b => if h : a = b then isTrue (by rw [h]) else isFalse (by simpa using h)
  | .str a, .str b => if h : a = b then isTrue (by rw [h]) else isFalse (by simpa using h)
  | .arr a, .arr b => match decEqItems a b with
    | isTrue h => isTrue (by rw [h])
    | isFalse h => isFalse (by simpa using h)
  | .obj a, .obj b => match decEqFields a b with
    | isTrue h => isTrue (by rw [h])
    | isFalse h => isFalse (by simpa using h)
  | .null, .bool _ | .null, .int _ | .null, .float _ | .null, .str _ | .null, .arr _ | .null, .obj _
  | .bool _, .null | .bool _, .int _ | .bool _, .float _ | .bool _, .str _ | .bool _, .arr _ | .bool _, .obj _
  | .int _, .null | .int _, .bool _ | .int _, .float _ | .int _, .str _ | .int _, .arr _ | .int _, .obj _
  | .float _, .null | .float _, .bool _ | .float _, .int _ | .float _, .str _ | .float _, .arr _
  | .float _, .obj _
  | .str _, .null | .str _, .bool _ | .str _, .int _ | .str _, .float _ | .str _, .arr _ | .str _, .obj _
  | .arr _, .null | .arr _, .bool _ | .arr _, .int _ | .arr _, .float _ | .arr _, .str _ | .arr _, .obj _
  | .obj _, .null | .obj _, .bool _ | .obj _, .int _ | .obj _, .float _ | .obj _, .str _ | .obj _, .arr _ =>
    isFalse (by simp)

def decEqItems : (a b : List Json) → Decidable (a = b)
  | [], [] => isTrue rfl
  | [], _ :: _ | _ :: _, [] => isFalse (by simp)
  | a :: as, b :: bs => match decEq a b, decEqItems as bs with
    | isTrue h, isTrue hs => isTrue (by rw [h, hs])
    | isFalse h, _ => isFalse (by simp [h])
    | _, isFalse h => isFalse (by simp [h])

def decEqFields : (a b : List (Text × Json)) → Decidable (a = b)
  | [], [] => isTrue rfl
  | [], _ :: _ | _ :: _, [] => isFalse (by simp)
  | (k, a) :: as, (l, b) :: bs =>
    if hk : k = l then
      match decEq a b, decEqFields as bs with
      | isTrue h, isTrue hs => isTrue (by rw [hk, h, hs])
      | isFalse h, _ => isFalse (by simp [h])
      | _, isFalse h => isFalse (by simp [h])
    else isFalse (by simp [hk])

end

instance : DecidableEq Json := decEq

def get? (key : Text) : Json → Option Json
  | .obj fields => Entries.get? key fields
  | _ => none

def has (key : Text) : Json → Bool
  | .obj fields => Entries.has key fields
  | _ => false

/-- Stores a member of an object; what is no object stays as it is. -/
def set (node : Json) (key : Text) (new : Json) : Json :=
  match node with
  | .obj fields => .obj (Entries.set key new fields)
  | other => other

def isObject : Json → Bool
  | .obj _ => true
  | _ => false

def object? (key : Text) (value : Json) : Option Fields :=
  match value.get? key with
  | some (.obj fields) => some fields
  | _ => none

def typeName : Json → Text
  | .null => "NoneType"
  | .bool _ => "bool"
  | .int _ => "int"
  | .float _ => "float"
  | .str _ => "str"
  | .arr _ => "list"
  | .obj _ => "dict"

def at? : List Text → Json → Option Json
  | [], value => some value
  | key :: path, value => (value.get? key).bind (at? path)

def modifyAt (change : Json → Json) : List Text → Json → Json
  | [], value => change value
  | key :: path, value =>
    match value.get? key with
    | some member => value.set key (modifyAt change path member)
    | none => value

def setAt (root : Json) (path : List Text) (new : Json) : Json :=
  match path.reverse with
  | [] => new
  | key :: parents => modifyAt (·.set key new) parents.reverse root

theorem fields_of_get? {value member : Json} {key : Text} (h : value.get? key = some member) :
    ∃ fields, value = .obj fields ∧ Entries.get? key fields = some member := by
  cases value with
  | obj fields => exact ⟨fields, rfl, h⟩
  | _ => cases h

theorem isObject_of_get? {value member : Json} {key : Text} (h : value.get? key = some member) :
    value.isObject := by
  obtain ⟨fields, rfl, -⟩ := fields_of_get? h
  rfl

theorem has_of_get? {node value : Json} {key : Text} (held : node.get? key = some value) : node.has key := by
  obtain ⟨fields, rfl, found⟩ := fields_of_get? held
  simp [has, Entries.has, found]

theorem get?_set {node : Json} (object : node.isObject) (key other : Text) (new : Json) :
    (node.set key new).get? other = if key = other then some new else node.get? other := by
  cases node with
  | obj fields => exact Entries.get?_set key other new fields
  | _ => cases object

@[simp] theorem isObject_set (node : Json) (key : Text) (new : Json) : (node.set key new).isObject = node.isObject := by
  cases node <;> rfl

theorem set_set (node : Json) (key : Text) (new old : Json) : (node.set key old).set key new = node.set key new := by
  cases node <;> simp [set, Entries.set_set]

theorem set_of_get? {node value : Json} {key : Text} (h : node.get? key = some value) : node.set key value = node := by
  obtain ⟨fields, rfl, found⟩ := fields_of_get? h
  simp [set, Entries.set_of_get? found]

theorem set_comm {node : Json} {key other : Text} (h : key ≠ other) (held : node.has key) (value new : Json) :
    (node.set other new).set key value = (node.set key value).set other new := by
  cases node with
  | obj fields => simp [set, Entries.set_comm h (show Entries.has key fields from held)]
  | _ => rfl

end Json
end SchemaUnnest
