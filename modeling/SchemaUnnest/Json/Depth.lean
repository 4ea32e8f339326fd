import SchemaUnnest.Json

namespace SchemaUnnest.Json

mutual

def deepest (level : Int) : Json → Int
  | .arr items => deepestItem level level items
  | .obj fields => deepestField level level fields
  | _ => level

def deepestItem (level found : Int) : List Json → Int
  | [] => found
  | item :: rest => deepestItem level (max found (item.deepest (level + 1))) rest

def deepestField (level found : Int) : List (Text × Json) → Int
  | [] => found
  | (_, value) :: rest => deepestField level (max found (value.deepest (level + 1))) rest

end

def depth (value : Json) : Int := value.deepest 0

mutual

theorem deepest_add (level more : Int) : ∀ value : Json, value.deepest (level + more) = value.deepest level + more
  | .arr items => by rw [deepest, deepest, deepestItem_add]
  | .obj fields => by rw [deepest, deepest, deepestField_add]
  | .null | .bool _ | .int _ | .float _ | .str _ => rfl

theorem deepestItem_add (level found more : Int) :
    ∀ items : List Json, deepestItem (level + more) (found + more) items = deepestItem level found items + more
  | [] => rfl
  | item :: rest => by
    have next : level + more + 1 = level + 1 + more := by omega
    have here : max (found + more) (item.deepest (level + 1) + more) = max found (item.deepest (level + 1)) + more := by
      omega
    rw [deepestItem, deepestItem, next, deepest_add (level + 1) more item, here, deepestItem_add]

theorem deepestField_add (level found more : Int) :
    ∀ fields : List (Text × Json),
      deepestField (level + more) (found + more) fields = deepestField level found fields + more
  | [] => rfl
  | (_, value) :: rest => by
    have next : level + more + 1 = level + 1 + more := by omega
    have here : max (found + more) (value.deepest (level + 1) + more) =
        max found (value.deepest (level + 1)) + more := by omega
    rw [deepestField, deepestField, next, deepest_add (level + 1) more value, here, deepestField_add]

end

theorem deepest_eq (level : Int) (value : Json) : value.deepest level = value.depth + level := by
  have shift := deepest_add 0 level value
  rw [Int.zero_add] at shift
  exact shift

theorem le_deepestItem (level found : Int) (items : List Json) : found ≤ deepestItem level found items := by
  induction items generalizing found with
  | nil => exact Int.le_refl _
  | cons item rest ih =>
    have later := ih (max found (item.deepest (level + 1)))
    rw [deepestItem]
    omega

theorem le_deepestField (level found : Int) (fields : Fields) : found ≤ deepestField level found fields := by
  induction fields generalizing found with
  | nil => exact Int.le_refl _
  | cons entry rest ih =>
    have later := ih (max found (entry.2.deepest (level + 1)))
    rw [deepestField]
    omega

theorem deepest_le_deepestItem (level found : Int) {items : List Json} {item : Json} (member : item ∈ items) :
    item.deepest (level + 1) ≤ deepestItem level found items := by
  induction items generalizing found with
  | nil => cases member
  | cons first rest ih =>
    rw [deepestItem]
    rcases List.mem_cons.1 member with rfl | member
    · have bound := le_deepestItem level (max found (item.deepest (level + 1))) rest
      omega
    · exact ih _ member

theorem deepest_le_deepestField (level found : Int) {fields : Fields} {key : Text} {value : Json}
    (member : (key, value) ∈ fields) : value.deepest (level + 1) ≤ deepestField level found fields := by
  induction fields generalizing found with
  | nil => cases member
  | cons first rest ih =>
    rw [deepestField]
    rcases List.mem_cons.1 member with rfl | member
    · have bound := le_deepestField level (max found (value.deepest (level + 1))) rest
      dsimp only
      omega
    · exact ih _ member

theorem depth_lt_of_mem_items {items : List Json} {item : Json} (member : item ∈ items) :
    item.depth < (arr items).depth := by
  have bound := deepest_le_deepestItem 0 0 member
  have own := deepest_eq (0 + 1) item
  show item.depth < deepestItem 0 0 items
  omega

theorem depth_lt_of_mem_fields {fields : Fields} {key : Text} {value : Json} (member : (key, value) ∈ fields) :
    value.depth < (obj fields).depth := by
  have bound := deepest_le_deepestField 0 0 member
  have own := deepest_eq (0 + 1) value
  show value.depth < deepestField 0 0 fields
  omega

theorem depth_nonneg (value : Json) : 0 ≤ value.depth := by
  cases value with
  | arr items => exact le_deepestItem 0 0 items
  | obj fields => exact le_deepestField 0 0 fields
  | _ => exact Int.le_refl _

theorem deepestItem_le {level found bound : Int} {items : List Json} (start : found ≤ bound)
    (each : ∀ item ∈ items, item.deepest (level + 1) ≤ bound) : deepestItem level found items ≤ bound := by
  induction items generalizing found with
  | nil => exact start
  | cons item rest ih =>
    have here := each item List.mem_cons_self
    rw [deepestItem]
    exact ih (by omega) fun other member => each other (List.mem_cons_of_mem _ member)

theorem deepestField_le {level found bound : Int} {fields : Fields} (start : found ≤ bound)
    (each : ∀ key value, (key, value) ∈ fields → value.deepest (level + 1) ≤ bound) :
    deepestField level found fields ≤ bound := by
  induction fields generalizing found with
  | nil => exact start
  | cons entry rest ih =>
    have here := each entry.1 entry.2 List.mem_cons_self
    rw [deepestField]
    exact ih (by omega) fun key value member => each key value (List.mem_cons_of_mem _ member)

theorem depth_arr_le {items : List Json} {bound : Int} (start : 0 ≤ bound)
    (each : ∀ item ∈ items, item.depth < bound) : (arr items).depth ≤ bound := by
  apply deepestItem_le start
  intro item member
  have here := each item member
  have own := deepest_eq (0 + 1) item
  omega

theorem depth_obj_le {fields : Fields} {bound : Int} (start : 0 ≤ bound)
    (each : ∀ key value, (key, value) ∈ fields → value.depth < bound) : (obj fields).depth ≤ bound := by
  apply deepestField_le start
  intro key value member
  have here := each key value member
  have own := deepest_eq (0 + 1) value
  omega

theorem depth_lt_of_get? {node value : Json} {key : Text} (h : node.get? key = some value) :
    value.depth < node.depth := by
  obtain ⟨fields, rfl, found⟩ := fields_of_get? h
  exact depth_lt_of_mem_fields (Entries.mem_of_get? found)

theorem depth_set_le {node new : Json} {bound : Int} (h : node.depth ≤ bound) (own : new.depth < bound) (key : Text) :
    (node.set key new).depth ≤ bound := by
  cases node with
  | obj fields =>
    have some := depth_nonneg new
    apply depth_obj_le (by omega)
    intro other value held
    rcases Entries.mem_set held with rfl | old
    · exact own
    · have below := depth_lt_of_mem_fields old
      omega
  | _ => exact h

end SchemaUnnest.Json
