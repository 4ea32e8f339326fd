import SchemaUnnest.Unnesting.Weight

namespace SchemaUnnest.Json

open Unnesting

mutual

def objectCount : Json → Nat
  | .arr items => objectCountItems items
  | .obj fields => objectCountFields fields + 1
  | _ => 0

def objectCountItems : List Json → Nat
  | [] => 0
  | item :: rest => item.objectCount + objectCountItems rest

def objectCountFields : List (Text × Json) → Nat
  | [] => 0
  | (_, value) :: rest => value.objectCount + objectCountFields rest

end

theorem objectCountFields_eq (fields : Fields) : objectCountFields fields = Entries.total objectCount fields := by
  induction fields with
  | nil => rfl
  | cons entry rest ih =>
    simp [objectCountFields, Entries.total, ih]

theorem total_objectCount_lt (fields : Fields) : Entries.total objectCount fields < (obj fields).objectCount := by
  rw [objectCount, objectCountFields_eq]
  omega

theorem objectCount_lt_of_get? {value member : Json} {key : Text} (h : value.get? key = some member) :
    member.objectCount < value.objectCount := by
  obtain ⟨fields, rfl, found⟩ := fields_of_get? h
  have part := Entries.total_erase objectCount found
  have whole := total_objectCount_lt fields
  omega

theorem objectCount_fragment_le {key : Text} {value : Json} {move : Move} (h : move? key value = some move) :
    move.fragment.objectCount ≤ value.objectCount := by
  rcases move?_eq_some h with ⟨-, rfl⟩ | ⟨-, item, hi, rfl⟩
  · exact Nat.le_refl _
  · have part := objectCount_lt_of_get? (itemSchema?_eq_some hi).2.1
    dsimp only
    omega

theorem isObject_fragment {node : Json} {move : Move} (h : move ∈ node.moves) : move.fragment.isObject := by
  obtain ⟨properties, -, mine⟩ := properties?_of_mem_moves h
  obtain ⟨key, value, -, found⟩ := mem_movesOf.1 mine
  rcases move?_eq_some found with ⟨object, rfl⟩ | ⟨-, item, hi, rfl⟩
  · simp only [isNestedObject, hasProperties, Bool.and_eq_true] at object
    obtain ⟨inner, hp⟩ := Option.isSome_iff_exists.1 object.2
    exact isObject_of_get? (properties?_eq_some.1 hp)
  · exact (itemSchema?_eq_some hi).2.2.1

theorem total_fragments_le (properties : Fields) :
    Entries.total objectCount ((movesOf properties).map Move.entry) ≤ Entries.total objectCount properties := by
  rw [Entries.total_perm objectCount ((movesOf_perm properties).map Move.entry)]
  induction properties with
  | nil => exact Nat.le_refl _
  | cons entry rest ih =>
    obtain ⟨key, value⟩ := entry
    cases h : move? key value with
    | none =>
      simp only [List.filterMap_cons, h, Entries.total] at ih ⊢
      omega
    | some move =>
      have here := objectCount_fragment_le h
      simp only [List.filterMap_cons, h, Entries.total, List.map_cons, Move.entry] at ih ⊢
      omega

theorem weight_le_of_fragments (counts : Move → Bool) {moves : List Move}
    (each : ∀ move ∈ moves, move.fragment.weight counts < move.fragment.objectCount) :
    moves.countP counts + Entries.total (weight counts) (moves.map Move.entry) ≤
      Entries.total objectCount (moves.map Move.entry) := by
  induction moves with
  | nil => exact Nat.le_refl _
  | cons move rest ih =>
    have here := each move List.mem_cons_self
    have later := ih fun other member => each other (List.mem_cons_of_mem _ member)
    have one : (if counts move then 1 else 0) ≤ 1 := by split <;> omega
    simp only [List.countP_cons, Entries.total, List.map_cons, Move.entry]
    omega

theorem weight_le_properties (counts : Move → Bool) {node : Json} {properties : Fields}
    (h : node.properties? = some properties)
    (each : ∀ move ∈ node.moves, move.fragment.weight counts < move.fragment.objectCount) :
    node.weight counts ≤ Entries.total objectCount properties := by
  have bound := weight_le_of_fragments counts each
  have fragments := total_fragments_le properties
  rw [weight_eq]
  rw [moves_of_properties? h] at bound ⊢
  omega

theorem weight_lt_objectCount (counts : Move → Bool) (node : Json) (object : node.isObject) :
    node.weight counts < node.objectCount := by
  have each : ∀ move ∈ node.moves, move.fragment.weight counts < move.fragment.objectCount :=
    fun move member => weight_lt_objectCount counts move.fragment (isObject_fragment member)
  cases hp : node.properties? with
  | none =>
    cases node with
    | obj fields =>
      have some := total_objectCount_lt fields
      rw [weight_of_moves_nil counts (by simp [moves, hp])]
      omega
    | _ => cases object
  | some properties =>
    have bound := weight_le_properties counts hp each
    have inner := total_objectCount_lt properties
    have whole := objectCount_lt_of_get? (properties?_eq_some.1 hp)
    omega
termination_by sizeOf node
decreasing_by exact sizeOf_fragment_lt member

theorem weight_le_objectCount (counts : Move → Bool) (node : Json) : node.weight counts ≤ node.objectCount := by
  cases hp : node.properties? with
  | none =>
    rw [weight_of_moves_nil counts (by simp [moves, hp])]
    exact Nat.zero_le _
  | some properties =>
    have object := isObject_of_get? (properties?_eq_some.1 hp)
    exact Nat.le_of_lt (weight_lt_objectCount counts node object)

theorem total_weight_le (counts : Move → Bool) (entries : Fields) :
    Entries.total (weight counts) entries ≤ Entries.total objectCount entries := by
  induction entries with
  | nil => exact Nat.le_refl _
  | cons entry rest ih =>
    have here := weight_le_objectCount counts entry.2
    simp only [Entries.total]
    omega

theorem weight_root_le (counts : Move → Bool) {root : Json} {start : Fields} (begins : root.definitions? = some start) :
    root.weight counts + Entries.total (weight counts) start ≤ root.objectCount := by
  unfold definitions? at begins
  split at begins
  · cases begins
    have own := weight_le_objectCount counts root
    simpa [Entries.total] using own
  · rename_i held
    cases begins
    obtain ⟨fields, rfl, found⟩ := fields_of_get? held
    -- two members of the root, so the objects of neither count for the other
    have apart : Keyword.definitions ≠ Keyword.properties := by decide
    have definitions := Entries.total_erase objectCount found
    have whole := total_objectCount_lt fields
    have below := total_weight_le counts start
    have inner := total_objectCount_lt start
    cases hp : (obj fields).properties? with
    | none =>
      rw [weight_of_moves_nil counts (by simp [moves, hp])]
      omega
    | some properties =>
      have own := weight_le_properties counts hp fun move member =>
        weight_lt_objectCount counts move.fragment (isObject_fragment member)
      have other : Entries.get? Keyword.properties (Entries.erase Keyword.definitions fields) = some (obj properties) :=
        Entries.get?_erase_of_ne apart fields ▸ properties?_eq_some.1 hp
      have rest := Entries.total_erase objectCount other
      have shape := total_objectCount_lt properties
      omega
  · cases begins

end SchemaUnnest.Json
