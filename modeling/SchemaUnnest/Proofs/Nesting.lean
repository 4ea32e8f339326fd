import SchemaUnnest.Proofs.Account
import SchemaUnnest.Schema.Validation

namespace SchemaUnnest

open Unnesting

namespace Json

theorem depth_reference (pointer : Text) : (reference pointer).depth = 1 := rfl

theorem one_le_depth_of_get? {node value : Json} {key : Text} (h : node.get? key = some value) : 1 ≤ node.depth := by
  have below := depth_lt_of_get? h
  have some := depth_nonneg value
  omega

/-- What has a fragment to give away is an object with a member. -/
theorem one_le_depth_of_move? {key : Text} {value : Json} {move : Move} (h : move? key value = some move) :
    1 ≤ value.depth := by
  rcases move?_eq_some h with ⟨object, -⟩ | ⟨-, item, found, -⟩
  · simp only [isNestedObject, hasProperties, Bool.and_eq_true] at object
    obtain ⟨inner, hp⟩ := Option.isSome_iff_exists.1 object.2
    exact one_le_depth_of_get? (properties?_eq_some.1 hp)
  · exact one_le_depth_of_get? (itemSchema?_eq_some found).2.1

/-- What a reference is put in place of may be flat, so this deepens a property, but by one level and to two. -/
theorem depth_flatValue_le (key : Text) (value : Json) :
    (flatValue key value).depth ≤ max value.depth (min (value.depth + 1) 2) := by
  cases h : move? key value with
  | none =>
    rw [flatValue_of_move?_none h]
    omega
  | some move =>
    have some := one_le_depth_of_move? h
    have small : move.reference.depth = 1 := depth_reference move.pointer
    simp only [flatValue, h]
    cases move.kind with
    | object =>
      rw [leave]
      omega
    | arrayItem =>
      rw [leave]
      exact depth_set_le (by omega) (by omega) Keyword.items

theorem depth_flattened_le (node : Json) : node.flattened.depth ≤ max node.depth (min (node.depth + 1) 4) := by
  cases hp : node.properties? with
  | none =>
    simp only [flattened, hp]
    omega
  | some properties =>
    have inner := depth_lt_of_get? (properties?_eq_some.1 hp)
    have some := depth_nonneg (obj properties)
    have flat : (obj (flatProperties properties)).depth ≤
        max (obj properties).depth (min ((obj properties).depth + 1) 3) := by
      apply depth_obj_le (by omega)
      intro key value member
      obtain ⟨⟨key, old⟩, held, same⟩ := List.mem_map.1 member
      cases same
      have below := depth_lt_of_mem_fields held
      have near := depth_flatValue_le key old
      omega
    simp only [flattened, hp]
    exact depth_set_le (by omega) (by omega) Keyword.properties

theorem depth_finished_le (node : Json) : node.finished.depth ≤ max node.depth (min (node.depth + 1) 4) := by
  unfold finished
  split
  · exact depth_flattened_le node
  · omega

/-- A fragment stands in a property of a node, so at least two levels below the root. -/
theorem HasFragment.depth_le {root fragment : Json} {kind : FragmentKind} {key : Text}
    (h : root.HasFragment kind key fragment) : fragment.depth + 2 ≤ root.depth := by
  obtain ⟨node, properties, value, inside, hp, member, taken⟩ := h
  have whole := inside.depth_le
  have inner := depth_lt_of_get? (properties?_eq_some.1 hp)
  have below := depth_lt_of_mem_fields member
  cases kind with
  | object =>
    dsimp only at taken
    rw [taken]
    omega
  | arrayItem =>
    have item := depth_lt_of_get? taken
    omega

theorem depth_le_of_definitions? {root node : Json} {start : Fields} (begins : root.definitions? = some start)
    {name : Text} (found : Entries.get? name start = some node) : node.depth + 2 ≤ root.depth := by
  rcases definitions?_cases begins with rfl | held
  · cases found
  · have inner := depth_lt_of_get? held
    have below := depth_lt_of_mem_fields (Entries.mem_of_get? found)
    omega

end Json

namespace Unnesting

variable {room : Room}

theorem Tracks.depth_le {root node : Json} {start live : Fields} {log : List Move} {name : Text}
    (h : Tracks root start log live) (begins : root.definitions? = some start)
    (stored : Entries.get? name (storeAll log start) = some node) : node.depth + 2 ≤ root.depth := by
  rw [get?_storeAll] at stored
  cases hl : Entries.last? name (log.map Move.entry) with
  | some fragment =>
    obtain ⟨move, member, -, rfl⟩ := mem_of_last?_moves hl
    simp only [hl, Option.some_or, Option.some.injEq] at stored
    rw [← stored]
    exact (h.origins move member).depth_le
  | none =>
    simp only [hl, Option.none_or] at stored
    exact Json.depth_le_of_definitions? begins stored

theorem Run.Completes.nodup_keys {run : Run} {root : Json} {start final : Fields} {later : List Move}
    (done : run.Completes room root start later final) (distinct : (Entries.keys start).Nodup) :
    (Entries.keys final).Nodup :=
  done.passes.nodup_keys (nodup_keys_storeAll root.moves distinct)

/-- However many passes there were, each definition that is left was stored in one piece, and finished once. -/
theorem Run.Completes.depth_le {run : Run} {root : Json} {start final : Fields} {later : List Move}
    (done : run.Completes room root start later final) (begins : root.definitions? = some start)
    (distinct : (Entries.keys start).Nodup) : run.root.depth ≤ max root.depth (min (root.depth + 1) 6) := by
  have tracks := done.tracks begins
  have some := Json.depth_nonneg root
  have definitions : (Json.obj final).depth ≤ max (root.depth - 1) (min root.depth 5) := by
    apply Json.depth_obj_le (by omega)
    intro name node member
    obtain ⟨stored, held, rfl⟩ := tracks.exists_stored done.settled (done.nodup_keys distinct) member
    have deep := tracks.depth_le begins held
    have near := Json.depth_finished_le stored
    omega
  have flat := Json.depth_flattened_le root
  rw [done.root]
  exact Json.depth_set_le (by omega) (by omega) Keyword.definitions

theorem depth_unnest_le {root : Json}
    (distinct : ∀ start, root.definitions? = some start → (Entries.keys start).Nodup)
    (returns : (unnest room root).fault = none) : (unnest room root).root.depth ≤ max root.depth
      (min (root.depth + 1) 6) := by
  cases begins : root.definitions? with
  | none =>
    rw [(unnest_of_unusable begins).2]
    omega
  | some start =>
    obtain ⟨later, final, done⟩ := completes_unnest begins (distinct start begins) returns
    exact done.depth_le begins (distinct start begins)

theorem isObject_unnest {root : Json} (object : root.isObject)
    (distinct : ∀ start, root.definitions? = some start → (Entries.keys start).Nodup)
    (returns : (unnest room root).fault = none) : (unnest room root).root.isObject := by
  cases begins : root.definitions? with
  | none =>
    rw [(unnest_of_unusable begins).2]
    exact object
  | some start =>
    obtain ⟨later, final, done⟩ := completes_unnest begins (distinct start begins) returns
    rw [done.root, Json.isObject_set, Json.isObject_flattened]
    exact object

theorem unnest_keeps_shallow {root : Json} (object : root.isObject)
    (distinct : ∀ start, root.definitions? = some start → (Entries.keys start).Nodup)
    (returns : (unnest room root).fault = none) :
    (6 ≤ root.depth → (unnest room root).root.depth ≤ root.depth) ∧
      (root.depth < 6 → (unnest room root).root.depth ≤ root.depth + 1) ∧
        ((Schema.checkRoot Schema.maxDepth root).isValid →
          (Schema.checkRoot Schema.maxDepth (unnest room root).root).isValid) := by
  have bound := depth_unnest_le distinct returns
  have limit : Schema.maxDepth = 200 := rfl
  refine ⟨by omega, by omega, ?_⟩
  rw [Schema.isValid_checkRoot, Schema.isValid_checkRoot]
  rintro ⟨-, shallow⟩
  exact ⟨isObject_unnest object distinct returns, by omega⟩

def bottomRoot : Json :=
  .obj [("properties", .obj [("a", .obj [("properties", .obj
    [("b", .obj [("properties", .obj [])]), ("c", .obj [("items", .obj [])])])])])]

theorem unnest_keeps_shallow_bottomRoot :
    bottomRoot.isObject ∧ (∀ start, bottomRoot.definitions? = some start → (Entries.keys start).Nodup) ∧
      (unnest (.ofDepth 100) bottomRoot).fault = none ∧
      (6 ≤ bottomRoot.depth → (unnest (.ofDepth 100) bottomRoot).root.depth ≤ bottomRoot.depth) ∧
        (bottomRoot.depth < 6 → (unnest (.ofDepth 100) bottomRoot).root.depth ≤ bottomRoot.depth + 1) ∧
          ((Schema.checkRoot Schema.maxDepth bottomRoot).isValid →
            (Schema.checkRoot Schema.maxDepth (unnest (.ofDepth 100) bottomRoot).root).isValid) := by
  have distinct : ∀ start, bottomRoot.definitions? = some start → (Entries.keys start).Nodup := by
    intro start begins
    cases begins
    decide
  have returns : (unnest (.ofDepth 100) bottomRoot).fault = none := by decide +kernel
  exact ⟨rfl, distinct, returns, unnest_keeps_shallow rfl distinct returns⟩

/-- The reference that takes the place of the empty object stands one level deeper than anything before. -/
example : bottomRoot.depth = 5 ∧ (unnest (.ofDepth 100) bottomRoot).root.depth = 6 := by decide +kernel

end Unnesting
end SchemaUnnest
