import SchemaUnnest.Proofs.Report

namespace SchemaUnnest

/-- What a node gives to the definitions, by name: its nested objects under the names of their properties, then the
descriptions of the elements of its other properties; both in the order of the properties. -/
def Json.given (node : Json) : Fields :=
  let properties := node.properties?.getD []
  (properties.filter fun (_, value) => value.isNestedObject) ++
    properties.filterMap fun (key, value) =>
      if value.isNestedObject then none else value.itemSchema?.map fun item => (key ++ Keyword.itemEnding, item)

namespace Unnesting

variable {room : Room}

theorem objects_eq (properties : Fields) :
    (properties.filterMap fun (key, value) => Json.move? key value).filter (·.kind = .object) =
      (properties.filter fun (_, value) => value.isNestedObject).map fun (key, value) => ⟨.object, key, value⟩ := by
  rw [List.filter_filterMap, ← List.filterMap_eq_map, List.filterMap_filter]
  apply List.filterMap_congr
  rintro ⟨key, value⟩ -
  exact (fragmentAt?_object key value).symm

theorem arrays_eq (properties : Fields) :
    (properties.filterMap fun (key, value) => Json.move? key value).filter (·.kind = .arrayItem) =
      properties.filterMap fun (key, value) =>
        if value.isNestedObject then none else value.itemSchema?.map fun item => ⟨.arrayItem, key, item⟩ := by
  rw [List.filter_filterMap]
  apply List.filterMap_congr
  rintro ⟨key, value⟩ -
  simp only [Json.move?_eq]
  by_cases object : value.isNestedObject
  · simp [object, Option.filter_some]
  · cases array : value.itemSchema? <;> simp [object, Option.filter_some]

theorem movesOf_eq (properties : Fields) :
    Json.movesOf properties =
      ((properties.filter fun (_, value) => value.isNestedObject).map fun (key, value) => ⟨.object, key, value⟩) ++
        properties.filterMap fun (key, value) =>
          if value.isNestedObject then none else value.itemSchema?.map fun item => ⟨.arrayItem, key, item⟩ := by
  rw [← objects_eq, ← arrays_eq, Json.movesOf]

theorem moves_eq (node : Json) : node.moves = Json.movesOf (node.properties?.getD []) := by
  cases h : node.properties? <;> simp [Json.moves, h, Json.movesOf]

theorem given_eq (node : Json) : node.given = node.moves.map Move.entry := by
  rw [moves_eq, movesOf_eq, List.map_append, List.map_map, List.map_filterMap, Json.given]
  congr 1
  · exact (List.map_id _).symm
  · apply List.filterMap_congr
    rintro ⟨key, value⟩ -
    by_cases object : value.isNestedObject
    · simp [object]
    · simp [object, Function.comp_def, Move.entry, Move.name, nameFor]

def kindsOf (properties : Fields) : List (FragmentKind × Text) :=
  ((properties.filter fun (_, value) => value.isNestedObject).map fun (key, _) => (.object, key)) ++
    (properties.filter fun (_, value) => !value.isNestedObject && value.hasInlineItems).map fun (key,
      _) => (.arrayItem, key)

theorem kinds_movesOf (properties : Fields) :
    (Json.movesOf properties).map (fun move => (move.kind, move.propertyName)) = kindsOf properties := by
  rw [movesOf_eq, List.map_append, List.map_map, List.map_filterMap, kindsOf]
  congr 1
  rw [← List.filterMap_eq_map, List.filterMap_filter]
  apply List.filterMap_congr
  rintro ⟨key, value⟩ -
  by_cases object : value.isNestedObject
  · simp [object]
  · cases array : value.itemSchema? <;> simp [object, Json.hasInlineItems, array]

theorem kinds_recordAll (definitions : Fields) (moves : List Move) :
    (recordAll definitions moves).map (fun record => (record.kind, record.propertyName)) =
      moves.map fun move => (move.kind, move.propertyName) := by
  induction moves generalizing definitions with
  | nil => rfl
  | cons move rest ih => simp [recordAll, Move.record, ih]

/-- What one call does to a node if it returns. Whatever the definitions are by then, there is nothing more to do. -/
structure Replacement.Settles (done : Replacement) (node : Json) : Prop where
  listed : done.made.map (fun record => (record.kind, record.propertyName)) = kindsOf (node.properties?.getD [])
  named : done.made.map (·.name) = node.given.map Prod.fst
  left : done.node = node.flattened
  flat : ∀ properties, done.node.properties? = some properties → ∀ key value, (key, value) ∈ properties →
    value.isNestedObject = false ∧ value.hasInlineItems = false
  again : ∀ (room : Room) (definitions : Fields), (replaceNested room definitions done.node).fault = none ∧
    (replaceNested room definitions done.node).made = [] ∧
    (replaceNested room definitions done.node).definitions = definitions ∧
    (replaceNested room definitions done.node).node = done.node

structure Shared.Composes (shared : Shared) (nodes : List Json) (calls : List Replacement) (last : Shared) : Prop where
  each : List.Forall₂ Replacement.Settles calls nodes
  records : last.records = shared.records ++ calls.flatMap (·.made)
  entries : ∀ name, Entries.get? name last.definitions =
    (Entries.last? name (nodes.flatMap Json.given)).or (Entries.get? name shared.definitions)
  overwrote : ∀ before record after, calls.flatMap (·.made) = before ++ record :: after →
    (record.overwrote ↔ record.name ∈ Entries.keys shared.definitions ∨ record.name ∈ before.map (·.name))

theorem settles_replace {shared : Shared} {node : Json} (returns : (shared.replace room node).fault = none) :
    (shared.replace room node).Settles node := by
  have done := performs_replaceNested shared.definitions returns
  have left : (shared.replace room node).node = node.flattened := done.node
  have made : (shared.replace room node).made = recordAll shared.definitions node.moves := done.made
  have flat : (shared.replace room node).node.moves = [] := by rw [left, Json.moves_flattened]
  constructor
  · rw [made, kinds_recordAll, moves_eq, kinds_movesOf]
  · rw [made, names_recordAll, given_eq, List.map_map]
    rfl
  · exact left
  · exact Json.moves_eq_nil_iff.1 flat
  · exact fun room => replaceNested_of_moves_nil room flat

/-- The calls do what one list of stores does: the fragments of all nodes, one node after the other. -/
theorem performs_replaceEach {shared : Shared} {nodes : List Json}
    (returns : ∀ call ∈ (shared.replaceEach room nodes).1, call.fault = none) :
    (shared.replaceEach room nodes).1.flatMap (·.made) = recordAll shared.definitions (nodes.flatMap Json.moves) ∧
      (shared.replaceEach room nodes).2.definitions = storeAll (nodes.flatMap Json.moves) shared.definitions := by
  induction nodes generalizing shared with
  | nil => exact ⟨rfl, rfl⟩
  | cons node rest ih =>
    obtain ⟨here, later⟩ := List.forall_mem_cons.1 returns
    have done := performs_replaceNested shared.definitions here
    have next : (shared.after (shared.replace room node)).definitions = storeAll node.moves shared.definitions :=
      done.definitions
    obtain ⟨made, stored⟩ := ih later
    rw [next] at made stored
    constructor
    · rw [List.flatMap_cons, recordAll_append, ← made, ← done.made]
      rfl
    · rw [List.flatMap_cons, storeAll_append, ← stored]
      rfl

theorem records_replaceEach (shared : Shared) (nodes : List Json) :
    (shared.replaceEach room nodes).2.records = shared.records ++
      (shared.replaceEach room nodes).1.flatMap (·.made) := by
  induction nodes generalizing shared with
  | nil => simp [Shared.replaceEach]
  | cons node rest ih => simp [Shared.replaceEach, ih, Shared.after]

theorem settles_replaceEach {shared : Shared} {nodes : List Json}
    (returns : ∀ call ∈ (shared.replaceEach room nodes).1, call.fault = none) :
    List.Forall₂ Replacement.Settles (shared.replaceEach room nodes).1 nodes := by
  induction nodes generalizing shared with
  | nil => exact .nil
  | cons node rest ih =>
    obtain ⟨here, later⟩ := List.forall_mem_cons.1 returns
    exact .cons (settles_replace here) (ih later)

theorem replaceEach_composes {shared : Shared} {nodes : List Json}
    (returns : ∀ call ∈ (shared.replaceEach room nodes).1, call.fault = none) :
    shared.Composes nodes (shared.replaceEach room nodes).1 (shared.replaceEach room nodes).2 := by
  obtain ⟨made, stored⟩ := performs_replaceEach returns
  have given : nodes.flatMap Json.given = (nodes.flatMap Json.moves).map Move.entry := by
    rw [List.map_flatMap, funext given_eq]
  constructor
  · exact settles_replaceEach returns
  · exact records_replaceEach shared nodes
  · intro name
    rw [stored, given, get?_storeAll]
  · intro before record after split
    rw [made] at split
    exact overwrote_iff split

def sharedStart : Shared :=
  ⟨[("b", .obj [("title", .str "B")])], [⟨"b", .object, "b", "#/definitions/b", false⟩]⟩

def crowdedNodes : List Json :=
  [.obj [("properties", .obj [("a", .obj [("items", .obj [])]), ("a_item", .obj [("properties", .obj [])])])],
    .obj [("$ref", .str "#/definitions/a"), ("properties", .obj
      [("b", .obj [("properties", .obj [("a", .obj [("items", .obj [])])]), ("items", .obj [])]), ("a", .null)])],
    .str "b"]

theorem replaceEach_composes_crowdedNodes :
    (∀ call ∈ (sharedStart.replaceEach (.ofDepth 100) crowdedNodes).1, call.fault = none) ∧
      sharedStart.Composes crowdedNodes (sharedStart.replaceEach (.ofDepth 100) crowdedNodes).1
        (sharedStart.replaceEach (.ofDepth 100) crowdedNodes).2 := by
  have returns : ∀ call ∈ (sharedStart.replaceEach (.ofDepth 100) crowdedNodes).1, call.fault = none := by
    decide +kernel
  exact ⟨returns, replaceEach_composes returns⟩

end Unnesting
end SchemaUnnest
