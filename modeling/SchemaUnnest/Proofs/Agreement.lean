import SchemaUnnest.Proofs.LastWrite
import SchemaUnnest.Proofs.Refusals

namespace SchemaUnnest

namespace Json

open Unnesting

/-- The nested objects that stand at a property: the value itself, and the description of the elements of the array it is.
A value may be both. -/
def inlineAt (value : Json) : List Json :=
  (if value.isNestedObject then [value] else []) ++ (value.itemSchema?.filter hasProperties).toList

def inlineNodes (node : Json) : List Json :=
  (node.properties?.getD []).flatMap fun (_, value) => value.inlineAt

theorem mem_inlineAt {value inner : Json} :
    inner ∈ value.inlineAt ↔
      (value.isNestedObject ∧ inner = value) ∨ (value.itemSchema? = some inner ∧ inner.hasProperties) := by
  cases object : value.isNestedObject <;> simp [inlineAt, object, Option.filter_eq_some_iff]

theorem mem_inlineNodes {node inner : Json} :
    inner ∈ node.inlineNodes ↔
      ∃ properties, node.properties? = some properties ∧ ∃ key value, (key, value) ∈ properties ∧
        inner ∈ value.inlineAt := by
  cases held : node.properties? with
  | none => simp [inlineNodes, held]
  | some properties => simp [inlineNodes, held]

theorem sizeOf_lt_of_mem_inlineNodes {node inner : Json} (member : inner ∈ node.inlineNodes) :
    sizeOf inner < sizeOf node := by
  obtain ⟨properties, held, key, value, inside, here⟩ := mem_inlineNodes.1 member
  have below := sizeOf_lt_of_mem_properties held inside
  rcases mem_inlineAt.1 here with ⟨-, rfl⟩ | ⟨items, -⟩
  · exact below
  · exact Nat.lt_trans (sizeOf_lt_of_itemSchema? items) below

def inlineCount (node : Json) : Nat :=
  node.inlineNodes.attach.foldr (fun inner more => inlineCount inner.1 + 1 + more) 0
termination_by sizeOf node
decreasing_by exact sizeOf_lt_of_mem_inlineNodes inner.2

theorem inlineCount_eq (node : Json) :
    node.inlineCount = node.inlineNodes.foldr (fun inner more => inner.inlineCount + 1 + more) 0 := by
  rw [inlineCount, List.foldr_attach (f := fun (inner : Json) more => inner.inlineCount + 1 + more)]

theorem inlineCount_lt_of_mem {node inner : Json} (member : inner ∈ node.inlineNodes) :
    inner.inlineCount < node.inlineCount := by
  rw [inlineCount_eq node]
  generalize node.inlineNodes = nodes at member
  induction nodes with
  | nil => cases member
  | cons first rest ih =>
    rw [List.foldr_cons]
    rcases List.mem_cons.1 member with rfl | later
    · omega
    · have below := ih later
      omega

theorem inlineCount_of_plain {node : Json} (plain : node.hasProperties = false) : node.inlineCount = 0 := by
  have none : node.properties? = Option.none := by simpa [hasProperties] using plain
  rw [inlineCount_eq, inlineNodes, none]
  rfl

theorem isInline_iff {value : Json} : value.isInline ↔ ∃ inner, inner ∈ value.inlineAt := by
  simp [isInline, mem_inlineAt, Option.any_eq_true, exists_or]

theorem holdsNested_iff {node : Json} : node.holdsNested ↔ node.isReference = false ∧
    ∃ inner, inner ∈ node.inlineNodes := by
  simp only [holdsNested, Bool.and_eq_true, Bool.not_eq_true', Option.any_eq_true, List.any_eq_true, Prod.exists,
    isInline_iff, mem_inlineNodes]
  apply and_congr_right
  intro _
  constructor
  · rintro ⟨properties, held, key, value, member, inner, here⟩
    exact ⟨inner, properties, held, key, value, member, here⟩
  · rintro ⟨inner, properties, held, key, value, member, here⟩
    exact ⟨properties, held, key, value, member, inner, here⟩

theorem fragment_mem_inlineNodes {node : Json} {move : Move} (member : move ∈ node.moves)
    (shaped : move.fragment.hasProperties) : move.fragment ∈ node.inlineNodes := by
  obtain ⟨properties, held, mine⟩ := properties?_of_mem_moves member
  obtain ⟨key, value, inside, found⟩ := mem_movesOf.1 mine
  apply mem_inlineNodes.2 ⟨properties, held, key, value, inside, _⟩
  rcases move?_eq_some found with ⟨object, rfl⟩ | ⟨-, item, items, rfl⟩
  · exact mem_inlineAt.2 (Or.inl ⟨object, rfl⟩)
  · exact mem_inlineAt.2 (Or.inr ⟨items, shaped⟩)

theorem exists_move_of_mem_inlineNodes {node inner : Json} (member : inner ∈ node.inlineNodes) :
    ∃ move ∈ node.moves, move.fragment.hasProperties := by
  obtain ⟨properties, held, key, value, inside, here⟩ := mem_inlineNodes.1 member
  rw [moves_of_properties? held]
  cases object : value.isNestedObject with
  | true =>
    refine ⟨⟨.object, key, value⟩, mem_movesOf.2 ⟨key, value, inside, ?_⟩, ?_⟩
    · rw [move?_eq, if_pos object]
    · exact (Bool.and_eq_true _ _ ▸ object).2
  | false =>
    rcases mem_inlineAt.1 here with ⟨nested, -⟩ | ⟨items, shaped⟩
    · rw [object] at nested
      cases nested
    · refine ⟨⟨.arrayItem, key, inner⟩, mem_movesOf.2 ⟨key, value, inside, ?_⟩, shaped⟩
      simp [move?_eq, object, items]

theorem holdsNested_iff_exists_move {node : Json} :
    node.holdsNested ↔ node.isReference = false ∧ ∃ move ∈ node.moves, move.fragment.hasProperties := by
  rw [holdsNested_iff]
  apply and_congr_right
  intro _
  constructor
  · rintro ⟨inner, member⟩
    exact exists_move_of_mem_inlineNodes member
  · rintro ⟨move, member, shaped⟩
    exact ⟨move.fragment, fragment_mem_inlineNodes member shaped⟩

theorem inlineCount_fragment_lt {node : Json} (unfinished : node.holdsNested) {move : Move}
    (member : move ∈ node.moves) :
    move.fragment.inlineCount < node.inlineCount := by
  -- a fragment without properties holds nothing, and any other is one of those that the node holds
  cases shaped : move.fragment.hasProperties with
  | true => exact inlineCount_lt_of_mem (fragment_mem_inlineNodes member shaped)
  | false =>
    obtain ⟨-, inner, inside⟩ := holdsNested_iff.1 unfinished
    rw [inlineCount_of_plain shaped]
    exact Nat.zero_lt_of_lt (inlineCount_lt_of_mem inside)

end Json

def Extraction.fragmentIn (record : Extraction) (node : Json) : Option Json :=
  (node.properties?.bind (Entries.get? record.propertyName)).bind fun value =>
    match record.kind with
    | .object => some value
    | .arrayItem => value.get? Keyword.items

namespace Unnesting

variable {room : Room}

theorem fragmentIn_record {node : Json}
    (distinct : ∀ properties, node.properties? = some properties → (Entries.keys properties).Nodup)
    (definitions : Fields)
    {move : Move} (member : move ∈ node.moves) : (move.record definitions).fragmentIn node = some move.fragment := by
  obtain ⟨properties, held, mine⟩ := Json.properties?_of_mem_moves member
  obtain ⟨key, value, inside, found⟩ := Json.mem_movesOf.1 mine
  have first : Entries.get? key properties = some value := Entries.get?_of_mem (distinct properties held) inside
  rcases Json.move?_eq_some found with ⟨-, rfl⟩ | ⟨-, item, items, rfl⟩
  · simp [Extraction.fragmentIn, Move.record, held, first]
  · simp [Extraction.fragmentIn, Move.record, held, first, (Json.itemSchema?_eq_some items).2.1]

/-- Flattening a node has moved these fragments of it, one for each record. -/
structure Replacement.Agrees (done : Replacement) (definitions : Fields) (node : Json) (fragments : List Json) :
    Prop where
  origins : List.Forall₂ (fun record fragment => record.fragmentIn node = some fragment) done.made fragments
  stored : done.definitions = Entries.setAll ((done.made.map (·.name)).zip fragments) definitions
  noticed : node.holdsNested ↔ node.isReference = false ∧ ∃ fragment ∈ fragments, fragment.hasProperties
  finished : done.node.holdsNested = false
  smaller : node.holdsNested → ∀ fragment ∈ fragments, fragment.inlineCount < node.inlineCount

theorem agrees_of_performs {done : Replacement} {definitions : Fields} {node : Json}
    (distinct : ∀ properties, node.properties? = some properties → (Entries.keys properties).Nodup)
    (performed : done.Performs definitions node) : done.Agrees definitions node (node.moves.map Move.fragment) := by
  constructor
  · rw [performed.made]
    exact forall₂_recordAll (fun definitions _ => fragmentIn_record distinct definitions) definitions
  · rw [performed.definitions, performed.made, names_recordAll, List.zip_map']
    rfl
  · simp only [Json.holdsNested_iff_exists_move, List.mem_map, exists_exists_and_eq_and]
  · rw [performed.node]
    exact Json.holdsNested_flattened node
  · intro unfinished
    rw [List.forall_mem_map]
    intro move
    exact Json.inlineCount_fragment_lt unfinished

/-- Where no key is empty, flattening a node comes to its end unless a fragment is too deep to be copied. -/
theorem replaceNested_agrees (definitions : Fields) {node : Json}
    (distinct : ∀ properties, node.properties? = some properties → (Entries.keys properties).Nodup)
    (named : ∀ properties, node.properties? = some properties → ¬ Entries.has [] properties) :
    ((replaceNested room definitions node).fault = none ∧
        ∃ fragments, (replaceNested room definitions node).Agrees definitions node fragments) ∨
      ((replaceNested room definitions node).fault = some .tooDeep ∧
        ∃ move ∈ node.moves, room.holds move.fragment = false) := by
  cases reason : (replaceNested room definitions node).fault with
  | none => exact Or.inl ⟨rfl, _, agrees_of_performs distinct (performs_replaceNested definitions reason)⟩
  | some fault =>
    -- the name of the fragment that stops the walks is not empty, so it is too deep
    rw [fault_replaceNested] at reason
    obtain ⟨move, member, stops⟩ := List.exists_of_findSome?_eq_some reason
    have name : move.name ≠ [] := by
      intro empty
      obtain ⟨properties, value, held, here, -⟩ := mem_properties_of_unnamed member empty
      exact named properties held ((Entries.has_iff_mem_keys [] properties).2 (List.mem_map_of_mem here))
    obtain ⟨rfl, deep⟩ := fault?_of_named name stops
    exact Or.inr ⟨rfl, move, member, deep⟩

def mixedNode : Json :=
  .obj [("properties", .obj [("a", .obj [("items", .obj [("type", .str "string")])]),
    ("b", .obj [("properties", .obj [("d", .obj [("properties", .obj [])])]),
      ("items", .obj [("properties", .obj [])])]),
    ("c", .obj [("$ref", .str "#"), ("properties", .obj [])])])]

theorem replaceNested_agrees_mixedNode :
    (∀ properties, mixedNode.properties? = some properties → (Entries.keys properties).Nodup) ∧
      (∀ properties, mixedNode.properties? = some properties → ¬ Entries.has [] properties) ∧ mixedNode.holdsNested ∧
      ∃ fragments, (replaceNested (.ofDepth 100) [("b", .null)] mixedNode).Agrees [("b", .null)] mixedNode
        fragments := by
  have distinct : ∀ properties, mixedNode.properties? = some properties → (Entries.keys properties).Nodup := by
    intro properties held
    cases held
    decide
  have named : ∀ properties, mixedNode.properties? = some properties → ¬ Entries.has [] properties := by
    intro properties held
    cases held
    decide
  have fits : (replaceNested (.ofDepth 100) [("b", .null)] mixedNode).fault = none := by decide +kernel
  refine ⟨distinct, named, by decide, ?_⟩
  rcases replaceNested_agrees [("b", .null)] distinct named with ⟨-, agrees⟩ | ⟨stops, -⟩
  · exact agrees
  · rw [fits] at stops
    cases stops

/-- A fragment that is too deep to be copied stays where it is, and there is no record of it. -/
theorem replaceNested_disagrees_tallRoot :
    (∀ properties, tallRoot.properties? = some properties → (Entries.keys properties).Nodup ∧
      ¬ Entries.has [] properties) ∧
      tallRoot.holdsNested ∧ tallRoot.isReference = false ∧
      ∀ limit < 600, (replaceNested (.ofDepth limit) [] tallRoot).fault = some .tooDeep ∧
        (replaceNested (.ofDepth limit) [] tallRoot).made = [] ∧
        (replaceNested (.ofDepth limit) [] tallRoot).node.holdsNested := by
  refine ⟨?_, by decide, by decide, ?_⟩
  · intro properties held
    cases held
    decide
  · intro limit low
    have stops : Move.fault? (.ofDepth limit) ⟨.object, "a", tallFragment⟩ = some .tooDeep := by
      simp [Move.fault?, holds_tallFragment low]
    have properties : tallRoot.properties? = some (([] : Fields) ++ (Text.ofString "a", tallFragment) :: []) := rfl
    have none : ∀ move ∈ objectMoves [], move.fault? (.ofDepth limit) = none := by simp [objectMoves]
    have walked := stopsAt_walk [] [] none (show tallFragment.isNestedObject by decide) stops
    obtain ⟨-, left, fault, made⟩ := replaceNested_of_stopsAt properties walked stops
    have unchanged : (replaceNested (.ofDepth limit) [] tallRoot).node = tallRoot := left
    refine ⟨fault, made, ?_⟩
    rw [unchanged]
    decide

end Unnesting
end SchemaUnnest
