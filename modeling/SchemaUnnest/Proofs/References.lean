import SchemaUnnest.Proofs.OrderFree
import SchemaUnnest.Schema.Statistics

namespace SchemaUnnest

namespace Json

mutual

/-- What the references in a value point to, each as often as it is counted. -/
def pointers : Json → Multiset Json
  | .obj fields => ((Entries.get? Keyword.ref fields).toList : Multiset Json) + pointersFields fields
  | .arr items => pointersItems items
  | _ => 0

def pointersFields : List (Text × Json) → Multiset Json
  | [] => 0
  | (key, value) :: rest =>
    (if (key = Keyword.properties || key = Keyword.definitions) && value.isObject then pointersNamed value
      else pointers value) + pointersFields rest

def pointersNamed : Json → Multiset Json
  | .obj members => pointersMembers members
  | _ => 0

def pointersMembers : List (Text × Json) → Multiset Json
  | [] => 0
  | (_, value) :: rest => pointers value + pointersMembers rest

def pointersItems : List Json → Multiset Json
  | [] => 0
  | item :: rest => pointers item + pointersItems rest

end

end Json

namespace Tally

open Json

@[simp] theorem references_add (a b : Tally) : (a.add b).references = a.references + b.references := rfl

theorem references_ofNode (exempt : Bool) (fields : Fields) :
    (ofNode exempt (.obj fields)).references = (Entries.get? Keyword.ref fields).toList.length := by
  have mark : (obj fields).isReference = (Entries.get? Keyword.ref fields).isSome := isReference_eq _
  unfold ofNode
  rw [mark]
  cases Entries.get? Keyword.ref fields with
  | none =>
    simp only [Option.isSome_none, Bool.false_eq_true, if_false]
    split <;> rfl
  | some pointer => rfl

mutual

theorem references_count (exempt : Bool) : ∀ value : Json, (count exempt value).references = value.pointers.card
  | .obj fields => by
    rw [count, pointers, references_add, references_ofNode, references_countFields, Multiset.card_add,
      Multiset.coe_card]
  | .arr items => by rw [count, pointers, references_countItems]
  | .null | .bool _ | .int _ | .float _ | .str _ => rfl

theorem references_countFields (exempt : Bool) :
    ∀ fields : List (Text × Json), (countFields exempt fields).references = (pointersFields fields).card
  | [] => rfl
  | (key, value) :: rest => by
    rw [countFields, pointersFields, references_add, references_countFields exempt rest, Multiset.card_add]
    split
    · rw [references_countNamed]
    · rw [references_count]

theorem references_countNamed (exempt : Bool) :
    ∀ value : Json, (countNamed exempt value).references = (pointersNamed value).card
  | .obj members => by rw [countNamed, pointersNamed, references_countMembers]
  | .null | .bool _ | .int _ | .float _ | .str _ | .arr _ => rfl

theorem references_countMembers (exempt : Bool) :
    ∀ members : List (Text × Json), (countMembers exempt members).references = (pointersMembers members).card
  | [] => rfl
  | (_, value) :: rest => by
    rw [countMembers, pointersMembers, references_add, references_count exempt value,
      references_countMembers exempt rest,
      Multiset.card_add]

theorem references_countItems :
    ∀ items : List Json, (countItems items).references = (pointersItems items).card
  | [] => rfl
  | item :: rest => by
    rw [countItems, pointersItems, references_add, references_count false item, references_countItems rest,
      Multiset.card_add]

end

end Tally

namespace Json

open Unnesting

def pointersAt (key : Text) (value : Json) : Multiset Json :=
  if (key = Keyword.properties || key = Keyword.definitions) && value.isObject then pointersNamed value
  else pointers value

theorem pointersFields_eq (fields : Fields) :
    pointersFields fields = (fields : Multiset (Text × Json)).bind fun entry => pointersAt entry.1 entry.2 := by
  induction fields with
  | nil => rfl
  | cons entry rest ih =>
    obtain ⟨key, value⟩ := entry
    rw [pointersFields, ih, ← Multiset.cons_coe, Multiset.cons_bind]
    rfl

theorem pointersMembers_eq (members : Fields) : pointersMembers members = gather pointers members := by
  induction members with
  | nil => rfl
  | cons entry rest ih =>
    obtain ⟨name, value⟩ := entry
    rw [pointersMembers, ih, gather_cons]

theorem pointersAt_properties (properties : Fields) :
    pointersAt Keyword.properties (.obj properties) = gather pointers properties := by
  rw [← pointersMembers_eq]
  rfl

theorem pointersAt_definitions (definitions : Fields) :
    pointersAt Keyword.definitions (.obj definitions) = gather pointers definitions := by
  rw [← pointersMembers_eq]
  rfl

theorem pointersAt_items (value : Json) : pointersAt Keyword.items value = value.pointers := by
  have other : Keyword.items ≠ Keyword.properties ∧ Keyword.items ≠ Keyword.definitions := by decide
  simp [pointersAt, other]

theorem pointers_set {node old : Json} {key : Text} (found : node.get? key = some old) (other : key ≠ Keyword.ref)
    (new : Json) : (node.set key new).pointers + pointersAt key old = node.pointers + pointersAt key new := by
  obtain ⟨fields, rfl, held⟩ := fields_of_get? found
  have mark : Entries.get? Keyword.ref (Entries.set key new fields) = Entries.get? Keyword.ref fields :=
    Entries.get?_set_of_ne other new fields
  rw [set, pointers, pointers, mark]
  obtain ⟨before, after, rfl, stored⟩ := Entries.set_at held
  simp only [stored, pointersFields_eq, ← Multiset.coe_add, ← Multiset.cons_coe, Multiset.add_bind, Multiset.cons_bind]
  abel

theorem pointers_set_of_absent {node : Json} {key : Text} (object : node.isObject) (absent : node.get? key = none)
    (other : key ≠ Keyword.ref) (new : Json) : (node.set key new).pointers = node.pointers + pointersAt key new := by
  obtain ⟨fields, rfl⟩ : ∃ fields, node = .obj fields := by
    cases node with
    | obj fields => exact ⟨fields, rfl⟩
    | _ => cases object
  have mark : Entries.get? Keyword.ref (Entries.set key new fields) = Entries.get? Keyword.ref fields :=
    Entries.get?_set_of_ne other new fields
  have free : Entries.has key fields = false := by
    have none : Entries.get? key fields = none := absent
    rw [Entries.has, none]
    rfl
  rw [set, pointers, pointers, mark, Entries.set_of_absent free]
  simp only [pointersFields_eq, ← Multiset.coe_add, Multiset.add_bind, Multiset.coe_singleton, Multiset.singleton_bind]
  abel

theorem pointers_reference (pointer : Text) : (reference pointer).pointers = {.str pointer} := by
  have plain : (str pointer).isObject = false := rfl
  simp [reference, pointers, pointersFields, Entries.get?, plain]

end Json

namespace Unnesting

def carried (moves : Multiset Move) : Multiset Json := moves.bind fun move => move.fragment.pointers

def leftBehind (moves : Multiset Move) : Multiset Json := moves.map fun move => .str move.pointer

theorem carried_cons (move : Move) (moves : List Move) :
    carried (move :: moves : List Move) = move.fragment.pointers + carried moves := by
  rw [carried, carried, ← Multiset.cons_coe, Multiset.cons_bind]

theorem leftBehind_cons (move : Move) (moves : List Move) :
    leftBehind (move :: moves : List Move) = {.str move.pointer} + leftBehind moves := by
  rw [leftBehind, leftBehind, ← Multiset.cons_coe, Multiset.map_cons, Multiset.singleton_add]

theorem leftBehind_add (first second : Multiset Move) :
    leftBehind (first + second) = leftBehind first + leftBehind second := Multiset.map_add _ first second

end Unnesting

namespace Json

open Unnesting

theorem pointers_flatValue {key : Text} {value : Json} {move : Move} (found : move? key value = some move) :
    (flatValue key value).pointers + move.fragment.pointers = value.pointers + {.str move.pointer} := by
  have whole : flatValue key value = leave move.kind value move.reference := by simp only [flatValue, found]
  rw [whole]
  rcases move?_eq_some found with ⟨-, rfl⟩ | ⟨-, item, described, rfl⟩
  · rw [leave, Move.reference, pointers_reference, add_comm]
  · have held := (itemSchema?_eq_some described).2.1
    have step := pointers_set held (by decide) (reference (Move.pointer ⟨.arrayItem, key, item⟩))
    rw [pointersAt_items, pointersAt_items, pointers_reference] at step
    exact step

theorem gather_flatProperties (properties : Fields) :
    gather pointers (flatProperties properties) + carried (movesOf properties) =
      gather pointers properties + leftBehind (movesOf properties) := by
  rw [Multiset.coe_eq_coe.2 (movesOf_perm properties)]
  induction properties with
  | nil => rfl
  | cons entry rest ih =>
    obtain ⟨key, value⟩ := entry
    have flat : flatProperties ((key, value) :: rest) = (key, flatValue key value) :: flatProperties rest := rfl
    rw [flat, gather_cons, gather_cons]
    cases found : move? key value with
    | none =>
      simp only [List.filterMap_cons, found, flatValue_of_move?_none found]
      rw [add_assoc, ih, add_assoc]
    | some move =>
      have here := pointers_flatValue found
      simp only [List.filterMap_cons, found, carried_cons, leftBehind_cons]
      rw [add_add_add_comm, here, ih, add_add_add_comm]

/-- Flattening a node leaves a reference for each fragment that it gives away, and changes no other. -/
theorem pointers_flattened (node : Json) :
    node.flattened.pointers + carried node.moves = node.pointers + leftBehind node.moves := by
  cases hp : node.properties? with
  | none => simp [flattened, moves, hp, carried, leftBehind]
  | some properties =>
    have step := pointers_set (properties?_eq_some.1 hp) (by decide) (.obj (flatProperties properties))
    rw [pointersAt_properties, pointersAt_properties] at step
    have inner := gather_flatProperties properties
    simp only [flattened, hp, moves_of_properties? hp]
    apply add_right_cancel (b := gather pointers properties)
    rw [add_right_comm, step, add_assoc, inner]
    abel

end Json

namespace Unnesting

variable {room : Room}

/-- A pass keeps the references that there are, and adds one for each fragment it moves. -/
theorem gather_passed {name : Text} {node : Json} {definitions : Fields}
    (found : Entries.get? name definitions = some node) (fresh : Fresh node.moves definitions) :
    gather Json.pointers (passed name node definitions) = gather Json.pointers definitions + leftBehind node.moves := by
  have settled := gather_set Json.pointers found node.flattened
  have stored : gather Json.pointers (passed name node definitions) =
      gather Json.pointers (Entries.set name node.flattened definitions) + carried node.moves :=
    gather_storeAll Json.pointers (fresh.congr (has_flattened found))
  have flat := node.pointers_flattened
  apply add_right_cancel (b := node.pointers)
  rw [stored, add_right_comm, settled, add_assoc, flat]
  abel

theorem Passes.gather_pointers {before after : Fields} {count : Nat} {moves : List Move}
    (run : Passes room before count moves after) (fresh : Fresh moves before) :
    gather Json.pointers after = gather Json.pointers before + leftBehind moves := by
  induction run with
  | done definitions => simp [leftBehind]
  | next found pending fits rest ih =>
    rw [← Multiset.coe_add] at fresh ⊢
    have here := gather_passed found (fresh.of_le (Multiset.le_add_right _ _))
    rw [ih (fresh.passed found), here, leftBehind_add, add_assoc]

theorem Run.Completes.pointers {run : Run} {root : Json} {start final : Fields} {later : List Move}
    (done : run.Completes room root start later final) (object : root.isObject)
    (begins : root.definitions? = some start)
    (fresh : Fresh (root.moves ++ later : List Move) start) :
    run.root.pointers = root.pointers + leftBehind (root.moves ++ later : List Move) := by
  rw [← Multiset.coe_add] at fresh ⊢
  have other : Keyword.definitions ≠ Keyword.ref := by decide
  have kept : root.flattened.get? Keyword.definitions = root.get? Keyword.definitions :=
    root.get?_flattened_of_ne (by decide)
  have swapped : run.root.pointers + gather Json.pointers start =
      root.flattened.pointers + gather Json.pointers final := by
    rw [done.root]
    unfold Json.definitions? at begins
    split at begins
    · rename_i absent
      cases begins
      have object : root.flattened.isObject := root.isObject_flattened ▸ object
      have nothing : gather Json.pointers [] = 0 := rfl
      rw [Json.pointers_set_of_absent object (kept.trans absent) other, Json.pointersAt_definitions, nothing, add_zero]
    · rename_i held
      cases begins
      have step := Json.pointers_set (kept.trans held) other (.obj final)
      rwa [Json.pointersAt_definitions, Json.pointersAt_definitions] at step
    · cases begins
  have stored : gather Json.pointers (storeAll root.moves start) = gather Json.pointers start + carried root.moves :=
    gather_storeAll Json.pointers (fresh.of_le (Multiset.le_add_right _ _))
  have flat := root.pointers_flattened
  have swept := done.passes.gather_pointers fresh.storeAll
  apply add_right_cancel (b := gather Json.pointers start)
  calc run.root.pointers + gather Json.pointers start
      = (root.flattened.pointers + carried root.moves) + (gather Json.pointers start + leftBehind later) := by
        rw [swapped, swept, stored]
        abel
    _ = root.pointers + leftBehind (root.moves + later) + gather Json.pointers start := by
        rw [flat, leftBehind_add]
        abel

end Unnesting

namespace Statistics

theorem references_ofRoot (root : Json) : (ofRoot root).references = root.pointers.card :=
  Tally.references_count true root

theorem definitions_ofRoot {root : Json} {start : Fields} (begins : root.definitions? = some start) :
    (ofRoot root).definitions = start.length ∧ (ofRoot root).unfinished = Unnesting.unfinished start := by
  unfold Json.definitions? at begins
  split at begins
  · rename_i absent
    cases begins
    simp [ofRoot, Json.object?, absent, Unnesting.unfinished]
  · rename_i held
    cases begins
    simp [ofRoot, Json.object?, held, Unnesting.unfinished]
  · cases begins

end Statistics

namespace Unnesting

variable {room : Room}

/-- The records of a run are the difference between the statistics before and after it. -/
structure Run.AddsUp (run : Run) (root : Json) : Prop where
  references : (Statistics.ofRoot run.root).references = (Statistics.ofRoot root).references + run.made.length
  pointers : run.root.pointers = root.pointers + (run.made.map fun record => Json.str record.reference : List Json)
  definitions : (Statistics.ofRoot run.root).definitions = (Statistics.ofRoot root).definitions + run.made.length
  unfinished : (Statistics.ofRoot run.root).unfinished = 0

theorem statistics_add_up {root : Json} {start : Fields} (object : root.isObject)
    (begins : root.definitions? = some start) (distinct : (Entries.keys start).Nodup)
    (returns : (unnest room root).fault = none) (fresh : ∀ record ∈ (unnest room root).made, record.overwrote = false) :
    (unnest room root).AddsUp root := by
  obtain ⟨later, final, done⟩ := completes_unnest begins distinct returns
  have free := done.fresh fresh
  have ends : (unnest room root).root.definitions? = some final := by
    simp only [Json.definitions?, done.definitions object]
  have left : (leftBehind (root.moves ++ later : List Move)) =
      ((unnest room root).made.map fun record => Json.str record.reference : List Json) := by
    rw [done.made, recordAll_of_fresh free, List.map_map]
    rfl
  have pointers := done.pointers object begins free
  rw [left] at pointers
  constructor
  · rw [Statistics.references_ofRoot, Statistics.references_ofRoot, pointers, Multiset.card_add, Multiset.coe_card,
      List.length_map]
  · exact pointers
  · have sizes := congrArg List.length done.keys
    rw [storeAll_of_fresh free] at sizes
    simp only [Entries.keys, List.length_map, List.length_append] at sizes
    rw [(Statistics.definitions_ofRoot ends).1, (Statistics.definitions_ofRoot begins).1, done.made, length_recordAll,
      sizes, List.length_append]
  · rw [(Statistics.definitions_ofRoot ends).2, unfinished_of_settled done.settled]

def quotingRoot : Json :=
  .obj [("allOf", .arr [.obj [("$ref", .str "#/definitions/d")]]),
    ("properties", .obj
      [("a", .obj [("properties", .obj [("b", .obj [("$ref", .str "#/definitions/d")]),
        ("c", .obj [("properties", .obj [])])])])]),
    ("definitions", .obj
      [("d", .obj [("$ref", .str "e"), ("properties", .obj [("p", .obj [("properties", .obj [])])])]),
        ("f", .obj [("definitions", .obj [("g", .obj [("$ref", .str "#")])]),
          ("properties", .obj [("h", .obj [("items", .obj [("$id", .str "i")])])])])])]

theorem statistics_add_up_quotingRoot :
    quotingRoot.isObject ∧ (∃ start, quotingRoot.definitions? = some start ∧ (Entries.keys start).Nodup) ∧
      (unnest (.ofDepth 100) quotingRoot).fault = none ∧
        (∀ record ∈ (unnest (.ofDepth 100) quotingRoot).made, record.overwrote = false) ∧
      (unnest (.ofDepth 100) quotingRoot).AddsUp quotingRoot := by
  have returns : (unnest (.ofDepth 100) quotingRoot).fault = none := by decide +kernel
  have fresh : ∀ record ∈ (unnest (.ofDepth 100) quotingRoot).made, record.overwrote = false := by decide +kernel
  refine ⟨by decide, ⟨_, rfl, by decide⟩, returns, fresh, ?_⟩
  exact statistics_add_up (by decide) rfl (by decide) returns fresh

end Unnesting
end SchemaUnnest
