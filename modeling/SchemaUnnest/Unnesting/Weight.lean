import SchemaUnnest.Unnesting.Moves

namespace SchemaUnnest

theorem Entries.sizeOf_lt_of_get? {key : Text} {value : Json} {fields : Fields}
    (found : Entries.get? key fields = some value) : sizeOf value < sizeOf fields := by
  have whole := List.sizeOf_lt_of_mem (Entries.mem_of_get? found)
  simp only [Prod.mk.sizeOf_spec] at whole
  omega

namespace Json

open Unnesting

theorem sizeOf_lt_of_get? {node value : Json} {key : Text} (h : node.get? key = some value) :
    sizeOf value < sizeOf node := by
  obtain ⟨fields, rfl, found⟩ := fields_of_get? h
  have inner := Entries.sizeOf_lt_of_get? found
  simp only [obj.sizeOf_spec]
  omega

theorem sizeOf_lt_of_mem_properties {node value : Json} {properties : Fields} {key : Text}
    (held : node.properties? = some properties) (member : (key, value) ∈ properties) : sizeOf value < sizeOf node := by
  have below := sizeOf_lt_of_get? (properties?_eq_some.1 held)
  have inside := List.sizeOf_lt_of_mem member
  simp only [obj.sizeOf_spec, Prod.mk.sizeOf_spec] at below inside
  omega

theorem sizeOf_lt_of_itemSchema? {value item : Json} (found : value.itemSchema? = some item) :
    sizeOf item < sizeOf value :=
  sizeOf_lt_of_get? (itemSchema?_eq_some found).2.1

theorem sizeOf_fragment_lt {node : Json} {move : Move} (h : move ∈ node.moves) :
    sizeOf move.fragment < sizeOf node := by
  obtain ⟨properties, hp, mine⟩ := properties?_of_mem_moves h
  obtain ⟨key, value, member, found⟩ := mem_movesOf.1 mine
  have inside := sizeOf_lt_of_mem_properties hp member
  rcases move?_eq_some found with ⟨-, rfl⟩ | ⟨-, item, hi, rfl⟩
  · exact inside
  · exact Nat.lt_trans (sizeOf_lt_of_itemSchema? hi) inside

def weight (counts : Move → Bool) (node : Json) : Nat :=
  node.moves.attach.foldr (fun move more => (if counts move.1 then 1 else 0) + weight counts move.1.fragment + more) 0
termination_by sizeOf node
decreasing_by exact sizeOf_fragment_lt move.2

theorem weight_eq (counts : Move → Bool) (node : Json) :
    node.weight counts =
      node.moves.countP counts + Entries.total (weight counts) (node.moves.map Move.entry) := by
  rw [weight, List.foldr_attach (f := fun move more => (if counts move then 1 else 0) + weight counts move.fragment + more)]
  induction node.moves with
  | nil => rfl
  | cons move rest ih =>
    simp only [List.foldr_cons, ih, List.countP_cons, List.map_cons, Entries.total, Move.entry]
    omega

theorem weight_of_moves_nil (counts : Move → Bool) {node : Json} (h : node.moves = []) : node.weight counts = 0 := by
  rw [weight_eq, h]
  rfl

theorem weight_flattened (counts : Move → Bool) (node : Json) : node.flattened.weight counts = 0 :=
  weight_of_moves_nil counts (moves_flattened node)

end Json

namespace Unnesting

/-- The definitions after a pass over the node of a definition: it is flattened in its place, and its
fragments are stored, one of them in that very place perhaps. -/
def passed (name : Text) (node : Json) (definitions : Fields) : Fields :=
  storeAll node.moves (Entries.set name node.flattened definitions)

theorem total_passed_le (counts : Move → Bool) {name : Text} {node : Json} {definitions : Fields}
    (found : Entries.get? name definitions = some node) :
    Entries.total (Json.weight counts) (passed name node definitions) + node.moves.countP counts ≤
      Entries.total (Json.weight counts) definitions := by
  have settle := Entries.total_set (Json.weight counts) name node.flattened definitions
  have stored := Entries.total_setAll_le (Json.weight counts) (node.moves.map Move.entry)
    (Entries.set name node.flattened definitions)
  have weigh := Json.weight_eq counts node
  simp only [found, Option.map_some, Option.getD_some, Json.weight_flattened] at settle
  simp only [passed, storeAll]
  omega

end Unnesting
end SchemaUnnest
