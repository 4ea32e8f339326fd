import SchemaUnnest.Proofs.Nesting
import SchemaUnnest.Proofs.Rendering

namespace SchemaUnnest

open Unnesting

namespace Json

theorem readable_reference (pointer : Text) : (reference pointer).Readable := by
  apply Readable.obj (by simp [Entries.keys])
  intro key value member
  cases List.mem_singleton.1 member
  exact .leaf rfl (by simp)

theorem Readable.flatValue {value : Json} (h : value.Readable) (key : Text) : (flatValue key value).Readable := by
  cases found : move? key value with
  | none =>
    rw [flatValue_of_move?_none found]
    exact h
  | some move =>
    have pointer : move.reference.Readable := readable_reference move.pointer
    simp only [Json.flatValue, found]
    cases move.kind with
    | object => exact pointer
    | arrayItem => exact h.set pointer Keyword.items

theorem Readable.flattened {node : Json} (h : node.Readable) : node.flattened.Readable := by
  cases hp : node.properties? with
  | none =>
    simp only [Json.flattened, hp]
    exact h
  | some properties =>
    have held := properties?_eq_some.1 hp
    have keys : Entries.keys (flatProperties properties) = Entries.keys properties := by
      simp [Entries.keys, flatProperties, Function.comp_def]
    have flat : Readable (.obj (flatProperties properties)) := by
      apply Readable.obj (keys ▸ h.distinct properties (isPart_of_get? held))
      intro key value member
      obtain ⟨⟨key, old⟩, other, same⟩ := List.mem_map.1 member
      cases same
      exact (h.part (isPart_of_mem_properties hp other)).flatValue key
    simp only [Json.flattened, hp]
    exact h.set flat Keyword.properties

theorem Readable.finished {node : Json} (h : node.Readable) : node.finished.Readable := by
  unfold Json.finished
  split
  · exact h.flattened
  · exact h

end Json

namespace Unnesting

variable {room : Room}

end Unnesting
end SchemaUnnest
