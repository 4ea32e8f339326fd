import SchemaUnnest.Json.Part
import SchemaUnnest.Json.Reordered

namespace SchemaUnnest.Unnesting

/-- Which values the stack has room to copy. That depends on how much of the stack is in use, and by a level on
what stands at the bottom of a value, so no depth marks it off; but a part takes no more room than the whole, and
the order of keys takes none. -/
structure Room where
  holds : Json → Bool
  holds_of_isPart : ∀ {part whole : Json}, part.IsPart whole → holds whole → holds part
  holds_of_reordered : ∀ {value other : Json}, value.Reordered other → holds value → holds other

namespace Room

def ofDepth (limit : Int) : Room where
  holds value := value.depth ≤ limit
  holds_of_isPart inside fits := by
    have lower := inside.depth_le
    simp only [decide_eq_true_eq] at fits ⊢
    omega
  holds_of_reordered alike fits := by
    simp only [decide_eq_true_eq] at fits ⊢
    rwa [← alike.depth]

def unbounded : Room := ⟨fun _ => true, fun _ _ => rfl, fun _ _ => rfl⟩

theorem holds_eq_of_reordered (room : Room) {value other : Json} (alike : value.Reordered other) :
    room.holds value = room.holds other :=
  Bool.eq_iff_iff.2 ⟨room.holds_of_reordered alike, room.holds_of_reordered alike.symm⟩

end Room
end SchemaUnnest.Unnesting
