import SchemaUnnest.Json.Depth

namespace SchemaUnnest.Json

def isLeaf : Json → Bool
  | .arr _ | .obj _ => false
  | _ => true

/-- The values have the same elements in the same order and the same keys in any order, each key once in an
object, with values under them that are alike again. -/
inductive Reordered : Json → Json → Prop where
  | leaf {value : Json} (leaf : value.isLeaf) : Reordered value value
  | arr {items others : List Json} (size : items.length = others.length)
    (each : ∀ (place : Nat) (item other : Json), items[place]? = some item → others[place]? = some other →
      Reordered item other) : Reordered (.arr items) (.arr others)
  | obj {fields others : Fields} (keys : (Entries.keys fields).Perm (Entries.keys others))
    (distinct : (Entries.keys fields).Nodup)
    (each : ∀ (key : Text) (value other : Json), (key, value) ∈ fields → (key, other) ∈ others →
      Reordered value other) : Reordered (.obj fields) (.obj others)

theorem Reordered.symm {value other : Json} (h : value.Reordered other) : other.Reordered value := by
  induction h with
  | leaf leaf => exact .leaf leaf
  | arr size each ih =>
    exact .arr size.symm fun place item other held there => ih place other item there held
  | obj keys distinct each ih =>
    exact .obj keys.symm (keys.nodup_iff.1 distinct) fun key value other held there => ih key other value there held

theorem Reordered.exists_member {fields others : Fields} (h : (Json.obj fields).Reordered (Json.obj others))
    {key : Text}
    {value : Json} (held : (key, value) ∈ fields) : ∃ other, (key, other) ∈ others ∧ value.Reordered other := by
  cases h with
  | leaf leaf => cases leaf
  | obj keys distinct each =>
    obtain ⟨⟨same, other⟩, there, rfl⟩ := List.mem_map.1 (keys.mem_iff.1 (List.mem_map_of_mem held))
    exact ⟨other, there, each same value other held there⟩

theorem Reordered.depth_le {value other : Json} (h : value.Reordered other) : value.depth ≤ other.depth := by
  induction h with
  | leaf leaf => exact Int.le_refl _
  | @arr items others size each ih =>
    apply depth_arr_le (depth_nonneg _)
    intro item member
    obtain ⟨place, bound, rfl⟩ := List.mem_iff_getElem.1 member
    have bound' : place < others.length := size ▸ bound
    have below := depth_lt_of_mem_items (List.getElem_mem bound')
    have inner := ih place items[place] others[place] (List.getElem?_eq_getElem bound) (List.getElem?_eq_getElem bound')
    omega
  | @obj fields others keys distinct each ih =>
    apply depth_obj_le (depth_nonneg _)
    intro key value held
    obtain ⟨other, there, -⟩ := (Reordered.obj keys distinct each).exists_member held
    have below := depth_lt_of_mem_fields there
    have inner := ih key value other held there
    omega

theorem Reordered.depth {value other : Json} (h : value.Reordered other) : value.depth = other.depth :=
  Int.le_antisymm h.depth_le h.symm.depth_le

end SchemaUnnest.Json
