import Mathlib.Data.Multiset.Bind
import SchemaUnnest.Proofs.Readable
import SchemaUnnest.Unnesting.Moves

namespace SchemaUnnest

open Unnesting

namespace Json

mutual

def alike : Json → Json → Bool
  | .arr items, .arr others => alikeItems items others
  | .obj fields, .obj others =>
    decide ((Entries.keys fields).Perm (Entries.keys others)) && decide (Entries.keys fields).Nodup &&
      alikeMembers others fields
  | value, other => value.isLeaf && decide (value = other)

def alikeItems : List Json → List Json → Bool
  | [], [] => true
  | item :: rest, other :: others => item.alike other && alikeItems rest others
  | _, _ => false

def alikeMembers (others : Fields) : List (Text × Json) → Bool
  | [] => true
  | (key, value) :: rest =>
    (match Entries.get? key others with
      | some other => value.alike other
      | none => false) && alikeMembers others rest

end

theorem alikeItems_iff {items others : List Json} :
    alikeItems items others ↔ items.length = others.length ∧
      ∀ (place : Nat) (item other : Json), items[place]? = some item → others[place]? = some other →
        item.alike other := by
  induction items generalizing others with
  | nil => cases others <;> simp [alikeItems]
  | cons item rest ih =>
    cases others with
    | nil => simp [alikeItems]
    | cons other others =>
      simp only [alikeItems, Bool.and_eq_true, ih, List.length_cons, Nat.add_right_cancel_iff]
      constructor
      · rintro ⟨first, size, each⟩
        refine ⟨size, fun place => ?_⟩
        cases place with
        | zero => rintro _ _ ⟨⟩ ⟨⟩; exact first
        | succ place => exact each place
      · rintro ⟨size, each⟩
        exact ⟨each 0 item other rfl rfl, size, fun place => each (place + 1)⟩

theorem alikeMembers_iff {others fields : Fields} :
    alikeMembers others fields ↔ ∀ key value, (key, value) ∈ fields →
      ∃ other, Entries.get? key others = some other ∧ value.alike other := by
  induction fields with
  | nil => simp [alikeMembers]
  | cons entry rest ih =>
    obtain ⟨key, value⟩ := entry
    simp only [alikeMembers, Bool.and_eq_true, ih]
    constructor
    · rintro ⟨first, later⟩ other held member
      rcases List.mem_cons.1 member with same | member
      · cases same
        split at first
        · rename_i new found
          exact ⟨new, found, first⟩
        · cases first
      · exact later other held member
    · intro each
      obtain ⟨new, found, first⟩ := each key value List.mem_cons_self
      exact ⟨by simpa only [found] using first, fun other held member => each other held
        (List.mem_cons_of_mem _ member)⟩

theorem reordered_of_alike : ∀ value other : Json, value.alike other → value.Reordered other
  | .arr items, other, h => by
    cases other with
    | arr others =>
      obtain ⟨size, each⟩ := alikeItems_iff.1 h
      refine .arr size fun place item other held there => ?_
      have member := List.mem_of_getElem? held
      exact reordered_of_alike item other (each place item other held there)
    | _ => cases h
  | .obj fields, other, h => by
    cases other with
    | obj others =>
      simp only [alike, Bool.and_eq_true, decide_eq_true_eq] at h
      obtain ⟨⟨keys, distinct⟩, each⟩ := h
      refine .obj keys distinct fun key value other held there => ?_
      obtain ⟨new, found, inner⟩ := alikeMembers_iff.1 each key value held
      rw [Entries.get?_of_mem (keys.nodup_iff.1 distinct) there, Option.some.injEq] at found
      exact reordered_of_alike value other (found ▸ inner)
    | _ => cases h
  | .null, other, h | .bool _, other, h | .int _, other, h | .float _, other, h | .str _, other, h => by
    simp only [alike, isLeaf, Bool.true_and, decide_eq_true_eq] at h
    exact h ▸ .leaf rfl
termination_by value => sizeOf value
decreasing_by
  · have below := List.sizeOf_lt_of_mem member
    simp only [arr.sizeOf_spec]
    omega
  · have below := List.sizeOf_lt_of_mem held
    simp only [Prod.mk.sizeOf_spec, obj.sizeOf_spec] at below ⊢
    omega

theorem Reordered.alike {value other : Json} (h : value.Reordered other) : value.alike other := by
  induction h with
  | @leaf value leaf => cases value <;> simp_all [Json.alike, isLeaf]
  | arr size each ih => exact alikeItems_iff.2 ⟨size, ih⟩
  | @obj fields others keys distinct each ih =>
    have members : alikeMembers others fields := by
      rw [alikeMembers_iff]
      intro key value held
      have member : key ∈ Entries.keys others := keys.mem_iff.1 (List.mem_map_of_mem held)
      obtain ⟨other, found⟩ := Option.isSome_iff_exists.1 ((Entries.has_iff_mem_keys key others).2 member)
      exact ⟨other, found, ih key value other held (Entries.mem_of_get? found)⟩
    simp [Json.alike, keys, distinct, members]

instance (value other : Json) : Decidable (value.Reordered other) :=
  decidable_of_iff _ ⟨reordered_of_alike value other, Reordered.alike⟩

/-- What holds of a value whenever it holds of one that is alike, holds of both or of neither. -/
theorem Reordered.test_eq {test : Json → Bool} (keeps : ∀ value other : Json, value.Reordered other →
    test value → test other)
    {value other : Json} (h : value.Reordered other) : test value = test other :=
  Bool.eq_iff_iff.2 ⟨keeps value other h, keeps other value h.symm⟩

theorem Reordered.get? {node other value : Json} {key : Text} (h : node.Reordered other)
    (found : node.get? key = some value) : ∃ new, other.get? key = some new ∧ value.Reordered new := by
  obtain ⟨fields, rfl, held⟩ := fields_of_get? found
  cases h with
  | leaf leaf => cases leaf
  | obj keys distinct each =>
    rename_i others
    have member : key ∈ Entries.keys others := keys.mem_iff.1 (List.mem_map_of_mem (Entries.mem_of_get? held))
    obtain ⟨new, there⟩ := Option.isSome_iff_exists.1 ((Entries.has_iff_mem_keys key others).2 member)
    exact ⟨new, there, each key value new (Entries.mem_of_get? held) (Entries.mem_of_get? there)⟩

theorem Reordered.isObject {node other : Json} (h : node.Reordered other) : node.isObject = other.isObject := by
  cases h <;> rfl

theorem Reordered.isReference {node other : Json} (h : node.Reordered other) :
    node.isReference = other.isReference := by
  apply h.test_eq
  intro value other h reference
  rw [isReference_eq, Option.isSome_iff_exists] at reference ⊢
  obtain ⟨target, found⟩ := reference
  obtain ⟨new, there, -⟩ := h.get? found
  exact ⟨new, there⟩

theorem Reordered.properties? {node other : Json} {properties : Fields} (h : node.Reordered other)
    (hp : node.properties? = some properties) :
    ∃ others, other.properties? = some others ∧ (Json.obj properties).Reordered (Json.obj others) := by
  obtain ⟨new, there, alike⟩ := h.get? (properties?_eq_some.1 hp)
  cases alike with
  | leaf leaf => cases leaf
  | obj keys distinct each => exact ⟨_, properties?_eq_some.2 there, .obj keys distinct each⟩

theorem Reordered.properties?_none {node other : Json} (h : node.Reordered other) (hp : node.properties? = none) :
    other.properties? = none := by
  cases ho : other.properties? with
  | none => rfl
  | some others =>
    obtain ⟨properties, held, -⟩ := h.symm.properties? ho
    rw [hp] at held
    cases held

theorem Reordered.definitions? {root other : Json} {start : Fields} (h : root.Reordered other)
    (begins : root.definitions? = some start) :
    ∃ begun, other.definitions? = some begun ∧ (Json.obj start).Reordered (Json.obj begun) := by
  unfold Json.definitions? at begins ⊢
  cases found : root.get? Keyword.definitions with
  | none =>
    rw [found] at begins
    cases begins
    cases there : other.get? Keyword.definitions with
    | none => exact ⟨[], rfl, .obj (List.Perm.refl _) List.nodup_nil fun key value other held => absurd held (by simp)⟩
    | some new =>
      obtain ⟨old, held, -⟩ := h.symm.get? there
      rw [found] at held
      cases held
  | some definitions =>
    obtain ⟨new, there, alike⟩ := h.get? found
    rw [found] at begins
    rw [there]
    cases alike with
    | leaf leaf => cases definitions <;> cases leaf <;> cases begins
    | arr => cases begins
    | obj keys distinct each =>
      cases begins
      exact ⟨_, rfl, .obj keys distinct each⟩

theorem Reordered.hasProperties {node other : Json} (h : node.Reordered other) :
    node.hasProperties = other.hasProperties := by
  apply h.test_eq
  intro node other h held
  obtain ⟨properties, hp⟩ := Option.isSome_iff_exists.1 held
  obtain ⟨others, ho, -⟩ := h.properties? hp
  exact Option.isSome_iff_exists.2 ⟨others, ho⟩

theorem Reordered.isNestedObject {value other : Json} (h : value.Reordered other) :
    value.isNestedObject = other.isNestedObject := by
  rw [Json.isNestedObject, Json.isNestedObject, h.isReference, h.hasProperties]

theorem Reordered.itemSchema? {value other item : Json} (h : value.Reordered other)
    (found : value.itemSchema? = some item) : ∃ new, other.itemSchema? = some new ∧ item.Reordered new := by
  obtain ⟨free, held, object, plain⟩ := itemSchema?_eq_some found
  obtain ⟨new, there, alike⟩ := h.get? held
  refine ⟨new, ?_, alike⟩
  rw [h.isReference] at free
  rw [alike.isObject] at object
  rw [alike.isReference] at plain
  simp [Json.itemSchema?, free, there, Option.filter, object, plain]

theorem Reordered.isInline {value other : Json} (h : value.Reordered other) : value.isInline = other.isInline := by
  apply h.test_eq
  intro value other h inline
  simp only [Json.isInline, Bool.or_eq_true, Option.any_eq_true] at inline ⊢
  rcases inline with nested | ⟨item, hi, shape⟩
  · exact Or.inl (h.isNestedObject ▸ nested)
  · obtain ⟨new, hn, alike⟩ := h.itemSchema? hi
    exact Or.inr ⟨new, hn, alike.hasProperties ▸ shape⟩

theorem Reordered.holdsNested {node other : Json} (h : node.Reordered other) :
    node.holdsNested = other.holdsNested := by
  apply h.test_eq
  intro node other h nested
  simp only [Json.holdsNested, Bool.and_eq_true, Option.any_eq_true, List.any_eq_true] at nested ⊢
  obtain ⟨free, properties, hp, ⟨key, value⟩, held, inline⟩ := nested
  obtain ⟨others, ho, members⟩ := h.properties? hp
  obtain ⟨new, there, alike⟩ := members.exists_member held
  exact ⟨h.isReference ▸ free, others, ho, (key, new), there, alike.isInline ▸ inline⟩

theorem Reordered.distinct {fields : Fields} {other : Json} (h : (Json.obj fields).Reordered other) :
    (Entries.keys fields).Nodup := by
  cases h with
  | leaf leaf => cases leaf
  | obj keys distinct each => exact distinct

theorem Reordered.has {fields others : Fields} (h : (Json.obj fields).Reordered (Json.obj others)) (key : Text) :
    Entries.has key fields = Entries.has key others := by
  cases h with
  | leaf leaf => cases leaf
  | obj keys distinct each => rw [Bool.eq_iff_iff, Entries.has_iff_mem_keys, Entries.has_iff_mem_keys, keys.mem_iff]

/-- Entries whose keys are distinct on both sides and lead to values that are alike. -/
theorem reordered_obj {fields others : Fields} (keys : (Entries.keys fields).Perm (Entries.keys others))
    (distinct : (Entries.keys fields).Nodup)
    (each : ∀ key value other, Entries.get? key fields = some value → Entries.get? key others = some other →
      value.Reordered other) : (Json.obj fields).Reordered (Json.obj others) :=
  .obj keys distinct fun key value other held there =>
    each key value other (Entries.get?_of_mem distinct held) (Entries.get?_of_mem (keys.nodup_iff.1 distinct) there)

theorem Reordered.set {node other value new : Json} (h : node.Reordered other) (alike : value.Reordered new)
    (key : Text) : (node.set key value).Reordered (other.set key new) := by
  cases h with
  | leaf leaf =>
    cases node with
    | arr _ | obj _ => cases leaf
    | _ => exact .leaf rfl
  | arr size each => exact .arr size each
  | @obj fields others keys distinct each =>
    have taken := (Reordered.obj keys distinct each).has key
    apply reordered_obj
    · rw [Entries.keys_set, Entries.keys_set, taken]
      split
      · exact keys
      · exact keys.append_right [key]
    · exact Entries.nodup_keys_set key value distinct
    · intro name old later found there
      rw [Entries.get?_set] at found there
      split at found
      · rename_i same
        rw [if_pos same] at there
        cases found
        cases there
        exact alike
      · rename_i same
        rw [if_neg same] at there
        exact each name old later (Entries.mem_of_get? found) (Entries.mem_of_get? there)

theorem reordered_reference (pointer : Text) : (reference pointer).Reordered (reference pointer) := by
  refine .obj (List.Perm.refl _) (List.nodup_singleton _) fun key value other held there => ?_
  cases List.mem_singleton.1 held
  cases List.mem_singleton.1 there
  exact .leaf rfl

end Json

namespace Unnesting

structure Move.Alike (move other : Move) : Prop where
  kind : move.kind = other.kind
  propertyName : move.propertyName = other.propertyName
  fragment : move.fragment.Reordered other.fragment

theorem Move.Alike.name {move other : Move} (h : move.Alike other) : move.name = other.name := by
  rw [Move.name, Move.name, h.kind, h.propertyName]

theorem Move.Alike.fault? {room : Room} {move other : Move} (h : move.Alike other) :
    move.fault? room = other.fault? room := by
  rw [Move.fault?, Move.fault?, h.name, room.holds_eq_of_reordered h.fragment]

end Unnesting

namespace Json

theorem Reordered.move? {value other : Json} {key : Text} {move : Move} (h : value.Reordered other)
    (found : move? key value = some move) : ∃ new, Json.move? key other = some new ∧ move.Alike new := by
  rcases move?_eq_some found with ⟨nested, rfl⟩ | ⟨plain, item, hi, rfl⟩
  · refine ⟨⟨.object, key, other⟩, ?_, rfl, rfl, h⟩
    rw [move?_eq, if_pos (h.isNestedObject ▸ nested)]
  · obtain ⟨new, hn, alike⟩ := h.itemSchema? hi
    refine ⟨⟨.arrayItem, key, new⟩, ?_, rfl, rfl, alike⟩
    rw [h.isNestedObject] at plain
    simp [move?_eq, plain, hn]

theorem Reordered.flatValue {value other : Json} (h : value.Reordered other) (key : Text) :
    (flatValue key value).Reordered (flatValue key other) := by
  have elements : value.hasInlineItems = other.hasInlineItems := by
    apply h.test_eq
    intro value other h held
    obtain ⟨item, hi⟩ := Option.isSome_iff_exists.1 held
    obtain ⟨new, hn, -⟩ := h.itemSchema? hi
    exact Option.isSome_iff_exists.2 ⟨new, hn⟩
  rw [flatValue_eq, flatValue_eq, h.isNestedObject, elements]
  split
  · exact reordered_reference _
  · split
    · exact h.set (reordered_reference _) _
    · exact h

theorem Reordered.flatProperties {properties others : Fields} (h : (Json.obj properties).Reordered (Json.obj others)) :
    (Json.obj (flatProperties properties)).Reordered (Json.obj (flatProperties others)) := by
  have named : ∀ fields : Fields, Entries.keys (Json.flatProperties fields) = Entries.keys fields := fun fields => by
    simp [Entries.keys, Json.flatProperties, Function.comp_def]
  cases h with
  | leaf leaf => cases leaf
  | obj keys distinct each =>
    refine .obj ?_ ?_ fun key value other held there => ?_
    · rwa [named, named]
    · rwa [named]
    · obtain ⟨⟨_, old⟩, before, same⟩ := List.mem_map.1 held
      cases same
      obtain ⟨⟨_, new⟩, after, same⟩ := List.mem_map.1 there
      cases same
      exact (each _ _ _ before after).flatValue _

theorem Reordered.flattened {node other : Json} (h : node.Reordered other) :
    node.flattened.Reordered other.flattened := by
  cases hp : node.properties? with
  | none => simpa [Json.flattened, hp, h.properties?_none hp] using h
  | some properties =>
    obtain ⟨others, ho, alike⟩ := h.properties? hp
    simp only [Json.flattened, hp, ho]
    exact h.set alike.flatProperties _

theorem Reordered.finished {node other : Json} (h : node.Reordered other) :
    node.finished.Reordered other.finished := by
  rw [Json.finished, Json.finished, h.holdsNested]
  split
  · exact h.flattened
  · exact h

theorem rel_filterMap {α β γ δ : Type} {related : α → β → Prop} {alike : γ → δ → Prop} {change : α → Option γ}
    {other : β → Option δ} (each : ∀ a b, related a b → Option.Rel alike (change a) (other b)) {left : Multiset α}
    {right : Multiset β} (h : Multiset.Rel related left right) :
    Multiset.Rel alike (left.filterMap change) (right.filterMap other) := by
  induction h with
  | zero => exact .zero
  | @cons a b left right here _ ih =>
    have step := each a b here
    cases hc : change a <;> cases ho : other b <;> rw [hc, ho] at step <;> cases step
    · rwa [Multiset.filterMap_cons_none _ _ hc, Multiset.filterMap_cons_none _ _ ho]
    · rename_i same
      rw [Multiset.filterMap_cons_some _ _ _ hc, Multiset.filterMap_cons_some _ _ _ ho]
      exact .cons same ih

theorem map_lookup_keys {fields : Fields} (distinct : (Entries.keys fields).Nodup) :
    (Entries.keys fields).map (fun key => (key, (Entries.get? key fields).getD .null)) = fields := by
  rw [Entries.keys, List.map_map]
  refine (List.map_congr_left fun entry member => ?_).trans (List.map_id fields)
  simp [Entries.get?_of_mem distinct member]

theorem Reordered.rel_members {fields others : Fields} (h : (Json.obj fields).Reordered (Json.obj others)) :
    Multiset.Rel (fun entry other : Text × Json => entry.1 = other.1 ∧ entry.2.Reordered other.2) fields others := by
  cases h with
  | leaf leaf => cases leaf
  | obj keys distinct each =>
    have distinct' := keys.nodup_iff.1 distinct
    rw [← map_lookup_keys distinct, ← map_lookup_keys distinct', ← Multiset.map_coe, ← Multiset.map_coe,
      ← Multiset.coe_eq_coe.2 keys, Multiset.rel_map]
    apply Multiset.rel_refl_of_refl_on
    intro key member
    obtain ⟨⟨_, value⟩, held, rfl⟩ := List.mem_map.1 member
    obtain ⟨new, there, alike⟩ := (Reordered.obj keys distinct each).exists_member held
    simpa [Entries.get?_of_mem distinct held, Entries.get?_of_mem distinct' there] using alike

theorem reordered_of_rel {fields others : Fields} (distinct : (Entries.keys fields).Nodup)
    (h : Multiset.Rel (fun entry other : Text × Json => entry.1 = other.1 ∧ entry.2.Reordered other.2) fields others) :
    (Json.obj fields).Reordered (Json.obj others) := by
  have keys : (Entries.keys fields).Perm (Entries.keys others) := by
    have names := Multiset.rel_map.2 (h.mono fun _ _ _ _ alike => alike.1)
    rwa [Multiset.rel_eq, Multiset.map_coe, Multiset.map_coe, Multiset.coe_eq_coe] at names
  refine .obj keys distinct fun key value other held there => ?_
  obtain ⟨⟨_, new⟩, partner, rfl, alike⟩ := Multiset.exists_mem_of_rel_of_mem h held
  have mine := Entries.get?_of_mem (keys.nodup_iff.1 distinct) there
  rw [Entries.get?_of_mem (keys.nodup_iff.1 distinct) partner, Option.some.injEq] at mine
  exact mine ▸ alike

theorem Reordered.rel_moves {node other : Json} (h : node.Reordered other) :
    Multiset.Rel Move.Alike node.moves other.moves := by
  cases hp : node.properties? with
  | none =>
    have none : other.properties? = none := h.properties?_none hp
    simp [moves, hp, none]
  | some properties =>
    obtain ⟨others, ho, alike⟩ := h.properties? hp
    rw [moves_of_properties? hp, moves_of_properties? ho, Multiset.coe_eq_coe.2 (movesOf_perm properties),
      Multiset.coe_eq_coe.2 (movesOf_perm others), ← Multiset.filterMap_coe, ← Multiset.filterMap_coe]
    refine rel_filterMap ?_ alike.rel_members
    rintro ⟨key, value⟩ ⟨_, new⟩ ⟨rfl, like⟩
    dsimp only at like ⊢
    cases hm : Json.move? key value with
    | some move =>
      obtain ⟨later, found, same⟩ := like.move? hm
      rw [found]
      exact .some same
    | none =>
      cases hn : Json.move? key new with
      | none => exact .none
      | some move =>
        obtain ⟨earlier, found, -⟩ := like.symm.move? hn
        rw [hm] at found
        cases found

end Json
end SchemaUnnest
