import SchemaUnnest.Json.Depth

namespace SchemaUnnest.Json

inductive IsPart (part : Json) : Json → Prop where
  | self : IsPart part part
  | item {items : List Json} {item : Json} (member : item ∈ items) (inside : IsPart part item) :
    IsPart part (.arr items)
  | member {fields : Fields} {key : Text} {value : Json} (member : (key, value) ∈ fields)
    (inside : IsPart part value) : IsPart part (.obj fields)

theorem IsPart.trans {part middle whole : Json} (inner : part.IsPart middle) (outer : middle.IsPart whole) :
    part.IsPart whole := by
  induction outer with
  | self => exact inner
  | item member _ ih => exact .item member ih
  | member member _ ih => exact .member member ih

theorem isPart_of_get? {node value : Json} {key : Text} (h : node.get? key = some value) : value.IsPart node := by
  cases node with
  | obj fields => exact .member (Entries.mem_of_get? h) .self
  | _ => cases h

theorem IsPart.depth_le {part whole : Json} (h : part.IsPart whole) : part.depth ≤ whole.depth := by
  induction h with
  | self => exact Int.le_refl _
  | item member _ ih =>
    have below := depth_lt_of_mem_items member
    omega
  | member member _ ih =>
    have below := depth_lt_of_mem_fields member
    omega

mutual

def everyPart (test : Json → Bool) : Json → Bool
  | .arr items => test (.arr items) && everyItem test items
  | .obj fields => test (.obj fields) && everyMember test fields
  | value => test value

def everyItem (test : Json → Bool) : List Json → Bool
  | [] => true
  | item :: rest => item.everyPart test && everyItem test rest

def everyMember (test : Json → Bool) : List (Text × Json) → Bool
  | [] => true
  | (_, value) :: rest => value.everyPart test && everyMember test rest

end

theorem everyItem_iff {test : Json → Bool} {items : List Json} :
    everyItem test items ↔ ∀ item ∈ items, item.everyPart test := by
  induction items with
  | nil => simp [everyItem]
  | cons item rest ih => simp [everyItem, ih]

theorem everyMember_iff {test : Json → Bool} {fields : Fields} :
    everyMember test fields ↔ ∀ entry ∈ fields, entry.2.everyPart test := by
  induction fields with
  | nil => simp [everyMember]
  | cons entry rest ih => simp [everyMember, ih]

theorem test_of_everyPart {test : Json → Bool} {value : Json} (h : value.everyPart test) : test value := by
  cases value <;> simp_all [everyPart]

theorem everyPart_of_forall {test : Json → Bool} :
    ∀ value : Json, (∀ part, part.IsPart value → test part) → value.everyPart test
  | .arr items, h => by
    have inner : ∀ item ∈ items, item.everyPart test := fun item member =>
      everyPart_of_forall item fun part inside => h part (.item member inside)
    simp [everyPart, everyItem_iff.2 inner, h _ .self]
  | .obj fields, h => by
    have inner : ∀ entry ∈ fields, entry.2.everyPart test := fun entry member =>
      everyPart_of_forall entry.2 fun part inside => h part (.member member inside)
    simp [everyPart, everyMember_iff.2 inner, h _ .self]
  | .null, h | .bool _, h | .int _, h | .float _, h | .str _, h => h _ .self
termination_by value => sizeOf value
decreasing_by
  · have below := List.sizeOf_lt_of_mem member
    simp only [arr.sizeOf_spec]
    omega
  · have below := List.sizeOf_lt_of_mem member
    obtain ⟨key, value⟩ := entry
    simp only [Prod.mk.sizeOf_spec, obj.sizeOf_spec] at below ⊢
    omega

theorem everyPart_iff {test : Json → Bool} {value : Json} :
    value.everyPart test ↔ ∀ part, part.IsPart value → test part := by
  constructor
  · intro h part inside
    induction inside with
    | self => exact test_of_everyPart h
    | item member _ ih =>
      simp only [everyPart, Bool.and_eq_true] at h
      exact ih (everyItem_iff.1 h.2 _ member)
    | member member _ ih =>
      simp only [everyPart, Bool.and_eq_true] at h
      exact ih (everyMember_iff.1 h.2 _ member)
  · exact everyPart_of_forall value

end SchemaUnnest.Json
