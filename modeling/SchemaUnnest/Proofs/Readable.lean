import SchemaUnnest.Json.Part
import SchemaUnnest.Json.Reordered
import SchemaUnnest.Proofs.Digits
import SchemaUnnest.Proofs.Scans
import SchemaUnnest.Schema.Shape

namespace SchemaUnnest.Json

structure Readable (value : Json) : Prop where
  distinct : ∀ fields, IsPart (.obj fields) value → (Entries.keys fields).Nodup
  short : ∀ n, IsPart (.int n) value → (Text.ofNat n.natAbs).length ≤ maxDigits

theorem IsPart.eq_of_isLeaf {part value : Json} (inside : part.IsPart value) (leaf : value.isLeaf) : part = value := by
  cases inside with
  | self => rfl
  | item _ _ => cases leaf
  | member _ _ => cases leaf

namespace Readable

theorem part {value part : Json} (h : value.Readable) (inside : part.IsPart value) : part.Readable where
  distinct fields within := h.distinct fields (within.trans inside)
  short n within := h.short n (within.trans inside)

theorem int {n : Int} (short : (Text.ofNat n.natAbs).length ≤ maxDigits) : Readable (.int n) where
  distinct fields inside := by cases inside.eq_of_isLeaf rfl
  short other inside := by
    cases inside.eq_of_isLeaf rfl
    exact short

/-- A value that is neither a whole number nor holds other values. -/
theorem leaf {value : Json} (leaf : value.isLeaf) (other : ∀ n, value ≠ .int n) : value.Readable where
  distinct fields inside := by
    have same := inside.eq_of_isLeaf leaf
    subst same
    cases leaf
  short n inside := absurd (inside.eq_of_isLeaf leaf).symm (other n)

theorem arr {items : List Json} (each : ∀ item ∈ items, item.Readable) : Readable (.arr items) where
  distinct fields inside := by
    cases inside with
    | item member within => exact (each _ member).distinct fields within
  short n inside := by
    cases inside with
    | item member within => exact (each _ member).short n within

theorem obj {fields : Fields} (distinct : (Entries.keys fields).Nodup)
    (each : ∀ key value, (key, value) ∈ fields → value.Readable) : Readable (.obj fields) where
  distinct inner inside := by
    cases inside with
    | self => exact distinct
    | member member within => exact (each _ _ member).distinct inner within
  short n inside := by
    cases inside with
    | member member within => exact (each _ _ member).short n within

theorem set {node new : Json} (h : node.Readable) (own : new.Readable) (key : Text) : (node.set key new).Readable := by
  cases node with
  | obj fields =>
    apply obj (Entries.nodup_keys_set key new (h.distinct fields .self))
    intro other found held
    rcases Entries.mem_set held with rfl | old
    · exact own
    · exact h.part (.member old .self)
  | _ => exact h

end Readable

theorem readable_numeral {numeral : Numeral} {value : Json} (some : numeral.whole ≠ [])
    (each : ∀ c ∈ numeral.whole, c.isDigit) (h : numeral.value = .ok value) : value.Readable := by
  unfold Numeral.value at h
  split at h
  · split at h
    · cases h
    · rename_i fits
      have digits := Text.length_ofNat_toNat_le each some
      cases h
      apply Readable.int
      split <;> simp <;> omega
  · cases h
    exact .leaf rfl (by simp)

theorem readable_readScalar {text rest : Text} {value : Json} (h : readScalar text = .ok (value, rest)) :
    value.Readable := by
  rcases readScalar_cases h with ⟨name, member, -⟩ | ⟨numeral, taken, own⟩
  · have plain : ∀ entry ∈ named, entry.2.isLeaf ∧ ∀ n, entry.2 ≠ .int n := by simp [named, isLeaf]
    exact .leaf (plain _ member).1 (plain _ member).2
  · obtain ⟨some, each⟩ := whole_of_takeNumeral taken
    exact readable_numeral some each own

def FindsReadable (value : Text → Scan Json) : Prop :=
  ∀ text found rest, value text = .ok (found, rest) → found.Readable

theorem readable_readItems {value : Text → Scan Json} (sound : FindsReadable value) {fuel : Nat}
    {before items : List Json} {text rest : Text} (each : ∀ item ∈ before, item.Readable)
    (h : readItems value fuel before text = .ok (items, rest)) : ∀ item ∈ items, item.Readable := by
  fun_induction readItems with
  | case3 fuel before text item after found close ends =>
    cases h
    intro other member
    rcases List.mem_cons.1 (List.mem_reverse.1 member) with rfl | member
    · exact sound _ _ _ found
    · exact each other member
  | case4 fuel before text item after found more ends goesOn ih =>
    refine ih ?_ h
    intro other member
    rcases List.mem_cons.1 member with rfl | member
    · exact sound _ _ _ found
    · exact each other member
  | case1 | case2 | case5 | case6 => cases h

theorem readable_readFields {value : Text → Scan Json} (sound : FindsReadable value) {fuel : Nat}
    {before fields : Fields} {text rest : Text} (whole : Readable (.obj before))
    (h : readFields value fuel before text = .ok (fields, rest)) : Readable (.obj fields) := by
  fun_induction readFields with
  | case4 fuel before text key colon named member after found read close ends =>
    simp only [Except.ok.injEq, Prod.mk.injEq] at h
    rw [← h.1]
    exact whole.set (sound _ _ _ found) key
  | case5 fuel before text key colon named member after found read more ends goesOn ih =>
    exact ih (whole.set (sound _ _ _ found) key) h
  | case1 | case2 | case3 | case6 | case7 => cases h

theorem findsReadable_readNode {inner : Option (Text → Scan Json)} (sound : ∀ value ∈ inner, FindsReadable value) :
    FindsReadable (readNode inner) := by
  have none : Readable (.obj []) := .obj List.nodup_nil (by simp)
  intro text found rest h
  cases readNode_eq_ok_iff.1 h with
  | str => exact .leaf rfl (by simp)
  | noItems => exact .arr (by simp)
  | items allowed _ _ read => exact .arr (readable_readItems (sound _ allowed) (by simp) read)
  | noFields => exact none
  | fields allowed _ _ read => exact readable_readFields (sound _ allowed) none read
  | scalar _ _ _ read => exact readable_readScalar read

theorem findsReadable_readValue (levels : Nat) : FindsReadable (readValue levels) :=
  readValue_induction (p := FindsReadable) (fun _ => findsReadable_readNode) levels

theorem readable_read {levels : Nat} {text : Text} {value : Json} (h : read levels text = .ok value) :
    value.Readable := by
  unfold read at h
  split at h
  · cases h
  · split at h
    · cases h
    · rename_i found rest scanned
      split at h
      · cases h
        exact findsReadable_readValue levels _ _ _ scanned
      · cases h

theorem Readable.nodup_definitions {root : Json} (h : root.Readable) {start : Fields}
    (begins : root.definitions? = some start) : (Entries.keys start).Nodup := by
  rcases definitions?_cases begins with rfl | held
  · exact List.nodup_nil
  · exact h.distinct start (isPart_of_get? held)

/-- The definitions of a schema that has been read have names of their own. -/
theorem nodup_definitions_of_read {levels : Nat} {text : Text} {root : Json} {start : Fields}
    (h : read levels text = .ok root) (begins : root.definitions? = some start) : (Entries.keys start).Nodup :=
  (readable_read h).nodup_definitions begins

end SchemaUnnest.Json
