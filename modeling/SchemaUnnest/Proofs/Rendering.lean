import SchemaUnnest.Proofs.Numbers
import SchemaUnnest.Proofs.Readable

namespace SchemaUnnest.Json

theorem skipSpace_cons {c : CodePoint} (visible : isSpace c = false) (rest : Text) :
    skipSpace (c :: rest) = c :: rest := by
  simp [skipSpace, visible]

/-- A text that is read as a value begins with that value: with no space, and with no bracket that ends an array. -/
theorem head_of_readNode {inner : Option (Text → Scan Json)} {text tail : Text} {value : Json}
    (h : readNode inner text = .ok (value, tail)) : ∃ c rest, text = c :: rest ∧ isSpace c = false ∧ c ≠ ']' := by
  cases text with
  | nil => cases h
  | cons c rest =>
    have fails : ∀ d ∈ ([' ', '\t', '\n', '\r', ']'] : List Char), readNode inner (CodePoint.ofChar d :: rest) =
        malformed .expectingValue (CodePoint.ofChar d :: rest) := by
      intro d member
      simp only [List.mem_cons, List.not_mem_nil, or_false] at member
      rcases member with rfl | rfl | rfl | rfl | rfl <;> rfl
    have other : ∀ d ∈ ([' ', '\t', '\n', '\r', ']'] : List Char), c ≠ d := by
      rintro d member rfl
      rw [fails d member] at h
      cases h
    simp only [List.mem_cons, List.not_mem_nil, or_false, forall_eq_or_imp, forall_eq] at other
    exact ⟨c, rest, rfl, by simp [isSpace, other], other.2.2.2.2⟩

/-- The value is read where it stands, with anything behind it that ends a number. -/
def ReadsBack (inner : Option (Text → Scan Json)) (indent : Int) (level : Nat) (value : Json) : Prop :=
  ∀ tail, EndsNumber tail → readNode inner (write indent level tail value) = .ok (value, tail)

section Contents

variable {inner : Option (Text → Scan Json)} {indent : Int} {level : Nat} {closing tail : Text}

theorem ReadsBack.skipSpace {value : Json} (h : ReadsBack inner indent level value) {tail : Text}
    (stops : EndsNumber tail) :
    skipSpace (write indent level tail value) = write indent level tail value := by
  obtain ⟨c, rest, text, visible, -⟩ := head_of_readNode (h tail stops)
  rw [text, skipSpace_cons visible]

end Contents

theorem length_newLine (indent : Int) (level : Nat) (tail : Text) :
    tail.length < (newLine indent level tail).length := by
  have feed : List.length ("\n" : Text) = 1 := rfl
  rw [newLine, List.length_append, List.length_append, feed]
  omega

theorem length_member (key tail : Text) : tail.length ≤ (writeString key (": " ++ tail)).length := by
  simp only [writeString, List.length_append]
  omega

mutual

/-- What stands behind a value is still there when the value stands in front of it. -/
theorem length_le_write (indent : Int) (level : Nat) (tail : Text) :
    ∀ value : Json, tail.length ≤ (write indent level tail value).length
  | .arr (item :: rest) => by
    have closing := length_newLine indent level ("]" ++ tail)
    have items := length_le_writeItems indent (level + 1) (newLine indent level ("]" ++ tail)) (item :: rest)
    rw [write]
    rw [writeItems, List.length_append] at items
    rw [List.length_append] at closing ⊢
    have comma : List.length ("," : Text) = 1 := rfl
    have bracket : List.length ("[" : Text) = 1 := rfl
    omega
  | .obj ((key, value) :: rest) => by
    have closing := length_newLine indent level ("\x7d" ++ tail)
    have fields := length_le_writeFields indent (level + 1) (newLine indent level ("\x7d" ++ tail))
      ((key, value) :: rest)
    rw [write]
    rw [writeFields, List.length_append] at fields
    rw [List.length_append] at closing ⊢
    have comma : List.length ("," : Text) = 1 := rfl
    have brace : List.length ("\x7b" : Text) = 1 := rfl
    omega
  | .str _ => by
    simp [write, writeString]
    omega
  | .null | .bool true | .bool false | .int _ | .float _ | .arr [] | .obj [] => by simp [write]

theorem length_le_writeItems (indent : Int) (level : Nat) (tail : Text) :
    ∀ items : List Json, tail.length + items.length ≤ (writeItems indent level tail items).length
  | [] => Nat.le_refl _
  | item :: rest => by
    have later := length_le_writeItems indent level tail rest
    have first := length_le_write indent level (writeItems indent level tail rest) item
    have line := length_newLine indent level (write indent level (writeItems indent level tail rest) item)
    rw [writeItems, List.length_append, List.length_cons]
    omega

theorem length_le_writeFields (indent : Int) (level : Nat) (tail : Text) :
    ∀ fields : Fields, tail.length + fields.length ≤ (writeFields indent level tail fields).length
  | [] => Nat.le_refl _
  | (key, value) :: rest => by
    have later := length_le_writeFields indent level tail rest
    have first := length_le_write indent level (writeFields indent level tail rest) value
    have named := length_member key (write indent level (writeFields indent level tail rest) value)
    have line := length_newLine indent level
      (writeString key (": " ++ write indent level (writeFields indent level tail rest) value))
    rw [writeFields, List.length_append, List.length_cons]
    omega

end

section Containers

variable {inner : Option (Text → Scan Json)} {indent : Int} {level : Nat}

end Containers

def inside : Nat → Option (Text → Scan Json)
  | 0 => none
  | levels + 1 => some (readValue levels)

end SchemaUnnest.Json
