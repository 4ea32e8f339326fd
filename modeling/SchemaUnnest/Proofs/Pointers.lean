import SchemaUnnest.Proofs.FixedPoint
import SchemaUnnest.Proofs.Report
import SchemaUnnest.Proofs.Walks

namespace SchemaUnnest

namespace Pointer

/-- The key that a part of a pointer stands for: `~1` is a slash in it, and `~0` a tilde. -/
def key : Text → Text
  | [] => []
  | [c] => [c]
  | c :: d :: rest =>
    if c = '~' ∧ d = '1' then '/' :: key rest
    else if c = '~' ∧ d = '0' then '~' :: key rest
    else c :: key (d :: rest)

def path? (pointer : Text) : Option (List Text) :=
  (Text.dropStart? "#" pointer).bind fun parts =>
    match Text.splitOn '/' parts with
    | [] :: parts => some (parts.map key)
    | _ => none

def resolve? (root : Json) (pointer : Text) : Option Json := (path? pointer).bind fun path => root.at? path

def Plain (text : Text) : Prop :=
  CodePoint.ofChar '/' ∉ text ∧ Text.hasPart "~0" text = false ∧ Text.hasPart "~1" text = false

instance (text : Text) : Decidable (Plain text) := inferInstanceAs (Decidable (_ ∧ _))

theorem length_key_le (text : Text) : (key text).length ≤ text.length := by
  fun_induction key text <;> simp only [List.length_cons, List.length_nil] at * <;> omega

theorem hasPart_cons_cons (tilde mark c d : CodePoint) (rest : Text) :
    Text.hasPart [tilde, mark] (c :: d :: rest) =
      (decide (c = tilde ∧ d = mark) || Text.hasPart [tilde, mark] (d :: rest)) := by
  rw [Text.hasPart]
  by_cases first : tilde = c
  · by_cases second : mark = d
    · simp [Text.dropStart?, first, second]
    · simp [Text.dropStart?, first, second, Ne.symm second]
  · simp [Text.dropStart?, first, Ne.symm first]

theorem cons_key_ne (e c d : CodePoint) (rest : Text) : e :: key rest ≠ c :: d :: rest := by
  intro same
  have shorter := length_key_le rest
  have lengths := congrArg List.length same
  simp only [List.length_cons] at lengths
  omega

/-- Reading an escape makes a text shorter, so only a text without any comes out as it went in. -/
theorem key_eq_self_iff {text : Text} :
    key text = text ↔ Text.hasPart "~0" text = false ∧ Text.hasPart "~1" text = false := by
  have zero : Text.ofString "~0" = [CodePoint.ofChar '~', CodePoint.ofChar '0'] := rfl
  have one : Text.ofString "~1" = [CodePoint.ofChar '~', CodePoint.ofChar '1'] := rfl
  rw [zero, one]
  fun_induction key text with
  | case1 => decide
  | case2 c => simp [Text.hasPart, Text.dropStart?]
  | case3 c d rest escape ih =>
    rw [iff_false_left (cons_key_ne _ c d rest)]
    simp [hasPart_cons_cons, escape]
  | case4 c d rest slash escape ih =>
    rw [iff_false_left (cons_key_ne _ c d rest)]
    simp [hasPart_cons_cons, escape]
  | case5 c d rest slash tilde ih => simp [hasPart_cons_cons, slash, tilde, ih]

theorem map_key_splitOn_iff {text : Text} : (Text.splitOn '/' text).map key = [text] ↔ Plain text := by
  rw [Plain, ← key_eq_self_iff]
  by_cases slash : CodePoint.ofChar '/' ∈ text
  · obtain ⟨before, after, rfl⟩ := List.append_of_mem slash
    have first := List.length_pos_iff.2 (Text.splitOn_ne_nil '/' before)
    have second := List.length_pos_iff.2 (Text.splitOn_ne_nil '/' after)
    rw [Text.splitOn_append_cons]
    constructor
    · intro same
      have lengths := congrArg List.length same
      simp only [List.length_map, List.length_append, List.length_singleton] at lengths
      omega
    · rintro ⟨none, -⟩
      exact absurd slash none
  · simp [Text.splitOn_of_not_mem slash, slash]

theorem path?_definition (name : Text) :
    path? (Keyword.definitionsPointer ++ name) =
      some (Keyword.definitions :: (Text.splitOn '/' name).map key) := by
  have parts : Text.dropStart? "#" (Keyword.definitionsPointer ++ name) =
      some ([] ++ CodePoint.ofChar '/' :: (Keyword.definitions ++ CodePoint.ofChar '/' :: name)) := rfl
  have inside : Text.splitOn '/' Keyword.definitions = [Keyword.definitions] := by decide
  have same : key Keyword.definitions = Keyword.definitions := by decide
  rw [path?, parts, Option.bind_some, Text.splitOn_append_cons, Text.splitOn_append_cons, inside]
  simp [Text.splitOn, same]

end Pointer

namespace Unnesting

variable {room : Room}

open Pointer

/-- Every record's reference leads to the entry of its name, read as a pointer, if and only if the name stands for
itself in a pointer; any other name is taken apart at its slashes, or an escape in it is read. -/
theorem pointers_resolve_iff {root : Json} (object : root.isObject)
    (distinct : ∀ start, root.definitions? = some start → (Entries.keys start).Nodup)
    (returns : (unnest room root).fault = none) {record : Extraction} (made : record ∈ (unnest room root).made) :
    ∃ entry, (unnest room root).root.at? [Keyword.definitions, record.name] = some entry ∧
      path? record.reference = some (Keyword.definitions :: (Text.splitOn '/' record.name).map key) ∧
      (path? record.reference = some [Keyword.definitions, record.name] ↔ Plain record.name) ∧
      (Plain record.name → resolve? (unnest room root).root record.reference = some entry) := by
  cases begins : root.definitions? with
  | none =>
    rw [(doesNothing_of_isFlat room (isFlat_of_unusable begins)).made] at made
    cases made
  | some start =>
    obtain ⟨later, final, done⟩ := completes_unnest begins (distinct start begins) returns
    have known : record.name ∈ Entries.keys final :=
      (done.mem_keys record.name).2 (Or.inr (List.mem_map_of_mem made))
    obtain ⟨entry, found⟩ := Option.isSome_iff_exists.1 ((Entries.has_iff_mem_keys record.name final).2 known)
    have stored : (unnest room root).root.at? [Keyword.definitions, record.name] = some entry := by
      rw [Json.at?, done.definitions object, Option.bind_some, Json.at?, Json.get?, found]
      rfl
    have written : record.reference = Keyword.definitionsPointer ++ record.name := by
      rw [done.made] at made
      obtain ⟨move, definitions, rfl⟩ := mem_recordAll made
      rfl
    have path := written ▸ path?_definition record.name
    have leads : path? record.reference = some [Keyword.definitions, record.name] ↔ Plain record.name := by
      rw [path, ← map_key_splitOn_iff]
      simp
    refine ⟨entry, stored, path, leads, fun plain => ?_⟩
    rw [resolve?, leads.2 plain, Option.bind_some, stored]

def spacedRoot : Json :=
  .obj [("properties", .obj [("a b", .obj [("properties", .obj
    [("~x%2F", .obj [("items", .obj [("properties", .obj [])])])])])])]

theorem pointers_resolve_iff_spacedRoot :
    (unnest (.ofDepth 100) spacedRoot).fault = none ∧ (unnest (.ofDepth 100) spacedRoot).names = ["a b", "~x%2F_item"] ∧
      ∀ record ∈ (unnest (.ofDepth 100) spacedRoot).made,
        ∃ entry, (unnest (.ofDepth 100) spacedRoot).root.at? [Keyword.definitions, record.name] = some entry ∧
          path? record.reference = some (Keyword.definitions :: (Text.splitOn '/' record.name).map key) ∧
          (path? record.reference = some [Keyword.definitions, record.name] ↔ Plain record.name) ∧
          (Plain record.name → resolve? (unnest (.ofDepth 100) spacedRoot).root record.reference = some entry) := by
  have distinct : ∀ start, spacedRoot.definitions? = some start → (Entries.keys start).Nodup := by
    intro start begins
    cases begins
    decide
  have returns : (unnest (.ofDepth 100) spacedRoot).fault = none := by decide +kernel
  exact ⟨returns, by decide +kernel, fun record made => pointers_resolve_iff (by decide) distinct returns made⟩

/-- A root whose one name holds a slash: its reference is read as the key `b` inside an entry `a`. -/
def slashedRoot : Json := .obj [("properties", .obj [("a/b", .obj [("properties", .obj [])])])]

theorem dangles_slashedRoot :
    slashedRoot.isObject ∧ (unnest (.ofDepth 100) slashedRoot).fault = none ∧
      ∃ record ∈ (unnest (.ofDepth 100) slashedRoot).made,
        (unnest (.ofDepth 100) slashedRoot).root.at? [Keyword.definitions, record.name] =
          some (.obj [("properties", .obj [])]) ∧
        path? record.reference = some [Keyword.definitions, "a", "b"] ∧
        resolve? (unnest (.ofDepth 100) slashedRoot).root record.reference = none := by
  have made : (unnest (.ofDepth 100) slashedRoot).made =
    [⟨"a/b", .object, "a/b", "#/definitions/a/b", false⟩] := by decide +kernel
  refine ⟨by decide, by decide +kernel, _, made ▸ List.mem_cons_self, ?_, ?_, ?_⟩
  · decide +kernel
  · decide +kernel
  · decide +kernel

end Unnesting
end SchemaUnnest
