import SchemaUnnest.Proofs.Passes

namespace SchemaUnnest

namespace Json

/-- There is nothing to unnest: the definitions cannot be used, or no definition holds nested objects and no
property of the root is a nested object or an array with inline elements. -/
def isFlat (root : Json) : Bool :=
  match root.get? Keyword.definitions with
  | none => false
  | some (.obj definitions) =>
    definitions.all (fun (_, node) => !node.holdsNested) &&
      root.properties?.all fun properties =>
        properties.all fun (_, value) => !value.isNestedObject && !value.hasInlineItems
  | some _ => true

end Json

namespace Unnesting

variable {room : Room}

theorem pending_eq_nil_iff (definitions : Fields) :
    pending definitions = [] ↔ definitions.all fun (_, node) => !node.holdsNested := by
  simp [pending]

theorem isFlat_iff {root : Json} {definitions : Fields}
    (held : root.get? Keyword.definitions = some (.obj definitions)) :
    root.isFlat ↔ pending definitions = [] ∧ root.moves = [] := by
  simp only [Json.isFlat, held, Bool.and_eq_true, pending_eq_nil_iff, Json.moves_eq_nil_iff, Option.all_eq_true,
    List.all_eq_true, Bool.not_eq_true', Prod.forall]

structure Run.DoesNothing (run : Run) (root : Json) : Prop where
  returns : run.fault = none
  made : run.made = []
  passes : run.passes = 0
  definitionsCreated : run.definitionsCreated = false
  root : run.root = root

theorem sweep_of_settled (passes : Nat) {definitions : Fields} (settled : pending definitions = []) :
    sweep room passes definitions = ⟨definitions, [], passes, [], none⟩ := by
  rw [sweep]
  split
  · rfl
  · rename_i heads
    rw [settled] at heads
    cases heads

theorem doesNothing_unnestWith {root : Json} {definitions : Fields}
    (held : root.get? Keyword.definitions = some (.obj definitions)) (settled : pending definitions = [])
    (flat : root.moves = []) : (unnestWith room root definitions).DoesNothing root := by
  obtain ⟨fits, madeNone, definitionsKept, nodeKept⟩ := replaceNested_of_moves_nil room flat definitions
  have unchanged : root.set Keyword.definitions (.obj definitions) = root := Json.set_of_get? held
  constructor <;> simp [unnestWith, fits, definitionsKept, nodeKept, madeNone, sweep_of_settled 0 settled, unchanged]

theorem doesNothing_of_isFlat (room : Room) {root : Json} (flat : root.isFlat) :
    (unnest room root).DoesNothing root := by
  cases held : root.get? Keyword.definitions with
  | none => simp [Json.isFlat, held] at flat
  | some value =>
    cases value with
    | obj definitions =>
      obtain ⟨settled, moves⟩ := (isFlat_iff held).1 flat
      simp only [unnest, held]
      exact doesNothing_unnestWith held settled moves
    | _ => constructor <;> simp [unnest, held]

theorem isFlat_of_unusable {root : Json} (unusable : root.definitions? = none) : root.isFlat := by
  unfold Json.definitions? at unusable
  split at unusable
  · cases unusable
  · cases unusable
  · rename_i value other held
    cases value with
    | obj definitions => exact absurd rfl (other definitions)
    | _ => simp [Json.isFlat, held]

theorem isFlat_unnest {root : Json} (object : root.isObject)
    (distinct : ∀ start, root.definitions? = some start → (Entries.keys start).Nodup)
    (returns : (unnest room root).fault = none) : (unnest room root).root.isFlat := by
  cases begins : root.definitions? with
  | some start =>
    obtain ⟨later, final, done⟩ := completes_unnest begins (distinct start begins) returns
    rw [isFlat_iff (done.definitions object)]
    refine ⟨done.settled, ?_⟩
    rw [done.root, moves_set_definitions, Json.moves_flattened]
  | none =>
    have flat := isFlat_of_unusable begins
    rw [(doesNothing_of_isFlat room flat).root]
    exact flat

theorem unnest_idempotent {root : Json} (object : root.isObject)
    (distinct : ∀ start, root.definitions? = some start → (Entries.keys start).Nodup)
    (returns : (unnest room root).fault = none) :
    (unnest room (unnest room root).root).DoesNothing (unnest room root).root ∧
      ((unnest room root).root = root ↔ root.isFlat) := by
  have flat := isFlat_unnest object distinct returns
  refine ⟨doesNothing_of_isFlat room flat, ?_⟩
  constructor
  · intro unchanged
    rw [unchanged] at flat
    exact flat
  · intro already
    exact (doesNothing_of_isFlat room already).root

def mixedRoot : Json :=
  .obj [("definitions", .obj [("d", .obj [("properties", .obj [("e", .obj [("items", .obj [])])])])]),
    ("properties", .obj [("a", .obj [("items", .obj [])]), ("b", .obj [("properties", .obj
      [("c", .obj [("items", .obj [("properties", .obj [])])])])])])]

theorem unnest_idempotent_mixedRoot :
    mixedRoot.isObject ∧ (∀ start, mixedRoot.definitions? = some start → (Entries.keys start).Nodup) ∧
      (unnest (.ofDepth 100) mixedRoot).fault = none ∧
      (unnest (.ofDepth 100) (unnest (.ofDepth 100) mixedRoot).root).DoesNothing
        (unnest (.ofDepth 100) mixedRoot).root ∧
      ((unnest (.ofDepth 100) mixedRoot).root = mixedRoot ↔ mixedRoot.isFlat) := by
  have distinct : ∀ start, mixedRoot.definitions? = some start → (Entries.keys start).Nodup := by
    intro start begins
    cases begins
    decide
  have returns : (unnest (.ofDepth 100) mixedRoot).fault = none := by decide +kernel
  exact ⟨rfl, distinct, returns, unnest_idempotent rfl distinct returns⟩

end Unnesting
end SchemaUnnest
