import SchemaUnnest.Proofs.Account
import SchemaUnnest.Proofs.FixedPoint
import SchemaUnnest.Schema.Validation

namespace SchemaUnnest

namespace Json

def MisusedAt (root : Json) (key : Text) : Prop := ∃ value, root.get? key = some value ∧ value.isObject = false

end Json

namespace Schema

theorem mem_definitionsWarnings {root : Json} {warning : Warning} :
    warning ∈ definitionsWarnings root ↔ warning = .noDefinitions ∧ root.get? Keyword.definitions = none ∨
      warning = .definitionsNoObject ∧ root.MisusedAt Keyword.definitions := by
  unfold definitionsWarnings Json.MisusedAt
  cases root.get? Keyword.definitions with
  | none => simp
  | some value => cases value <;> simp [Json.isObject]

theorem mem_propertiesWarnings {root : Json} {warning : Warning} :
    warning ∈ propertiesWarnings root ↔ warning = .propertiesNoObject ∧ root.MisusedAt Keyword.properties := by
  unfold propertiesWarnings Json.MisusedAt
  cases root.get? Keyword.properties with
  | none => simp
  | some value => cases value <;> simp [Json.isObject]

/-- Which warnings a root gets that can be used. -/
theorem mem_warnings_checkRoot {limit : Int} {root : Json} (object : root.isObject) (shallow : root.depth ≤ limit)
    {warning : Warning} :
    warning ∈ (checkRoot limit root).warnings ↔ warning = .deepNesting root.depth ∧ deepNesting < root.depth ∨
      warning = .noDefinitions ∧ root.get? Keyword.definitions = none ∨
        warning = .definitionsNoObject ∧ root.MisusedAt Keyword.definitions ∨
          warning = .propertiesNoObject ∧ root.MisusedAt Keyword.properties := by
  have fits : ¬ limit < root.depth := by omega
  have whole : (checkRoot limit root).warnings = (if deepNesting < root.depth then [.deepNesting root.depth] else []) ++
      definitionsWarnings root ++ propertiesWarnings root := by simp [checkRoot, object, fits]
  rw [whole, List.mem_append, List.mem_append, mem_definitionsWarnings, mem_propertiesWarnings, or_assoc, or_assoc]
  by_cases deep : deepNesting < root.depth <;> simp [deep]

end Schema

namespace Unnesting

variable {room : Room}

theorem definitionsCreated_unnestWith (root : Json) (definitions : Fields) :
    (unnestWith room root definitions).definitionsCreated = false := by
  unfold unnestWith
  dsimp only
  split <;> rfl

theorem definitionsCreated_unnest (root : Json) :
    (unnest room root).definitionsCreated ↔ root.get? Keyword.definitions = none := by
  cases held : root.get? Keyword.definitions with
  | none => simp [unnest, held]
  | some value => cases value <;> simp [unnest, held, definitionsCreated_unnestWith]

theorem definitions?_of_misused {root : Json} (misused : root.MisusedAt Keyword.definitions) :
    root.definitions? = none := by
  obtain ⟨value, held, other⟩ := misused
  cases value with
  | obj definitions => cases other
  | _ => simp [Json.definitions?, held]

/-- A run over the definitions moves nothing just if there was nothing pending. -/
theorem Passes.moves_eq_nil_iff {before after : Fields} {count : Nat} {moves : List Move}
    (run : Passes room before count moves after) (settled : pending after = []) : moves = [] ↔ pending before = [] := by
  cases run with
  | done definitions => simp [settled]
  | next found unfinished fits rest =>
    have some := Json.moves_ne_nil unfinished
    refine iff_of_false (by simp [some]) ?_
    intro none
    rw [holdsNested_of_pending_nil none (Entries.mem_of_get? found)] at unfinished
    cases unfinished

def Settled (root : Json) : Prop :=
  ∀ start, root.definitions? = some start → ∀ name node, (name, node) ∈ start → node.holdsNested = false

theorem properties?_of_misused {root : Json} (misused : root.MisusedAt Keyword.properties) :
    root.properties? = none := by
  obtain ⟨value, held, other⟩ := misused
  cases value with
  | obj properties => cases other
  | _ => simp [Json.properties?, Json.object?, held]

structure Run.SparesRoot (run : Run) (root : Json) : Prop where
  made : run.made = [] ↔ Settled root
  members : ∀ key, key ≠ Keyword.definitions → run.root.get? key = root.get? key

theorem sparesRoot_unnest {root : Json} (object : root.isObject)
    (distinct : ∀ start, root.definitions? = some start → (Entries.keys start).Nodup)
    (returns : (unnest room root).fault = none) (misused : root.MisusedAt Keyword.properties) :
    (unnest room root).SparesRoot root := by
  cases begins : root.definitions? with
  | none =>
    have idle := doesNothing_of_isFlat room (isFlat_of_unusable begins)
    refine ⟨iff_of_true idle.made ?_, fun key _ => by rw [idle.root]⟩
    intro start held
    rw [begins] at held
    cases held
  | some start =>
    obtain ⟨later, final, done⟩ := completes_unnest begins (distinct start begins) returns
    have bare : root.moves = [] := by simp [Json.moves, properties?_of_misused misused]
    have passes := done.passes
    have made := done.made
    have left := done.root
    rw [bare, storeAll_nil] at passes
    rw [bare, List.nil_append] at made
    rw [Json.flattened_of_moves_nil bare] at left
    constructor
    · rw [made, ← List.length_eq_zero_iff, length_recordAll, List.length_eq_zero_iff,
        passes.moves_eq_nil_iff done.settled, pending_eq_nil_iff]
      simp [Settled, begins]
    · intro key other
      rw [left, Json.get?_set object, if_neg (Ne.symm other)]

end Unnesting

namespace Schema

open Unnesting

/-- What the warnings about a root say of a run over it. -/
structure Announces (warnings : List Warning) (root : Json) (run : Run) : Prop where
  created : .noDefinitions ∈ warnings ↔ run.definitionsCreated
  unusable : .definitionsNoObject ∈ warnings ↔ root.MisusedAt Keyword.definitions
  unchanged : .definitionsNoObject ∈ warnings → run.DoesNothing root
  malformed : .propertiesNoObject ∈ warnings ↔ root.MisusedAt Keyword.properties
  spared : .propertiesNoObject ∈ warnings → run.SparesRoot root

theorem warnings_announce_run {limit : Int} {root : Json} (object : root.isObject) (shallow : root.depth ≤ limit)
    (distinct : ∀ start, root.definitions? = some start → (Entries.keys start).Nodup)
    (returns : (unnest room root).fault = none) : Announces (checkRoot limit root).warnings root
      (unnest room root) := by
  have unusable : .definitionsNoObject ∈ (checkRoot limit root).warnings ↔ root.MisusedAt Keyword.definitions := by
    simp [mem_warnings_checkRoot object shallow]
  have malformed : .propertiesNoObject ∈ (checkRoot limit root).warnings ↔ root.MisusedAt Keyword.properties := by
    simp [mem_warnings_checkRoot object shallow]
  constructor
  · simp [mem_warnings_checkRoot object shallow, definitionsCreated_unnest]
  · exact unusable
  · intro warned
    exact doesNothing_of_isFlat room (isFlat_of_unusable (definitions?_of_misused (unusable.1 warned)))
  · exact malformed
  · intro warned
    exact sparesRoot_unnest object distinct returns (malformed.1 warned)

def numberRoot : Json :=
  .obj [("properties", .int 1),
    ("definitions", .obj [("d", .obj [("properties", .obj [("e", .obj [("properties", .obj [])])])])])]

theorem warnings_announce_run_numberRoot :
    numberRoot.isObject ∧ numberRoot.depth ≤ maxDepth ∧
      (∀ start, numberRoot.definitions? = some start → (Entries.keys start).Nodup) ∧
        (unnest (.ofDepth 100) numberRoot).fault = none ∧
      Announces (checkRoot maxDepth numberRoot).warnings numberRoot (unnest (.ofDepth 100) numberRoot) := by
  have shallow : numberRoot.depth ≤ maxDepth := by decide +kernel
  have distinct : ∀ start, numberRoot.definitions? = some start → (Entries.keys start).Nodup := by
    intro start begins
    cases begins
    decide
  have returns : (unnest (.ofDepth 100) numberRoot).fault = none := by decide +kernel
  exact ⟨rfl, shallow, distinct, returns, warnings_announce_run rfl shallow distinct returns⟩

/-- It is said that nothing will be moved, and the fragment of the definition is. -/
theorem warned_numberRoot :
    numberRoot.isObject ∧ numberRoot.depth ≤ maxDepth ∧ (unnest (.ofDepth 100) numberRoot).fault = none ∧
      .propertiesNoObject ∈ (checkRoot maxDepth numberRoot).warnings ∧ (unnest (.ofDepth 100) numberRoot).made ≠ [] :=
  ⟨rfl, by decide +kernel, by decide +kernel, by decide +kernel, by decide +kernel⟩

end Schema
end SchemaUnnest
