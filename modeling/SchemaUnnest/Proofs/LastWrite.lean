import Mathlib.Data.List.Forall2
import SchemaUnnest.Proofs.Account

namespace SchemaUnnest.Unnesting

variable {room : Room}

theorem forall₂_recordAll {related : Extraction → Json → Prop} {moves : List Move}
    (each : ∀ definitions, ∀ move ∈ moves, related (move.record definitions) move.fragment) (definitions : Fields) :
    List.Forall₂ related (recordAll definitions moves) (moves.map Move.fragment) := by
  induction moves generalizing definitions with
  | nil => exact .nil
  | cons move rest ih =>
    exact .cons (each definitions move List.mem_cons_self)
      (ih (fun definitions later member => each definitions later (List.mem_cons_of_mem _ member)) _)

theorem overwrote_of_has {start : Fields} {moves : List Move} {move : Move} (held : Entries.has move.name start)
    (member : move ∈ moves) :
    ∃ record ∈ recordAll start moves, record.name = move.name ∧ record.overwrote := by
  induction moves generalizing start with
  | nil => cases member
  | cons first rest ih =>
    rcases List.mem_cons.1 member with rfl | later
    · exact ⟨move.record start, List.mem_cons_self, rfl, held⟩
    · have held : Entries.has move.name (Entries.set first.name first.fragment start) := by
        simp [Entries.has_set, held]
      obtain ⟨record, made, reason⟩ := ih held later
      exact ⟨record, List.mem_cons_of_mem _ made, reason⟩

/-- The fragments moved by a run, in the order of the records, and the definitions it leaves: every one of
these is the last fragment recorded under its name, finished, or else what was there at first. -/
structure Run.LastWriteWins (run : Run) (whole : Json) (start : Fields) (fragments : List Json) (final : Fields) :
    Prop where
  definitions : run.root.get? Keyword.definitions = some (.obj final)
  origins : List.Forall₂ (fun record fragment => whole.HasFragment record.kind record.propertyName fragment)
    run.made fragments
  entries : ∀ name, Entries.get? name final =
    ((Entries.last? name (run.names.zip fragments)).or (Entries.get? name start)).map Json.finished
  overwritten : ∀ name node, Entries.get? name start = some node → Entries.get? name final ≠ some node.finished →
    ∃ record ∈ run.made, record.name = name ∧ record.overwrote

theorem last_write_wins {root : Json} {start : Fields} (object : root.isObject)
    (begins : root.definitions? = some start) (distinct : (Entries.keys start).Nodup)
    (returns : (unnest room root).fault = none) :
    ∃ fragments final, (unnest room root).LastWriteWins root start fragments final := by
  obtain ⟨later, final, done⟩ := completes_unnest begins distinct returns
  have tracks := done.tracks begins
  have closed := tracks.get?_of_settled done.settled
  have zipped : (unnest room root).names.zip ((root.moves ++ later).map Move.fragment) =
      (root.moves ++ later).map Move.entry := by
    rw [done.names, List.zip_map']
    rfl
  refine ⟨(root.moves ++ later).map Move.fragment, final, done.definitions object, ?_, ?_, ?_⟩
  · rw [done.made]
    exact forall₂_recordAll (fun _ => tracks.origins) start
  · intro name
    rw [zipped, closed, get?_storeAll]
  · intro name node found changed
    rw [closed, get?_storeAll, found] at changed
    cases hl : Entries.last? name ((root.moves ++ later).map Move.entry) with
    | none =>
      rw [hl] at changed
      exact absurd rfl changed
    | some fragment =>
      obtain ⟨move, member, rfl, -⟩ := mem_of_last?_moves hl
      rw [done.made]
      exact overwrote_of_has (by simp [Entries.has, found]) member

def selfNamed : Fields :=
  [("a", .obj [("properties", .obj
      [("a", .obj [("properties", .obj [("b", .obj [("properties", .obj [])])])]),
        ("c", .obj [("items", .obj [("properties", .obj [])])])])]),
    ("d", .obj [("type", .str "string")])]

def selfNamedRoot : Json :=
  .obj [("properties", .obj [("d", .obj [("properties", .obj []), ("title", .str "D")]),
      ("e", .obj [("items", .obj [])])]),
    ("definitions", .obj selfNamed)]

theorem last_write_wins_selfNamed :
    selfNamedRoot.isObject ∧ selfNamedRoot.definitions? = some selfNamed ∧ (Entries.keys selfNamed).Nodup ∧
      (unnest (.ofDepth 100) selfNamedRoot).fault = none ∧
      ∃ fragments final, (unnest (.ofDepth 100) selfNamedRoot).LastWriteWins selfNamedRoot selfNamed fragments final :=
  ⟨by decide, by decide, by decide, by decide +kernel,
    last_write_wins (by decide) (by decide) (by decide) (by decide +kernel)⟩

end SchemaUnnest.Unnesting
