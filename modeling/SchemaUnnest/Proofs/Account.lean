import SchemaUnnest.Json.Part
import SchemaUnnest.Proofs.Passes

namespace SchemaUnnest

open Unnesting

/-- A fragment stands in a value: as the property of that name in one of its parts, or describing the
elements of the array there. -/
def Json.HasFragment (root : Json) (kind : FragmentKind) (key : Text) (fragment : Json) : Prop :=
  ∃ (node : Json) (properties : Fields) (value : Json),
    node.IsPart root ∧ node.properties? = some properties ∧ (key, value) ∈ properties ∧
      match kind with
      | .object => fragment = value
      | .arrayItem => value.get? Keyword.items = some fragment

theorem Json.isPart_of_mem_properties {node value : Json} {properties : Fields} {key : Text}
    (h : node.properties? = some properties) (member : (key, value) ∈ properties) : value.IsPart node :=
  (IsPart.member member .self).trans (isPart_of_get? (properties?_eq_some.1 h))

theorem Json.HasFragment.isPart {root fragment : Json} {kind : FragmentKind} {key : Text}
    (h : root.HasFragment kind key fragment) : fragment.IsPart root := by
  obtain ⟨node, properties, value, inside, hp, member, taken⟩ := h
  have whole := (isPart_of_mem_properties hp member).trans inside
  cases kind with
  | object =>
    dsimp only at taken
    exact taken ▸ whole
  | arrayItem => exact (isPart_of_get? taken).trans whole

theorem Json.hasFragment_of_mem_moves {root node : Json} (inside : node.IsPart root) {move : Move}
    (h : move ∈ node.moves) : root.HasFragment move.kind move.propertyName move.fragment := by
  obtain ⟨properties, hp, mine⟩ := properties?_of_mem_moves h
  obtain ⟨key, value, member, found⟩ := mem_movesOf.1 mine
  rcases move?_eq_some found with ⟨-, rfl⟩ | ⟨-, item, hi, rfl⟩
  · exact ⟨node, properties, value, inside, hp, member, rfl⟩
  · exact ⟨node, properties, value, inside, hp, member, (itemSchema?_eq_some hi).2.1⟩

namespace Unnesting

variable {room : Room}

theorem get?_storeAll (name : Text) (moves : List Move) (definitions : Fields) :
    Entries.get? name (storeAll moves definitions) =
      (Entries.last? name (moves.map Move.entry)).or (Entries.get? name definitions) :=
  Entries.get?_setAll name _ definitions

theorem get?_passed (other name : Text) (node : Json) (definitions : Fields) :
    Entries.get? other (passed name node definitions) =
      (Entries.last? other (node.moves.map Move.entry)).or
        (if name = other then some node.flattened else Entries.get? other definitions) := by
  rw [passed, get?_storeAll, Entries.get?_set]

theorem mem_of_last?_moves {name : Text} {moves : List Move} {fragment : Json}
    (h : Entries.last? name (moves.map Move.entry) = some fragment) :
    ∃ move ∈ moves, move.name = name ∧ move.fragment = fragment := by
  obtain ⟨move, member, same⟩ := List.mem_map.1 (Entries.mem_of_last? h)
  cases same
  exact ⟨move, member, rfl, rfl⟩

theorem isPart_of_get?_storeAll {root node : Json} (inside : node.IsPart root) {definitions : Fields}
    (old : ∀ name value, Entries.get? name definitions = some value → value.IsPart root) {name : Text} {value : Json}
    (found : Entries.get? name (storeAll node.moves definitions) = some value) : value.IsPart root := by
  rw [get?_storeAll] at found
  cases hl : Entries.last? name (node.moves.map Move.entry) with
  | some fragment =>
    obtain ⟨move, member, -, rfl⟩ := mem_of_last?_moves hl
    simp only [hl, Option.some_or, Option.some.injEq] at found
    exact found ▸ (Json.hasFragment_of_mem_moves inside member).isPart
  | none =>
    simp only [hl, Option.none_or] at found
    exact old name value found

theorem isPart_of_definitions? {root node : Json} {start : Fields} (begins : root.definitions? = some start)
    {name : Text} (found : Entries.get? name start = some node) : node.IsPart root := by
  rcases Json.definitions?_cases begins with rfl | held
  · cases found
  · exact (Json.IsPart.member (Entries.mem_of_get? found) .self).trans (Json.isPart_of_get? held)

/-- The definitions of a run so far, against the fragments moved so far. A definition that has been flattened
has given all its fragments away. -/
structure Tracks (root : Json) (start : Fields) (log : List Move) (live : Fields) : Prop where
  parts : ∀ name node, Entries.get? name (storeAll log start) = some node → node.IsPart root
  origins : ∀ move ∈ log, root.HasFragment move.kind move.propertyName move.fragment
  entries : ∀ name, Entries.get? name live = Entries.get? name (storeAll log start) ∨
    ∃ node, Entries.get? name (storeAll log start) = some node ∧
      Entries.get? name live = some node.flattened ∧ node.holdsNested ∧ node.moves ⊆ log

theorem tracks_begin {root : Json} {start : Fields} (begins : root.definitions? = some start) :
    Tracks root start root.moves (storeAll root.moves start) where
  parts := fun _ _ => isPart_of_get?_storeAll .self fun _ _ => isPart_of_definitions? begins
  origins := fun _ => Json.hasFragment_of_mem_moves .self
  entries := fun _ => Or.inl rfl

/-- A pending definition has not been flattened, so it is just what was stored under its name last. -/
theorem Tracks.stored_of_holdsNested {root node : Json} {start live : Fields} {log : List Move} {name : Text}
    (h : Tracks root start log live) (found : Entries.get? name live = some node) (unfinished : node.holdsNested) :
    Entries.get? name (storeAll log start) = some node := by
  rcases h.entries name with same | ⟨old, -, flat, -⟩
  · rw [← same, found]
  · rw [found, Option.some.injEq] at flat
    rw [flat, Json.holdsNested_flattened] at unfinished
    cases unfinished

theorem Tracks.pass {root node : Json} {start live : Fields} {log : List Move} {name : Text}
    (h : Tracks root start log live) (found : Entries.get? name live = some node) (unfinished : node.holdsNested) :
    Tracks root start (log ++ node.moves) (passed name node live) := by
  have stored := h.stored_of_holdsNested found unfinished
  have inside := h.parts name node stored
  constructor
  · intro other value found
    rw [storeAll_append] at found
    exact isPart_of_get?_storeAll inside h.parts found
  · intro move member
    rcases List.mem_append.1 member with old | new
    · exact h.origins move old
    · exact Json.hasFragment_of_mem_moves inside new
  · intro other
    rw [get?_passed, storeAll_append, get?_storeAll]
    -- stored by this pass, or flattened by it, or left alone
    cases hl : Entries.last? other (node.moves.map Move.entry) with
    | some fragment => simp
    | none =>
      simp only [Option.none_or]
      by_cases same : name = other
      · subst same
        rw [if_pos rfl]
        exact Or.inr ⟨node, stored, rfl, unfinished, List.subset_append_right _ _⟩
      · rw [if_neg same]
        rcases h.entries other with same | ⟨old, held, flat, nested, given⟩
        · exact Or.inl same
        · exact Or.inr ⟨old, held, flat, nested, List.Subset.trans given (List.subset_append_left _ _)⟩

theorem Tracks.passes {root : Json} {start before after : Fields} {log moves : List Move} {count : Nat}
    (h : Tracks root start log before) (run : Passes room before count moves after) :
    Tracks root start (log ++ moves) after := by
  induction run generalizing log with
  | done definitions => simpa using h
  | next found unfinished fits rest ih =>
    rw [← List.append_assoc]
    exact ih (h.pass found unfinished)

theorem holdsNested_of_pending_nil {definitions : Fields} (settled : pending definitions = []) {name : Text}
    {node : Json} (member : (name, node) ∈ definitions) : node.holdsNested = false := by
  rw [pending, List.map_eq_nil_iff, List.filter_eq_nil_iff] at settled
  simpa using settled (name, node) member

theorem Tracks.get?_of_settled {root : Json} {start live : Fields} {log : List Move}
    (h : Tracks root start log live) (settled : pending live = []) (name : Text) :
    Entries.get? name live = (Entries.get? name (storeAll log start)).map Json.finished := by
  rcases h.entries name with same | ⟨node, stored, flat, unfinished, -⟩
  · cases found : Entries.get? name live with
    | none => simp [← same, found]
    | some node =>
      have plain := holdsNested_of_pending_nil settled (Entries.mem_of_get? found)
      simp [← same, found, Json.finished, plain]
  · simp [flat, stored, Json.finished, unfinished]

/-- Every definition that is left is one that was stored, or there at first, finished. -/
theorem Tracks.exists_stored {root node : Json} {start live : Fields} {log : List Move} {name : Text}
    (h : Tracks root start log live) (settled : pending live = []) (distinct : (Entries.keys live).Nodup)
    (member : (name, node) ∈ live) :
    ∃ stored, Entries.get? name (storeAll log start) = some stored ∧ node = stored.finished := by
  have found := Entries.get?_of_mem distinct member
  rw [h.get?_of_settled settled] at found
  obtain ⟨stored, held, same⟩ := Option.map_eq_some_iff.1 found
  exact ⟨stored, held, same.symm⟩

theorem Tracks.moves_subset_of_settled {root node : Json} {start live : Fields} {log : List Move}
    (h : Tracks root start log live) (settled : pending live = []) {name : Text}
    (stored : Entries.get? name (storeAll log start) = some node) (unfinished : node.holdsNested) :
    node.moves ⊆ log := by
  rcases h.entries name with same | ⟨old, held, -, -, given⟩
  · rw [stored] at same
    rw [holdsNested_of_pending_nil settled (Entries.mem_of_get? same)] at unfinished
    cases unfinished
  · rw [stored, Option.some.injEq] at held
    exact held ▸ given

theorem Run.Completes.tracks {run : Run} {root : Json} {start final : Fields} {later : List Move}
    (done : run.Completes room root start later final) (begins : root.definitions? = some start) :
    Tracks root start (root.moves ++ later) final :=
  (tracks_begin begins).passes done.passes

end Unnesting
end SchemaUnnest
