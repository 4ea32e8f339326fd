import Mathlib.Data.List.Forall2
import SchemaUnnest.Proofs.Account

namespace SchemaUnnest

/-- A value as it was and as it is left: where it has changed, a reference to one of these names stands in its
place or in that of the description of its elements. -/
inductive Json.LeftAs (names : List Text) (value : Json) : Json → Prop where
  | kept : LeftAs names value value
  | whole {name : Text} (known : name ∈ names) :
    LeftAs names value (reference (Keyword.definitionsPointer ++ name))
  | elements {name : Text} (known : name ∈ names) :
    LeftAs names value (value.set Keyword.items (reference (Keyword.definitionsPointer ++ name)))

inductive Json.RewrittenWith (names : List Text) (node : Json) : Json → Prop where
  | plain (none : node.properties? = none) : RewrittenWith names node node
  | properties {old new : Fields} (held : node.properties? = some old)
    (each : List.Forall₂ (fun before after => after.1 = before.1 ∧ before.2.LeftAs names after.2) old new) :
    RewrittenWith names node (node.set Keyword.properties (.obj new))

namespace Unnesting

variable {room : Room}

theorem has_storeAll (name : Text) (moves : List Move) (definitions : Fields) :
    Entries.has name (storeAll moves definitions) ↔ Entries.has name definitions ∨ name ∈ moves.map Move.name := by
  simp only [storeAll, Entries.has, Entries.get?_setAll]
  cases last : Entries.last? name (moves.map Move.entry) with
  | none =>
    have other : name ∉ moves.map Move.name := keys_entries moves ▸ Entries.last?_eq_none_iff.1 last
    simp only [Option.none_or, other, or_false]
  | some fragment =>
    obtain ⟨move, member, rfl, -⟩ := mem_of_last?_moves last
    simp only [Option.some_or, Option.isSome_some, List.mem_map_of_mem member, or_true]

theorem overwrote_iff {start : Fields} {moves : List Move} {before after : List Extraction} {record : Extraction}
    (split : recordAll start moves = before ++ record :: after) :
    record.overwrote ↔ record.name ∈ Entries.keys start ∨ record.name ∈ before.map (·.name) := by
  rw [← Entries.has_iff_mem_keys]
  induction before generalizing start moves with
  | nil =>
    cases moves with
    | nil => cases split
    | cons move rest =>
      cases split
      simp [Move.record]
  | cons first before ih =>
    cases moves with
    | nil => cases split
    | cons move rest =>
      obtain ⟨here, later⟩ := List.cons.inj split
      rw [ih later, Entries.has_set, ← here]
      simp only [Bool.or_eq_true, decide_eq_true_eq, List.map_cons, List.mem_cons, Move.record]
      constructor
      · rintro ((same | held) | earlier)
        · exact Or.inr (Or.inl same.symm)
        · exact Or.inl held
        · exact Or.inr (Or.inr earlier)
      · rintro (held | same | earlier)
        · exact Or.inl (Or.inr held)
        · exact Or.inl (Or.inl same.symm)
        · exact Or.inr earlier

theorem length_storeAll (start : Fields) (moves : List Move) :
    (storeAll moves start).length = start.length + (recordAll start moves).countP (!·.overwrote) := by
  induction moves generalizing start with
  | nil => rfl
  | cons move rest ih =>
    have keys := congrArg List.length (Entries.keys_set move.name move.fragment start)
    have later := ih (Entries.set move.name move.fragment start)
    cases held : Entries.has move.name start with
    | true =>
      simp [held, Entries.keys] at keys
      simp [storeAll_cons, later, keys, recordAll, Move.record, held]
    | false =>
      simp [held, Entries.keys] at keys
      simp [storeAll_cons, later, keys, recordAll, Move.record, held]
      omega

theorem keys_passed {name : Text} {node : Json} {definitions : Fields}
    (found : Entries.get? name definitions = some node) :
    Entries.keys (passed name node definitions) = Entries.keys (storeAll node.moves definitions) := by
  apply Entries.keys_setAll_congr
  simp [Entries.keys_set, Entries.has, found]

theorem Passes.keys {before after : Fields} {count : Nat} {moves : List Move}
    (run : Passes room before count moves after) :
    Entries.keys after = Entries.keys (storeAll moves before) := by
  induction run with
  | done definitions => rfl
  | next found unfinished fits rest ih =>
    rw [ih, storeAll_append]
    exact Entries.keys_setAll_congr _ (keys_passed found)

theorem mem_recordAll {start : Fields} {moves : List Move} {record : Extraction}
    (made : record ∈ recordAll start moves) :
    ∃ (move : Move) (definitions : Fields), record = move.record definitions := by
  induction moves generalizing start with
  | nil => cases made
  | cons move rest ih =>
    rcases List.mem_cons.1 made with here | later
    · exact ⟨move, start, here⟩
    · exact ih later

theorem leftAs_flatValue {names : List Text} {key : Text} {value : Json}
    (known : ∀ move, Json.move? key value = some move → move.name ∈ names) :
    value.LeftAs names (Json.flatValue key value) := by
  cases h : Json.move? key value with
  | none =>
    rw [Json.flatValue_of_move?_none h]
    exact .kept
  | some move =>
    have mine := known move h
    simp only [Json.flatValue, h]
    cases kind : move.kind with
    | object => exact .whole mine
    | arrayItem => exact .elements mine

theorem rewrittenWith_flattened {names : List Text} {node : Json} (known : ∀ move ∈ node.moves, move.name ∈ names) :
    node.RewrittenWith names node.flattened := by
  cases hp : node.properties? with
  | none =>
    rw [Json.flattened_of_properties?_none hp]
    exact .plain hp
  | some properties =>
    simp only [Json.flattened, hp]
    apply Json.RewrittenWith.properties hp
    rw [Json.flatProperties, List.forall₂_map_right_iff, List.forall₂_same]
    intro entry member
    refine ⟨rfl, leftAs_flatValue fun move found => known move ?_⟩
    rw [Json.moves_of_properties? hp]
    exact Json.mem_movesOf.2 ⟨entry.1, entry.2, member, found⟩

theorem rewrittenWith_self (names : List Text) (node : Json) : node.RewrittenWith names node := by
  cases hp : node.properties? with
  | none => exact .plain hp
  | some properties =>
    have each : List.Forall₂ (fun before after => after.1 = before.1 ∧ before.2.LeftAs names after.2)
        properties properties := by
      rw [List.forall₂_same]
      intro entry _
      exact ⟨rfl, .kept⟩
    have whole := Json.RewrittenWith.properties hp each
    rwa [Json.set_of_get? (Json.properties?_eq_some.1 hp)] at whole

/-- What the records of a run say of the definitions it leaves. -/
structure Run.AccountsFor (run : Run) (whole : Json) (start final : Fields) : Prop where
  definitions : run.root.get? Keyword.definitions = some (.obj final)
  named : ∀ record ∈ run.made, record.name = nameFor record.kind record.propertyName ∧
    record.reference = Keyword.definitionsPointer ++ record.name
  overwrote : ∀ before record after, run.made = before ++ record :: after →
    (record.overwrote ↔ record.name ∈ Entries.keys start ∨ record.name ∈ before.map (·.name))
  keys : Entries.keys final =
    Entries.keys start ++ (run.names.filter fun name => !Entries.has name start).eraseDups
  kept : ∀ name, name ∈ Entries.keys start ∨ name ∈ run.names → name ∈ Entries.keys final
  grown : final.length = start.length + run.made.countP (!·.overwrote)
  root : ∃ node, whole.RewrittenWith (Entries.keys final) node ∧
    run.root = node.set Keyword.definitions (.obj final)
  entries : ∀ name node, (name, node) ∈ final →
    ∃ original : Json, original.IsPart whole ∧ original.RewrittenWith (Entries.keys final) node

theorem Run.Completes.keys {run : Run} {root : Json} {start final : Fields} {later : List Move}
    (done : run.Completes room root start later final) :
    Entries.keys final = Entries.keys (storeAll (root.moves ++ later) start) := by
  rw [done.passes.keys, storeAll_append]

theorem Run.Completes.mem_keys {run : Run} {root : Json} {start final : Fields} {later : List Move}
    (done : run.Completes room root start later final) (name : Text) :
    name ∈ Entries.keys final ↔ name ∈ Entries.keys start ∨ name ∈ run.names := by
  rw [done.keys, ← Entries.has_iff_mem_keys, has_storeAll, Entries.has_iff_mem_keys, done.names]

theorem report_accounts_for_definitions {root : Json} {start : Fields} (object : root.isObject)
    (begins : root.definitions? = some start) (distinct : (Entries.keys start).Nodup)
    (returns : (unnest room root).fault = none) :
    ∃ final, (unnest room root).AccountsFor root start final := by
  obtain ⟨later, final, done⟩ := completes_unnest begins distinct returns
  have tracks := done.tracks begins
  have finalDistinct : (Entries.keys final).Nodup := done.keys ▸ nodup_keys_storeAll _ distinct
  have moved : ∀ move ∈ root.moves ++ later, move.name ∈ Entries.keys final := by
    intro move member
    rw [done.mem_keys, done.names]
    exact Or.inr (List.mem_map_of_mem member)
  refine ⟨final, done.definitions object, ?_, ?_, ?_, ?_, ?_, ?_, ?_⟩
  · intro record made
    rw [done.made] at made
    obtain ⟨move, definitions, rfl⟩ := mem_recordAll made
    exact ⟨rfl, rfl⟩
  · intro before record after split
    rw [done.made] at split
    exact overwrote_iff split
  · rw [done.keys, storeAll, Entries.keys_setAll, keys_entries, done.names]
  · intro name known
    exact (done.mem_keys name).2 known
  · have sizes := congrArg List.length done.keys
    simp only [Entries.keys, List.length_map] at sizes
    rw [sizes, done.made, length_storeAll]
  · refine ⟨root.flattened, ?_, done.root⟩
    apply rewrittenWith_flattened
    intro move member
    exact moved move (List.mem_append_left later member)
  · intro name node member
    have found := Entries.get?_of_mem finalDistinct member
    rw [tracks.get?_of_settled done.settled] at found
    obtain ⟨original, stored, rfl⟩ := Option.map_eq_some_iff.1 found
    refine ⟨original, tracks.parts name original stored, ?_⟩
    unfold Json.finished
    split
    · rename_i unfinished
      apply rewrittenWith_flattened
      intro move given
      exact moved move (tracks.moves_subset_of_settled done.settled stored unfinished given)
    · exact rewrittenWith_self _ original

def listedTwice : Fields := [("b", .obj [("title", .str "B")]), ("k", .obj [("type", .str "string")])]

def crowdedRoot : Json :=
  .obj [("definitions", .obj listedTwice),
    ("properties", .obj
      [("a", .obj [("items", .obj [("properties", .obj [])])]), ("a_item", .obj [("properties", .obj [])]),
        ("b", .obj [("properties", .obj [("c", .obj [("properties", .obj [])])])])])]

theorem report_accounts_for_definitions_crowdedRoot :
    crowdedRoot.isObject ∧ crowdedRoot.definitions? = some listedTwice ∧ (Entries.keys listedTwice).Nodup ∧
      (unnest (.ofDepth 100) crowdedRoot).fault = none ∧
      ∃ final, (unnest (.ofDepth 100) crowdedRoot).AccountsFor crowdedRoot listedTwice final :=
  ⟨by decide, by decide, by decide, by decide +kernel,
    report_accounts_for_definitions (by decide) (by decide) (by decide) (by decide +kernel)⟩

end Unnesting
end SchemaUnnest
