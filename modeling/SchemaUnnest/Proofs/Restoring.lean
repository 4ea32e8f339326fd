import SchemaUnnest.Proofs.Expansion

namespace SchemaUnnest.Unnesting

variable {room : Room}

open Json

theorem names_of_fresh {start : Fields} {moves : List Move}
    (fresh : ∀ record ∈ recordAll start moves, record.overwrote = false) :
    (moves.map Move.name).Nodup ∧ ∀ move ∈ moves, Entries.has move.name start = false := by
  induction moves generalizing start with
  | nil => simp
  | cons first rest ih =>
    have here : Entries.has first.name start = false := fresh (first.record start) List.mem_cons_self
    obtain ⟨distinct, later⟩ := ih fun record made => fresh record (List.mem_cons_of_mem _ made)
    simp only [Entries.has_set, Bool.or_eq_false_iff, decide_eq_false_iff_not] at later
    constructor
    · rw [List.map_cons, List.nodup_cons]
      refine ⟨?_, distinct⟩
      intro again
      obtain ⟨move, member, same⟩ := List.mem_map.1 again
      exact (later move member).1 same.symm
    · intro move member
      rcases List.mem_cons.1 member with rfl | member
      · exact here
      · exact (later move member).2

theorem stored_of_distinct (start : Fields) {moves : List Move} (distinct : (moves.map Move.name).Nodup)
    {move : Move} (member : move ∈ moves) :
    Entries.get? move.name (storeAll moves start) = some move.fragment := by
  have last := Entries.last?_of_mem (keys_entries moves ▸ distinct) (List.mem_map_of_mem (f := Move.entry) member)
  rw [get?_storeAll, last, Option.some_or]

theorem kept_of_fresh {start : Fields} {moves : List Move}
    (apart : ∀ move ∈ moves, Entries.has move.name start = false) {name : Text} {node : Json}
    (found : Entries.get? name start = some node) : Entries.get? name (storeAll moves start) = some node := by
  have absent : name ∉ Entries.keys (moves.map Move.entry) := by
    rw [keys_entries]
    intro taken
    obtain ⟨move, member, rfl⟩ := List.mem_map.1 taken
    have free := apart move member
    simp [Entries.has, found] at free
  rw [get?_storeAll, Entries.last?_eq_none_iff.2 absent, Option.none_or, found]

theorem expand?_finished {root : Json} {start final : Fields} {log : List Move} (tracks : Tracks root start log final)
    (settled : pending final = []) (distinct : (log.map Move.name).Nodup)
    (plain : root.Unreferenced (log.map Move.name)) {bound : Nat} {name : Text} {node : Json}
    (stored : Entries.get? name (storeAll log start) = some node) (enough : sizeOf node < bound) :
    expand? (log.map Move.name) final bound node.finished = some node := by
  -- the fragments of a node are smaller than the node, and each is stored under a name of its own
  induction bound generalizing name node with
  | zero => omega
  | succ bound ih =>
    have own := plain.part (tracks.parts name node stored)
    unfold finished
    split
    · rename_i unfinished
      have given := tracks.moves_subset_of_settled settled stored unfinished
      apply expand?_flattened own
      intro move member
      refine ⟨List.mem_map_of_mem (given member), ?_⟩
      have held := stored_of_distinct start distinct (given member)
      have smaller := sizeOf_fragment_lt member
      rw [tracks.get?_of_settled settled, held, Option.map_some, Option.bind_some]
      exact ih held (by omega)
    · exact expand?_of_unreferenced bound own

/-- What a run has made of a schema leads back to it. Every expansion ends; that of the root is the root as it
was but for its definitions, and that of an original definition is the definition as it was. -/
structure Run.Restores (run : Run) (whole : Json) (start final : Fields) : Prop where
  definitions : run.root.get? Keyword.definitions = some (.obj final)
  ends : ∀ name node, Entries.get? name final = some node → ∃ original, node.ExpandsTo run.names final original
  root : run.root.ExpandsTo run.names final (whole.set Keyword.definitions (.obj final))
  entries : ∀ name node, Entries.get? name start = some node →
    ∃ left, Entries.get? name final = some left ∧ left.ExpandsTo run.names final node

theorem unnest_restores {root : Json} {start : Fields} (object : root.isObject)
    (begins : root.definitions? = some start) (distinct : (Entries.keys start).Nodup)
    (returns : (unnest room root).fault = none) (fresh : ∀ record ∈ (unnest room root).made, record.overwrote = false)
    (plain : root.Unreferenced (unnest room root).names) :
    ∃ final, (unnest room root).Restores root start final := by
  obtain ⟨later, final, done⟩ := completes_unnest begins distinct returns
  have tracks := done.tracks begins
  have closed := tracks.get?_of_settled done.settled
  rw [done.made] at fresh
  rw [done.names] at plain
  obtain ⟨once, apart⟩ := names_of_fresh fresh
  refine ⟨final, done.definitions object, ?_, ?_, ?_⟩
  · intro name node found
    rw [closed] at found
    obtain ⟨original, stored, rfl⟩ := Option.map_eq_some_iff.1 found
    rw [done.names]
    exact ⟨original, _, expand?_finished tracks done.settled once plain stored (Nat.lt_succ_self _)⟩
  · rw [done.root, done.names]
    refine ⟨sizeOf root + 1, expand?_set_definitions (.obj final) ?_⟩
    apply expand?_flattened plain
    intro move member
    have moved : move ∈ root.moves ++ later := List.mem_append_left later member
    have held := stored_of_distinct start once moved
    refine ⟨List.mem_map_of_mem moved, ?_⟩
    rw [closed, held, Option.map_some, Option.bind_some]
    exact expand?_finished tracks done.settled once plain held (sizeOf_fragment_lt member)
  · intro name node found
    have stored := kept_of_fresh apart found
    rw [closed, stored, done.names]
    exact ⟨node.finished, rfl, _, expand?_finished tracks done.settled once plain stored (Nat.lt_succ_self _)⟩

def inlineItemDefinitions : Fields :=
  [("d", .obj [("properties", .obj [("x", .obj [("items", .obj [("properties", .obj
    [("y", .obj [("properties", .obj [])])])])])])])]

def freshRoot : Json :=
  .obj [("properties", .obj
      [("a", .obj [("properties", .obj [("b", .obj [("properties", .obj []), ("title", .str "B")])])]),
        ("c", .obj [("items", .obj []), ("minItems", .int 1)]), ("e", .obj [("$ref", .str "#/definitions/d")])]),
    ("definitions", .obj inlineItemDefinitions), ("required", .arr [.str "a"])]

theorem unnest_restores_freshRoot :
    freshRoot.isObject ∧ freshRoot.definitions? = some inlineItemDefinitions ∧
      (Entries.keys inlineItemDefinitions).Nodup ∧
      (unnest (.ofDepth 100) freshRoot).fault = none ∧
        (∀ record ∈ (unnest (.ofDepth 100) freshRoot).made, record.overwrote = false) ∧
      freshRoot.Unreferenced (unnest (.ofDepth 100) freshRoot).names ∧
      ∃ final, (unnest (.ofDepth 100) freshRoot).Restores freshRoot inlineItemDefinitions final :=
  ⟨by decide, by decide, by decide, by decide +kernel, by decide +kernel, by decide +kernel,
    unnest_restores (by decide) (by decide) (by decide) (by decide +kernel) (by decide +kernel) (by decide +kernel)⟩

end SchemaUnnest.Unnesting
