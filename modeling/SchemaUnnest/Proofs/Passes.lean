import SchemaUnnest.Unnesting.Run

namespace SchemaUnnest.Unnesting

variable {room : Room}

inductive Passes (room : Room) : Fields → Nat → List Move → Fields → Prop where
  | done (definitions : Fields) : Passes room definitions 0 [] definitions
  | next {before after : Fields} {name : Text} {node : Json} {count : Nat} {moves : List Move}
    (found : Entries.get? name before = some node) (unfinished : node.holdsNested)
    (fits : node.moves.findSome? (Move.fault? room) = none)
    (rest : Passes room (passed name node before) count moves after) :
    Passes room before (count + 1) (node.moves ++ moves) after

theorem has_passed {name : Text} {node : Json} {definitions : Fields}
    (found : Entries.get? name definitions = some node) (other : Text) :
    Entries.has other (passed name node definitions) = Entries.has other (storeAll node.moves definitions) := by
  have held : Entries.has name definitions := by simp [Entries.has, found]
  by_cases h : name = other
  · subst h
    simp [passed, storeAll, Entries.has, Entries.get?_setAll, found]
  · simp [passed, storeAll, Entries.has, Entries.get?_setAll, Entries.get?_set, h]

theorem nodup_keys_storeAll (moves : List Move) {definitions : Fields}
    (distinct : (Entries.keys definitions).Nodup) : (Entries.keys (storeAll moves definitions)).Nodup :=
  Entries.nodup_keys_setAll _ distinct

theorem nodup_keys_passed {name : Text} {node : Json} {definitions : Fields}
    (distinct : (Entries.keys definitions).Nodup) : (Entries.keys (passed name node definitions)).Nodup :=
  nodup_keys_storeAll _ (Entries.nodup_keys_set _ _ distinct)

theorem Passes.nodup_keys {before after : Fields} {count : Nat} {moves : List Move}
    (run : Passes room before count moves after)
    (distinct : (Entries.keys before).Nodup) : (Entries.keys after).Nodup := by
  induction run with
  | done definitions => exact distinct
  | next found unfinished fits rest ih => exact ih (nodup_keys_passed distinct)

theorem passes_of_sweep {passes : Nat} {definitions : Fields} (distinct : (Entries.keys definitions).Nodup)
    (returns : (sweep room passes definitions).fault = none) :
    ∃ count moves, Passes room definitions count moves (sweep room passes definitions).definitions ∧
      pending (sweep room passes definitions).definitions = [] ∧
      (sweep room passes definitions).passes = passes + count ∧
      (sweep room passes definitions).made = recordAll definitions moves := by
  fun_induction sweep with
  | case1 passes definitions none => exact ⟨0, [], .done _, none, rfl, rfl⟩
  | case2 passes definitions name more heads held step events fault stops => cases returns
  | case3 passes definitions name more heads held step events fits next ih =>
    obtain ⟨node, found, unfinished⟩ := isPending_iff.1 held
    have after : step.definitions = passed name node definitions := definitions_flattenEntry found fits
    have made : step.made = recordAll definitions node.moves := made_flattenEntry found fits
    obtain ⟨count, moves, rest, settled, counted, recorded⟩ :=
      ih (after ▸ nodup_keys_passed distinct) returns
    change Passes room step.definitions count moves next.definitions at rest
    rw [after] at rest recorded
    refine ⟨count + 1, node.moves ++ moves, ?_, settled, ?_, ?_⟩
    · exact .next found unfinished (fault_flattenEntry found ▸ fits) rest
    · simp only [next, counted]
      omega
    · -- names that are taken stay taken, so flattening the node first does not show in the records
      change step.made ++ next.made = _
      rw [recordAll_append, made, recordAll_congr (fun other => (has_passed found other).symm), ← recorded, ← after]
  | case4 passes definitions name more heads absent =>
    exact absurd (isPending_of_mem_pending distinct (heads ▸ List.mem_cons_self)) absent

theorem passes_of_stopped_sweep {passes : Nat} {definitions : Fields} {fault : Fault}
    (distinct : (Entries.keys definitions).Nodup) (stops : (sweep room passes definitions).fault = some fault) :
    ∃ count moves reached name node, Passes room definitions count moves reached ∧
      Entries.get? name reached = some node ∧ node.holdsNested ∧
        node.moves.findSome? (Move.fault? room) = some fault := by
  fun_induction sweep with
  | case1 passes definitions none => cases stops
  | case2 passes definitions name more heads held step events other here =>
    obtain ⟨node, found, unfinished⟩ := isPending_iff.1 held
    refine ⟨0, [], definitions, name, node, .done _, found, unfinished, ?_⟩
    rw [← fault_flattenEntry found, ← stops]
    exact here
  | case3 passes definitions name more heads held step events fits next ih =>
    obtain ⟨node, found, unfinished⟩ := isPending_iff.1 held
    have after : step.definitions = passed name node definitions := definitions_flattenEntry found fits
    obtain ⟨count, moves, reached, other, last, rest, reason⟩ :=
      ih (after ▸ nodup_keys_passed distinct) stops
    rw [after] at rest
    exact ⟨count + 1, node.moves ++ moves, reached, other, last,
      .next found unfinished (fault_flattenEntry found ▸ fits) rest, reason⟩
  | case4 passes definitions name more heads absent => cases stops

/-- What a run that comes to its end has done: the fragments of the root are stored, passes are made until no
definition is pending, and the records are those of all the fragments moved. -/
structure Run.Completes (room : Room) (run : Run) (whole : Json) (start : Fields) (later : List Move)
    (final : Fields) : Prop where
  passes : Passes room (storeAll whole.moves start) run.passes later final
  settled : pending final = []
  root : run.root = whole.flattened.set Keyword.definitions (.obj final)
  made : run.made = recordAll start (whole.moves ++ later)
  fits : whole.moves.findSome? (Move.fault? room) = none

theorem completes_unnestWith {root : Json} {start : Fields} (distinct : (Entries.keys start).Nodup)
    (returns : (unnestWith room root start).fault = none) :
    ∃ later final, (unnestWith room root start).Completes room root start later final := by
  cases h : (replaceNested room start root).fault with
  | some fault => simp [unnestWith, h] at returns
  | none =>
    have first := performs_replaceNested start h
    simp only [unnestWith, h, first.definitions, first.node, first.made] at returns ⊢
    obtain ⟨count, later, passes, settled, counted, made⟩ :=
      passes_of_sweep (nodup_keys_storeAll root.moves distinct) returns
    have counted : (sweep room 0 (storeAll root.moves start)).passes = count := by omega
    refine ⟨later, _, counted ▸ passes, settled, rfl, ?_, fault_replaceNested start root ▸ h⟩
    rw [recordAll_append, ← made]

theorem stops_unnestWith {root : Json} {start : Fields} {fault : Fault} (distinct : (Entries.keys start).Nodup)
    (stops : (unnestWith room root start).fault = some fault) :
    root.moves.findSome? (Move.fault? room) = some fault ∨
      ∃ count moves reached name node, root.moves.findSome? (Move.fault? room) = none ∧
        Passes room (storeAll root.moves start) count moves reached ∧
        Entries.get? name reached = some node ∧ node.holdsNested ∧
        node.moves.findSome? (Move.fault? room) = some fault := by
  cases h : (replaceNested room start root).fault with
  | some other =>
    simp only [unnestWith, h, Option.some.injEq] at stops
    rw [fault_replaceNested, stops] at h
    exact Or.inl h
  | none =>
    have first := performs_replaceNested start h
    simp only [unnestWith, h, first.definitions] at stops
    rw [fault_replaceNested] at h
    obtain ⟨count, moves, reached, name, node, reason⟩ :=
      passes_of_stopped_sweep (nodup_keys_storeAll root.moves distinct) stops
    exact Or.inr ⟨count, moves, reached, name, node, h, reason⟩

theorem moves_set_definitions (root definitions : Json) :
    (root.set Keyword.definitions definitions).moves = root.moves := by
  rw [Json.moves, Json.moves, Json.properties?_set_definitions]

theorem flattened_set_definitions (root definitions final : Json) :
    (root.set Keyword.definitions definitions).flattened.set Keyword.definitions final =
      root.flattened.set Keyword.definitions final := by
  have other : Keyword.properties ≠ Keyword.definitions := by decide
  cases hp : root.properties? with
  | none => simp [Json.flattened, Json.properties?_set_definitions, hp, Json.set_set]
  | some properties =>
    have held : root.has Keyword.properties := Json.has_of_get? (Json.properties?_eq_some.1 hp)
    simp [Json.flattened, Json.properties?_set_definitions, hp, Json.set_comm other held, Json.set_set]

theorem completes_unnest {root : Json} {start : Fields} (begins : root.definitions? = some start)
    (distinct : (Entries.keys start).Nodup) (returns : (unnest room root).fault = none) :
    ∃ later final, (unnest room root).Completes room root start later final := by
  unfold Json.definitions? at begins
  unfold unnest at returns ⊢
  split at begins
  · rename_i absent
    cases begins
    simp only [absent] at returns ⊢
    obtain ⟨later, final, done⟩ := completes_unnestWith distinct returns
    have moves := moves_set_definitions root (.obj [])
    refine ⟨later, final, moves ▸ done.passes, done.settled, ?_, moves ▸ done.made, moves ▸ done.fits⟩
    rw [← flattened_set_definitions root (.obj []) (.obj final)]
    exact done.root
  · rename_i found
    cases begins
    simp only [found] at returns ⊢
    exact completes_unnestWith distinct returns
  · cases begins

theorem Run.Completes.names {run : Run} {root : Json} {start final : Fields} {later : List Move}
    (done : run.Completes room root start later final) : run.names = (root.moves ++ later).map Move.name := by
  rw [Run.names, done.made, names_recordAll]

theorem Run.Completes.definitions {run : Run} {root : Json} {start final : Fields} {later : List Move}
    (done : run.Completes room root start later final) (object : root.isObject) :
    run.root.get? Keyword.definitions = some (.obj final) := by
  rw [done.root, Json.get?_set (Json.isObject_flattened root ▸ object), if_pos rfl]

theorem stops_unnest {root : Json} {start : Fields} {fault : Fault} (begins : root.definitions? = some start)
    (distinct : (Entries.keys start).Nodup) (stops : (unnest room root).fault = some fault) :
    root.moves.findSome? (Move.fault? room) = some fault ∨
      ∃ count moves reached name node, root.moves.findSome? (Move.fault? room) = none ∧
        Passes room (storeAll root.moves start) count moves reached ∧
        Entries.get? name reached = some node ∧ node.holdsNested ∧
        node.moves.findSome? (Move.fault? room) = some fault := by
  unfold Json.definitions? at begins
  unfold unnest at stops
  split at begins
  · rename_i absent
    cases begins
    simp only [absent] at stops
    rw [← moves_set_definitions root (.obj [])]
    exact stops_unnestWith distinct stops
  · rename_i found
    cases begins
    simp only [found] at stops
    exact stops_unnestWith distinct stops
  · cases begins

theorem fault_unnest_of_moves {root : Json} {start : Fields} {fault : Fault} (begins : root.definitions? = some start)
    (stops : root.moves.findSome? (Move.fault? room) = some fault) : (unnest room root).fault = some fault := by
  have same : ∀ {whole : Json} {first : Fields}, whole.moves = root.moves →
    (unnestWith room whole first).fault = some fault := by
    intro whole first moves
    rw [← moves, ← fault_replaceNested first] at stops
    simp [unnestWith, stops]
  cases held : root.get? Keyword.definitions with
  | none =>
    simp only [unnest, held]
    exact same (moves_set_definitions root (.obj []))
  | some value =>
    cases value with
    | obj definitions =>
      simp only [unnest, held]
      exact same rfl
    | _ => simp [Json.definitions?, held] at begins

theorem unnest_of_unusable {root : Json} (unusable : root.definitions? = none) :
    (unnest room root).fault = none ∧ (unnest room root).root = root := by
  cases found : root.get? Keyword.definitions with
  | none => simp [Json.definitions?, found] at unusable
  | some value =>
    cases value with
    | obj definitions => simp [Json.definitions?, found] at unusable
    | _ => simp [unnest, found]

end SchemaUnnest.Unnesting
