import SchemaUnnest.Proofs.Account
import SchemaUnnest.Proofs.ObjectCount

namespace SchemaUnnest.Unnesting

variable {room : Room}

/-- Passes use fragments up: what they move is no longer there to be moved, whatever definition each takes
and whatever is stored under a name that is taken. -/
theorem Passes.countP_le {before after : Fields} {count : Nat} {moves : List Move}
    (run : Passes room before count moves after) (counts : Move → Bool) :
    moves.countP counts + Entries.total (Json.weight counts) after ≤ Entries.total (Json.weight counts) before := by
  induction run with
  | done definitions => simp
  | next found unfinished fits rest ih =>
    have step := total_passed_le counts found
    rw [List.countP_append]
    omega

theorem Passes.count_le {before after : Fields} {count : Nat} {moves : List Move}
    (run : Passes room before count moves after) : count ≤ moves.length := by
  induction run with
  | done definitions => exact Nat.le_refl _
  | next found unfinished fits rest ih =>
    have some := List.length_pos_iff.2 (Json.moves_ne_nil unfinished)
    rw [List.length_append]
    omega

theorem Passes.fits {before after : Fields} {count : Nat} {moves : List Move}
    (run : Passes room before count moves after) : moves.findSome? (Move.fault? room) = none := by
  induction run with
  | done definitions => rfl
  | next found unfinished fits rest ih => simp [List.findSome?_append, fits, ih]

theorem Run.Completes.countP_le {run : Run} {root : Json} {start final : Fields} {later : List Move}
    (done : run.Completes room root start later final) (counts : Move → Bool) :
    (root.moves ++ later).countP counts ≤ root.weight counts + Entries.total (Json.weight counts) start := by
  have first := Entries.total_setAll_le (Json.weight counts) (root.moves.map Move.entry) start
  have weigh := Json.weight_eq counts root
  have rest := done.passes.countP_le counts
  simp only [storeAll] at rest
  rw [List.countP_append]
  omega

theorem Move.fault?_eq_some {move : Move} {fault : Fault} (h : move.fault? room = some fault) :
    (fault = .tooDeep ∧ room.holds move.fragment = false) ∨ move.name = [] := by
  unfold Move.fault? at h
  split at h
  · rename_i deep
    exact Or.inl ⟨(Option.some.inj h).symm, deep⟩
  · split at h
    · rename_i empty
      exact Or.inr empty
    · cases h

theorem Move.holds_of_fits {move : Move} (fits : move.fault? room = none) : room.holds move.fragment := by
  unfold Move.fault? at fits
  split at fits
  · cases fits
  · rename_i copied
    simpa using copied

def PropertiesNamed (root : Json) : Prop :=
  ∀ (node : Json) (properties : Fields), node.IsPart root → node.properties? = some properties →
    ¬ Entries.has [] properties

theorem propertiesNamed_iff (root : Json) :
    root.everyPart (fun node => node.properties?.all fun properties => !Entries.has [] properties) ↔
      PropertiesNamed root := by
  simp only [Json.everyPart_iff, Option.all_eq_true, Bool.not_eq_true', PropertiesNamed, Bool.not_eq_true]
  constructor
  · intro h node properties inside
    exact h node inside properties
  · intro h node inside properties
    exact h node properties inside

instance (root : Json) : Decidable (PropertiesNamed root) := decidable_of_iff _ (propertiesNamed_iff root)

theorem name_ne_nil {root node : Json} (named : PropertiesNamed root) (inside : node.IsPart root) {move : Move}
    (member : move ∈ node.moves) : move.name ≠ [] := by
  intro empty
  obtain ⟨properties, hp, mine⟩ := Json.properties?_of_mem_moves member
  obtain ⟨key, value, held, found⟩ := Json.mem_movesOf.1 mine
  rcases Json.move?_eq_some found with ⟨-, rfl⟩ | ⟨-, item, -, rfl⟩
  · have unnamed : key = [] := empty
    have taken : [] ∈ Entries.keys properties := unnamed ▸ List.mem_map.2 ⟨(key, value), held, rfl⟩
    exact named node properties inside hp ((Entries.has_iff_mem_keys [] properties).2 taken)
  · have ending : Keyword.itemEnding ≠ [] := by decide
    exact absurd (List.append_eq_nil_iff.1 empty).2 ending

/-- What has been moved could be copied, so nothing in it is too deep. -/
theorem get?_start_of_deep {start : Fields} {log : List Move} (fits : log.findSome? (Move.fault? room) = none)
    {name : Text}
    {node : Json} (stored : Entries.get? name (storeAll log start) = some node) {move : Move}
    (member : move ∈ node.moves)
    (deep : room.holds move.fragment = false) : Entries.get? name start = some node := by
  rw [get?_storeAll] at stored
  cases hl : Entries.last? name (log.map Move.entry) with
  | none =>
    rw [hl] at stored
    exact stored
  | some fragment =>
    obtain ⟨earlier, moved, -, rfl⟩ := mem_of_last?_moves hl
    rw [hl, Option.some_or, Option.some.injEq] at stored
    have copied := Move.holds_of_fits (List.findSome?_eq_none_iff.1 fits earlier moved)
    have whole : node.IsPart node := .self
    rw [stored] at copied
    rw [room.holds_of_isPart (Json.hasFragment_of_mem_moves whole member).isPart copied] at deep
    cases deep

def HoldsTooDeep (room : Room) (root : Json) (start : Fields) : Prop :=
  ∃ node move, (node = root ∨ ∃ name, Entries.get? name start = some node ∧ node.holdsNested) ∧
    move ∈ node.moves ∧ room.holds move.fragment = false

/-- What a run that returns has done. It has moved these fragments, of each no more than stand inline in the
schema. -/
structure Run.EndsClean (run : Run) (whole : Json) (start : Fields) (moves : List Move) (final : Fields) : Prop where
  returns : run.fault = none
  made : run.made = recordAll start moves
  once : ∀ move, moves.count move ≤
    whole.weight (· == move) + Entries.total (Json.weight (· == move)) start
  passes : run.passes ≤ run.made.length
  bounded : run.made.length ≤ whole.objectCount
  definitions : run.root.get? Keyword.definitions = some (.obj final)
  settled : ∀ name node, (name, node) ∈ final → node.holdsNested = false
  properties : ∀ properties, run.root.properties? = some properties → ∀ key value, (key, value) ∈ properties →
    value.isNestedObject = false ∧ value.hasInlineItems = false

theorem Run.Completes.endsClean {run : Run} {root : Json} {start final : Fields} {later : List Move}
    (done : run.Completes room root start later final) (object : root.isObject)
    (begins : root.definitions? = some start)
    (returns : run.fault = none) : run.EndsClean root start (root.moves ++ later) final := by
  have count : run.made.length = (root.moves ++ later).length := by rw [done.made, length_recordAll]
  constructor
  · exact returns
  · exact done.made
  · intro move
    exact done.countP_le (· == move)
  · have some := done.passes.count_le
    rw [count, List.length_append]
    omega
  · have used := done.countP_le fun _ => true
    have bound := Json.weight_root_le (fun _ => true) begins
    rw [List.countP_true] at used
    omega
  · exact done.definitions object
  · intro name node member
    exact holdsNested_of_pending_nil done.settled member
  · rw [← Json.moves_eq_nil_iff, done.root, moves_set_definitions, Json.moves_flattened]

theorem holdsTooDeep_of_stops {root : Json} {start : Fields} {fault : Fault} (begins : root.definitions? = some start)
    (distinct : (Entries.keys start).Nodup) (named : PropertiesNamed root)
    (stops : (unnest room root).fault = some fault) : fault = .tooDeep ∧ HoldsTooDeep room root start := by
  rcases stops_unnest begins distinct stops with
    here | ⟨count, moves, reached, name, node, fits, run, found, unfinished, reason⟩
  · obtain ⟨move, member, why⟩ := List.exists_of_findSome?_eq_some here
    rcases Move.fault?_eq_some why with ⟨rfl, deep⟩ | empty
    · exact ⟨rfl, root, move, Or.inl rfl, member, deep⟩
    · exact absurd empty (name_ne_nil named .self member)
  · have tracks := (tracks_begin begins).passes run
    have stored := tracks.stored_of_holdsNested found unfinished
    have all : (root.moves ++ moves).findSome? (Move.fault? room) = none := by
      simp [List.findSome?_append, fits, run.fits]
    obtain ⟨move, member, why⟩ := List.exists_of_findSome?_eq_some reason
    rcases Move.fault?_eq_some why with ⟨rfl, deep⟩ | empty
    · have first := get?_start_of_deep all stored member deep
      exact ⟨rfl, node, move, Or.inr ⟨name, first, unfinished⟩, member, deep⟩
    · exact absurd empty (name_ne_nil named (tracks.parts name node stored) member)

theorem run_ends {root : Json} {start : Fields} (object : root.isObject) (begins : root.definitions? = some start)
    (distinct : (Entries.keys start).Nodup) (named : PropertiesNamed root) :
    (∃ moves final, (unnest room root).EndsClean root start moves final) ∨
      ((unnest room root).fault = some .tooDeep ∧ HoldsTooDeep room root start) := by
  cases h : (unnest room root).fault with
  | none =>
    obtain ⟨later, final, done⟩ := completes_unnest begins distinct h
    exact Or.inl ⟨_, final, done.endsClean object begins h⟩
  | some fault =>
    obtain ⟨rfl, deep⟩ := holdsTooDeep_of_stops begins distinct named h
    exact Or.inr ⟨rfl, deep⟩

def inlineDefinitions : Fields := [("a", .obj [("properties", .obj [("e", .obj [("properties", .obj [])])])])]

def nestedRoot : Json :=
  .obj [("properties", .obj [("a", .obj [("properties", .obj
      [("b", .obj [("properties", .obj []), ("title", .str "B")]),
        ("c", .obj [("items", .obj [("properties", .obj [("d", .obj [("properties", .obj [])])])])])])])]),
    ("definitions", .obj inlineDefinitions)]

theorem run_ends_nestedRoot :
    nestedRoot.isObject ∧ nestedRoot.definitions? = some inlineDefinitions ∧ (Entries.keys inlineDefinitions).Nodup ∧
      PropertiesNamed nestedRoot ∧
      ((∃ moves final, (unnest (.ofDepth 100) nestedRoot).EndsClean nestedRoot inlineDefinitions moves final) ∨
        ((unnest (.ofDepth 100) nestedRoot).fault = some .tooDeep ∧
          HoldsTooDeep (.ofDepth 100) nestedRoot inlineDefinitions)) :=
  ⟨by decide, by decide, by decide, by decide +kernel,
    run_ends (by decide) (by decide) (by decide) (by decide +kernel)⟩

def tower : Nat → Json
  | 0 => .arr []
  | levels + 1 => .arr [tower levels]

def tallFragment : Json := .obj [("properties", .obj []), ("x", tower 599)]

def tallRoot : Json := .obj [("properties", .obj [("a", tallFragment)])]

theorem moves_tallRoot : tallRoot.moves = [⟨.object, "a", tallFragment⟩] := rfl

theorem holds_tallFragment {limit : Int} (low : limit < 600) : (Room.ofDepth limit).holds tallFragment = false := by
  have tall : tallFragment.depth = 600 := by decide +kernel
  simp [Room.ofDepth, tall, low]

/-- Copying a fragment takes a stack that is as high as the fragment is deep, so no name is to blame here. -/
theorem stops_tallRoot :
    tallRoot.isObject ∧ tallRoot.definitions? = some [] ∧ PropertiesNamed tallRoot ∧
      ∀ limit < 600, (unnest (.ofDepth limit) tallRoot).fault = some .tooDeep := by
  refine ⟨by decide, by decide, by decide +kernel, ?_⟩
  intro limit low
  apply fault_unnest_of_moves (show tallRoot.definitions? = some [] by decide)
  simp [moves_tallRoot, Move.fault?, holds_tallFragment low]

end SchemaUnnest.Unnesting
