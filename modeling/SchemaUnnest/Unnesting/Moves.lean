import SchemaUnnest.Unnesting.Replacement

namespace SchemaUnnest

namespace Unnesting

namespace Move

def entry (move : Move) : Text × Json := (move.name, move.fragment)

def record (definitions : Fields) (move : Move) : Extraction :=
  ⟨move.name, move.kind, move.propertyName, move.pointer, Entries.has move.name definitions⟩

def fault? (room : Room) (move : Move) : Option Fault :=
  if room.holds move.fragment = false then some .tooDeep
  else if move.name = [] then some (.record .emptyName)
  else none

end Move

def storeAll (moves : List Move) (definitions : Fields) : Fields :=
  Entries.setAll (moves.map Move.entry) definitions

def recordAll (definitions : Fields) : List Move → List Extraction
  | [] => []
  | move :: rest => move.record definitions :: recordAll (Entries.set move.name move.fragment definitions) rest

end Unnesting

namespace Json

open Unnesting

/-- The fragment that a property gives away: all of a nested object, else the description of an array's
elements. -/
def move? (key : Text) (value : Json) : Option Move :=
  (fragmentAt? .object key value).or (fragmentAt? .arrayItem key value)

def flatValue (key : Text) (value : Json) : Json :=
  match move? key value with
  | some move => leave move.kind value move.reference
  | none => value

def flatProperties (properties : Fields) : Fields := properties.map fun (key, value) => (key, flatValue key value)

def movesOf (properties : Fields) : List Move :=
  let moves := properties.filterMap fun (key, value) => move? key value
  moves.filter (·.kind = .object) ++ moves.filter (·.kind = .arrayItem)

def moves (node : Json) : List Move := (node.properties?.map movesOf).getD []

def flattened (node : Json) : Json :=
  match node.properties? with
  | none => node
  | some properties => node.set Keyword.properties (.obj (flatProperties properties))

/-- What becomes of a definition: it is flattened if a nested object stands at one of its properties. -/
def finished (node : Json) : Json := if node.holdsNested then node.flattened else node

theorem move?_eq (key : Text) (value : Json) :
    move? key value =
      if value.isNestedObject then some ⟨.object, key, value⟩
      else value.itemSchema?.map fun item => ⟨.arrayItem, key, item⟩ := by
  by_cases object : value.isNestedObject <;> simp [move?, fragmentAt?, object]

theorem move?_eq_none_iff {key : Text} {value : Json} :
    move? key value = none ↔ value.isNestedObject = false ∧ value.itemSchema? = none := by
  rw [move?_eq]
  cases value.isNestedObject <;> simp

theorem move?_eq_some {key : Text} {value : Json} {move : Move} (h : move? key value = some move) :
    (value.isNestedObject ∧ move = ⟨.object, key, value⟩) ∨
      (value.isNestedObject = false ∧ ∃ item, value.itemSchema? = some item ∧ move = ⟨.arrayItem, key, item⟩) := by
  rw [move?_eq] at h
  split at h
  · rename_i object
    exact Or.inl ⟨object, (Option.some.inj h).symm⟩
  · rename_i plain
    obtain ⟨item, found, same⟩ := Option.map_eq_some_iff.1 h
    exact Or.inr ⟨by simpa using plain, item, found, same.symm⟩

theorem flatValue_of_move?_none {key : Text} {value : Json} (h : move? key value = none) :
    flatValue key value = value := by
  simp [flatValue, h]

/-- A flattened property is a reference to the definition of its name, or an array with a reference for the
description of its elements, or what it was. -/
theorem flatValue_eq (key : Text) (value : Json) :
    flatValue key value =
      if value.isNestedObject then reference (Keyword.definitionsPointer ++ key)
      else if value.hasInlineItems then
        value.set Keyword.items (reference (Keyword.definitionsPointer ++ (key ++ Keyword.itemEnding)))
      else value := by
  rw [flatValue, move?_eq]
  by_cases object : value.isNestedObject
  · rw [if_pos object, if_pos object]
    rfl
  · rw [if_neg object, if_neg object]
    cases array : value.itemSchema? with
    | none => simp [hasInlineItems, array]
    | some item => simp [hasInlineItems, array, leave, Move.reference, Move.pointer, Move.name, nameFor]

/-- With a reference for its elements, an array is neither a nested object nor has it inline elements. -/
theorem move?_set_items {value item node : Json} (held : value.get? Keyword.items = some item)
    (plain : value.isNestedObject = false) (reference : node.isReference) (key : Text) :
    move? key (value.set Keyword.items node) = none := by
  have object := isObject_of_get? held
  have shape : Keyword.items ≠ Keyword.properties := by decide
  have mark : Keyword.items ≠ Keyword.ref := by decide
  rw [move?_eq_none_iff]
  constructor
  · simpa [isNestedObject, isReference_eq, hasProperties, properties?, object?, get?_set object, shape, mark]
      using plain
  · simp [itemSchema?, get?_set object, Option.filter, reference]

theorem move?_flatValue (key other : Text) (value : Json) : move? other (flatValue key value) = none := by
  cases h : move? key value with
  | none =>
    rw [flatValue_of_move?_none h]
    exact move?_eq_none_iff.2 (move?_eq_none_iff.1 h)
  | some move =>
    have reference : move.reference.isReference := isReference_reference move.pointer
    simp only [flatValue, h]
    rcases move?_eq_some h with ⟨-, same⟩ | ⟨plain, item, found, same⟩
    · have kind : move.kind = .object := by rw [same]
      rw [kind, leave, move?_eq_none_iff]
      exact ⟨isNestedObject_of_isReference reference, itemSchema?_of_isReference reference⟩
    · have kind : move.kind = .arrayItem := by rw [same]
      rw [kind, leave]
      exact move?_set_items (itemSchema?_eq_some found).2.1 plain reference other

theorem mem_movesOf {properties : Fields} {move : Move} :
    move ∈ movesOf properties ↔ ∃ key value, (key, value) ∈ properties ∧ move? key value = some move := by
  have kinds : move.kind = .object ∨ move.kind = .arrayItem := by cases move.kind <;> simp
  simp only [movesOf, List.mem_append, List.mem_filter, List.mem_filterMap, decide_eq_true_eq]
  constructor
  · rintro (⟨⟨entry, member, found⟩, -⟩ | ⟨⟨entry, member, found⟩, -⟩) <;>
      exact ⟨entry.1, entry.2, member, found⟩
  · rintro ⟨key, value, member, found⟩
    rcases kinds with kind | kind
    · exact Or.inl ⟨⟨(key, value), member, found⟩, kind⟩
    · exact Or.inr ⟨⟨(key, value), member, found⟩, kind⟩

theorem movesOf_perm (properties : Fields) :
    (movesOf properties).Perm (properties.filterMap fun (key, value) => move? key value) := by
  have arrays : ∀ move : Move, decide (move.kind = .arrayItem) = !decide (move.kind = .object) := by
    intro move
    cases move.kind <;> rfl
  simp only [movesOf, arrays]
  exact List.filter_append_perm (fun move : Move => decide (move.kind = .object)) _

theorem movesOf_eq_nil_iff {properties : Fields} :
    movesOf properties = [] ↔ ∀ key value, (key, value) ∈ properties → move? key value = none := by
  simp only [List.eq_nil_iff_forall_not_mem, mem_movesOf, Option.eq_none_iff_forall_ne_some]
  constructor
  · intro h key value member move found
    exact h move ⟨key, value, member, found⟩
  · rintro h move ⟨key, value, member, found⟩
    exact h key value member move found

theorem flatProperties_of_movesOf_nil {properties : Fields} (h : movesOf properties = []) :
    flatProperties properties = properties := by
  refine (List.map_congr_left ?_).trans (List.map_id properties)
  rintro ⟨key, value⟩ member
  simp [flatValue_of_move?_none (movesOf_eq_nil_iff.1 h key value member)]

theorem movesOf_flatProperties (properties : Fields) : movesOf (flatProperties properties) = [] := by
  rw [movesOf_eq_nil_iff]
  intro key value member
  obtain ⟨entry, -, same⟩ := List.mem_map.1 member
  cases same
  exact move?_flatValue _ _ _

theorem moves_of_properties? {node : Json} {properties : Fields} (h : node.properties? = some properties) :
    node.moves = movesOf properties := by simp [moves, h]

/-- A node has nothing to give away just if each of its properties is flat. -/
theorem moves_eq_nil_iff {node : Json} :
    node.moves = [] ↔ ∀ properties, node.properties? = some properties → ∀ key value, (key, value) ∈ properties →
      value.isNestedObject = false ∧ value.hasInlineItems = false := by
  have flat : ∀ key value, move? key value = none ↔ value.isNestedObject = false ∧ value.hasInlineItems = false := by
    intro key value
    simp only [move?_eq_none_iff, hasInlineItems, Option.isSome_eq_false_iff, Option.isNone_iff_eq_none]
  cases hp : node.properties? with
  | none => simp [moves, hp]
  | some properties => simp only [moves_of_properties? hp, movesOf_eq_nil_iff, flat, Option.some.injEq, forall_eq']

theorem properties?_of_mem_moves {node : Json} {move : Move} (h : move ∈ node.moves) :
    ∃ properties, node.properties? = some properties ∧ move ∈ movesOf properties := by
  cases hp : node.properties? with
  | none => simp [moves, hp] at h
  | some properties => exact ⟨properties, rfl, moves_of_properties? hp ▸ h⟩

theorem isObject_flattened (node : Json) : node.flattened.isObject = node.isObject := by
  unfold flattened
  split
  · rfl
  · exact isObject_set _ _ _

/-- Flattening a node changes none of its members but the properties. -/
theorem get?_flattened_of_ne (node : Json) {key : Text} (other : key ≠ Keyword.properties) :
    node.flattened.get? key = node.get? key := by
  cases hp : node.properties? with
  | none => simp only [flattened, hp]
  | some properties =>
    have object := isObject_of_get? (properties?_eq_some.1 hp)
    simp only [flattened, hp, get?_set object, if_neg (Ne.symm other)]

theorem flattened_of_properties?_none {node : Json} (none : node.properties? = none) : node.flattened = node := by
  simp only [flattened, none]

theorem keys_flattened {fields left : Fields} (h : (obj fields).flattened = .obj left) :
    Entries.keys left = Entries.keys fields := by
  cases hp : (obj fields).properties? with
  | none =>
    rw [flattened_of_properties?_none hp] at h
    cases h
    rfl
  | some properties =>
    have held : Entries.get? Keyword.properties fields = some (.obj properties) := properties?_eq_some.1 hp
    simp only [flattened, hp, set, obj.injEq] at h
    rw [← h, Entries.keys_set, if_pos (by simp [Entries.has, held])]

theorem properties?_flattened (node : Json) : node.flattened.properties? = node.properties?.map flatProperties := by
  cases h : node.properties? with
  | none => simp [flattened, h]
  | some properties =>
    have object := isObject_of_get? (properties?_eq_some.1 h)
    simp [flattened, h, properties?_eq_some, get?_set object]

theorem moves_flattened (node : Json) : node.flattened.moves = [] := by
  rw [moves, properties?_flattened]
  cases node.properties? with
  | none => rfl
  | some properties => exact movesOf_flatProperties properties

theorem flattened_of_moves_nil {node : Json} (h : node.moves = []) : node.flattened = node := by
  cases hp : node.properties? with
  | none => simp [flattened, hp]
  | some properties =>
    have none : movesOf properties = [] := moves_of_properties? hp ▸ h
    simp only [flattened, hp, flatProperties_of_movesOf_nil none]
    exact set_of_get? (properties?_eq_some.1 hp)

theorem move?_of_isInline (key : Text) {value : Json} (h : value.isInline) : (move? key value).isSome := by
  rw [move?_eq]
  split
  · rfl
  · rename_i plain
    simp only [isInline, plain, Bool.false_or] at h
    cases hi : value.itemSchema? with
    | none => simp [hi] at h
    | some item => simp

theorem moves_ne_nil {node : Json} (h : node.holdsNested) : node.moves ≠ [] := by
  simp only [holdsNested, Bool.and_eq_true] at h
  cases hp : node.properties? with
  | none => simp [hp] at h
  | some properties =>
    simp only [hp, Option.any_some] at h
    obtain ⟨⟨key, value⟩, member, inline⟩ := List.any_eq_true.1 h.2
    obtain ⟨move, found⟩ := Option.isSome_iff_exists.1 (move?_of_isInline key inline)
    intro none
    rw [moves_of_properties? hp, movesOf_eq_nil_iff] at none
    simp [none key value member] at found

theorem holdsNested_flattened (node : Json) : node.flattened.holdsNested = false := by
  cases h : node.flattened.holdsNested with
  | false => rfl
  | true => exact absurd (moves_flattened node) (moves_ne_nil h)

end Json

namespace Unnesting

theorem storeAll_nil (definitions : Fields) : storeAll [] definitions = definitions := rfl

theorem storeAll_cons (move : Move) (moves : List Move) (definitions : Fields) :
    storeAll (move :: moves) definitions = storeAll moves (Entries.set move.name move.fragment definitions) := rfl

theorem storeAll_append (first second : List Move) (definitions : Fields) :
    storeAll (first ++ second) definitions = storeAll second (storeAll first definitions) := by
  simp [storeAll, Entries.setAll_append]

theorem recordAll_append (first second : List Move) (definitions : Fields) :
    recordAll definitions (first ++ second) =
      recordAll definitions first ++ recordAll (storeAll first definitions) second := by
  induction first generalizing definitions with
  | nil => rfl
  | cons move rest ih => simp [recordAll, ih, storeAll_cons]

theorem names_recordAll (definitions : Fields) (moves : List Move) :
    (recordAll definitions moves).map (·.name) = moves.map Move.name := by
  induction moves generalizing definitions with
  | nil => rfl
  | cons move rest ih => simp [recordAll, Move.record, ih]

theorem length_recordAll (definitions : Fields) (moves : List Move) :
    (recordAll definitions moves).length = moves.length := by
  have names := congrArg List.length (names_recordAll definitions moves)
  simpa using names

theorem keys_entries (moves : List Move) : Entries.keys (moves.map Move.entry) = moves.map Move.name := by
  simp [Entries.keys, Move.entry, Function.comp_def]

/-- Records depend on which names are taken, and not on what is stored under them. -/
theorem recordAll_congr {left right : Fields} (same : ∀ name, Entries.has name left = Entries.has name right)
    (moves : List Move) : recordAll left moves = recordAll right moves := by
  induction moves generalizing left right with
  | nil => rfl
  | cons move rest ih =>
    have later : recordAll (Entries.set move.name move.fragment left) rest =
        recordAll (Entries.set move.name move.fragment right) rest :=
      ih fun name => by simp [Entries.has_set, same]
    simp [recordAll, Move.record, same, later]

variable {room : Room}

theorem store_of_fits (definitions : Fields) {move : Move} (fits : move.fault? room = none) :
    store room definitions move =
      ⟨Entries.set move.name move.fragment definitions, [move.name], .ok (move.record definitions)⟩ := by
  unfold Move.fault? at fits
  split at fits
  · cases fits
  · rename_i shallow
    split at fits
    · cases fits
    · rename_i named
      simp [store, shallow, Extraction.create, named, Move.record, Move.pointer]

theorem store_of_fault? (definitions : Fields) {move : Move} {fault : Fault} (h : move.fault? room = some fault) :
    (store room definitions move).outcome = .error fault := by
  unfold Move.fault? at h
  split at h
  · rename_i deep
    cases h
    simp [store, deep]
  · rename_i shallow
    split at h
    · rename_i empty
      cases h
      simp [store, shallow, Extraction.create, empty]
    · cases h

theorem walk_of_none {kind : FragmentKind} {key : Text} {value : Json} (none : fragmentAt? kind key value = none)
    (definitions rest : Fields) :
    walk room kind definitions ((key, value) :: rest) = (walk room kind definitions rest).keep key value := by
  simp [walk, none]

theorem walk_of_fits {kind : FragmentKind} {key : Text} {value : Json} {move : Move}
    (found : fragmentAt? kind key value = some move) (fits : move.fault? room = none) (definitions rest : Fields) :
    walk room kind definitions ((key, value) :: rest) =
      (walk room kind (Entries.set move.name move.fragment definitions) rest).move key (leave kind value move.reference)
        (collision definitions move.name) (move.record definitions) := by
  simp [walk, found, store_of_fits definitions fits, Extraction.referenceNode, Move.record, Move.reference]

theorem walk_of_fault {kind : FragmentKind} {key : Text} {value : Json} {move : Move} {fault : Fault}
    (found : fragmentAt? kind key value = some move) (stops : move.fault? room = some fault)
    (definitions rest : Fields) :
    walk room kind definitions ((key, value) :: rest) =
      .stop (store room definitions move) fault key (collision definitions move.name) ((key, value) :: rest) := by
  simp [walk, found, store_of_fault? definitions stops]

structure Walk.Performs (walk : Walk) (start : Fields) (moves : List Move) (left : Fields) : Prop where
  definitions : walk.definitions = storeAll moves start
  properties : walk.properties = left
  stored : walk.stored = moves.map Move.name
  made : walk.made = recordAll start moves

theorem Walk.Performs.keep {walk : Walk} {definitions properties : Fields} {moves : List Move}
    (done : walk.Performs definitions moves properties) (key : Text) (value : Json) :
    (walk.keep key value).Performs definitions moves ((key, value) :: properties) where
  definitions := done.definitions
  properties := by simp [Walk.keep, done.properties]
  stored := done.stored
  made := done.made

theorem Walk.Performs.move {walk : Walk} {definitions properties : Fields} {moves : List Move} {move : Move}
    (done : walk.Performs (Entries.set move.name move.fragment definitions) moves properties)
    (key : Text) (value : Json) (collision : List Event) :
    (walk.move key value collision (move.record definitions)).Performs definitions (move :: moves)
      ((key, value) :: properties) where
  definitions := done.definitions
  properties := by simp [Walk.move, done.properties]
  stored := by simp [Walk.move, Move.record, done.stored]
  made := by simp [Walk.move, recordAll, done.made]

theorem Walk.Performs.andThen {first second : Walk} {start left after : Fields} {moves more : List Move}
    (done : first.Performs start moves left) (next : second.Performs first.definitions more after) :
    (first.andThen second).Performs start (moves ++ more) after where
  definitions := by rw [storeAll_append, ← done.definitions]; exact next.definitions
  properties := next.properties
  stored := by simp [Walk.andThen, done.stored, next.stored]
  made := by simp [Walk.andThen, recordAll_append, done.made, next.made, done.definitions]

theorem fault_walk (room : Room) (kind : FragmentKind) (definitions properties : Fields) :
    (walk room kind definitions properties).fault =
      (properties.filterMap fun (key, value) => fragmentAt? kind key value).findSome? (Move.fault? room) := by
  induction properties generalizing definitions with
  | nil => rfl
  | cons entry rest ih =>
    obtain ⟨key, value⟩ := entry
    cases found : fragmentAt? kind key value with
    | none => simp [walk_of_none found, found, Walk.keep, ih]
    | some move =>
      cases h : move.fault? room with
      | some fault => simp [walk_of_fault found h, found, Walk.stop, h]
      | none => simp [walk_of_fits found h, found, Walk.move, h, ih]

def walked (kind : FragmentKind) (key : Text) (value : Json) : Json :=
  match fragmentAt? kind key value with
  | some move => leave kind value move.reference
  | none => value

theorem performs_walk (kind : FragmentKind) (definitions : Fields) {properties : Fields}
    (fits : (walk room kind definitions properties).fault = none) :
    (walk room kind definitions properties).Performs definitions
      (properties.filterMap fun (key, value) => fragmentAt? kind key value)
      (properties.map fun (key, value) => (key, walked kind key value)) := by
  induction properties generalizing definitions with
  | nil => exact ⟨rfl, rfl, rfl, rfl⟩
  | cons entry rest ih =>
    obtain ⟨key, value⟩ := entry
    cases found : fragmentAt? kind key value with
    | none =>
      have later := ih definitions (by simpa [walk_of_none found, Walk.keep] using fits)
      simpa [walk_of_none found, found, walked] using later.keep key value
    | some move =>
      have here : move.fault? room = none := by
        rw [fault_walk] at fits
        simp only [List.filterMap_cons, found] at fits
        exact List.findSome?_eq_none_iff.1 fits move List.mem_cons_self
      have later := ih (Entries.set move.name move.fragment definitions)
        (by simpa [walk_of_fits found here, Walk.move] using fits)
      have step := later.move key (leave kind value move.reference) (collision definitions move.name)
      simpa [walk_of_fits found here, found, walked] using step

theorem fragmentAt?_object (key : Text) (value : Json) :
    fragmentAt? .object key value = (Json.move? key value).filter (·.kind = .object) := by
  rw [Json.move?_eq]
  by_cases object : value.isNestedObject
  · simp [fragmentAt?, object, Option.filter_some]
  · cases value.itemSchema? <;> simp [fragmentAt?, object, Option.filter_some]

/-- The second walk sees references in place of nested objects, and moves nothing from them. -/
theorem fragmentAt?_arrayItem (key : Text) (value : Json) :
    fragmentAt? .arrayItem key (walked .object key value) =
      (Json.move? key value).filter (·.kind = .arrayItem) := by
  rw [Json.move?_eq]
  by_cases object : value.isNestedObject
  · simp [walked, fragmentAt?, object, leave, Move.reference, Option.filter_some,
      Json.itemSchema?_of_isReference (Json.isReference_reference _)]
  · cases h : value.itemSchema? <;> simp [walked, fragmentAt?, object, h, Option.filter_some]

theorem walked_walked (key : Text) (value : Json) :
    walked .arrayItem key (walked .object key value) = Json.flatValue key value := by
  unfold Json.flatValue
  rw [walked, fragmentAt?_arrayItem, walked, fragmentAt?_object]
  cases h : Json.move? key value with
  | none => rfl
  | some move => cases kind : move.kind <;> simp [kind, Option.filter_some]

theorem filterMap_fragmentAt?_object (properties : Fields) :
    properties.filterMap (fun (key, value) => fragmentAt? .object key value) =
      (properties.filterMap fun (key, value) => Json.move? key value).filter (·.kind = .object) := by
  simp only [List.filter_filterMap, fragmentAt?_object]

theorem filterMap_fragmentAt?_arrayItem (properties : Fields) :
    (properties.map fun (key, value) => (key, walked .object key value)).filterMap
        (fun (key, value) => fragmentAt? .arrayItem key value) =
      (properties.filterMap fun (key, value) => Json.move? key value).filter (·.kind = .arrayItem) := by
  simp only [List.filterMap_map, List.filter_filterMap, Function.comp_def, fragmentAt?_arrayItem]

theorem fault_moveAll (definitions properties : Fields) :
    (moveAll room definitions properties).fault = (Json.movesOf properties).findSome? (Move.fault? room) := by
  have first := fault_walk room .object definitions properties
  rw [filterMap_fragmentAt?_object] at first
  simp only [moveAll, Json.movesOf, List.findSome?_append, ← first]
  cases h : (walk room .object definitions properties).fault with
  | some fault => simp
  | none =>
    have second := fault_walk room .arrayItem (walk room .object definitions properties).definitions
      (walk room .object definitions properties).properties
    rw [(performs_walk .object definitions h).properties, filterMap_fragmentAt?_arrayItem] at second
    rw [← (performs_walk .object definitions h).properties] at second
    simp only [← second, Option.none_or]
    split <;> rfl

theorem performs_moveAll (definitions : Fields) {properties : Fields}
    (fits : (moveAll room definitions properties).fault = none) :
    (moveAll room definitions properties).Performs definitions (Json.movesOf properties)
      (Json.flatProperties properties) := by
  cases ho : (walk room .object definitions properties).fault with
  | some fault => simp [moveAll, ho] at fits
  | none =>
    have arrays : (walk room .arrayItem (walk room .object definitions properties).definitions
        (walk room .object definitions properties).properties).fault = none := by
      simp only [moveAll, ho] at fits
      split at fits <;> exact fits
    have first := performs_walk .object definitions ho
    have second := performs_walk .arrayItem (walk room .object definitions properties).definitions arrays
    rw [first.properties, filterMap_fragmentAt?_arrayItem, List.map_map, ← first.properties] at second
    have both := first.andThen second
    rw [filterMap_fragmentAt?_object] at both
    have flat : Json.flatProperties properties = properties.map
        ((fun (key, value) => (key, walked .arrayItem key value)) ∘
          fun (key, value) => (key, walked .object key value)) :=
      List.map_congr_left fun entry _ => by simp [walked_walked]
    have whole : moveAll room definitions properties = (walk room .object definitions properties).andThen
        (walk room .arrayItem (walk room .object definitions properties).definitions
          (walk room .object definitions properties).properties) := by
      simp [moveAll, ho, Walk.andThen, arrays]
    rw [whole, flat]
    exact both

theorem fault_replaceNested (definitions : Fields) (node : Json) :
    (replaceNested room definitions node).fault = node.moves.findSome? (Move.fault? room) := by
  cases h : node.properties? with
  | none => simp [replaceNested, Json.moves, h]
  | some properties => simp [replaceNested, Json.moves, h, fault_moveAll]

structure Replacement.Performs (done : Replacement) (start : Fields) (whole : Json) : Prop where
  definitions : done.definitions = storeAll whole.moves start
  node : done.node = whole.flattened
  stored : done.stored = whole.moves.map Move.name
  made : done.made = recordAll start whole.moves

theorem performs_replaceNested (definitions : Fields) {node : Json}
    (fits : (replaceNested room definitions node).fault = none) :
    (replaceNested room definitions node).Performs definitions node := by
  cases h : node.properties? with
  | none => constructor <;> simp [replaceNested, Json.moves, Json.flattened, h, storeAll_nil, recordAll]
  | some properties =>
    have walks : (moveAll room definitions properties).Performs definitions (Json.movesOf properties)
        (Json.flatProperties properties) := performs_moveAll definitions (by simpa [replaceNested, h] using fits)
    constructor <;> simp [replaceNested, Json.moves, Json.flattened, h, walks.definitions, walks.properties,
      walks.stored, walks.made]

theorem replaceNested_of_moves_nil (room : Room) {node : Json} (flat : node.moves = []) (definitions : Fields) :
    (replaceNested room definitions node).fault = none ∧ (replaceNested room definitions node).made = [] ∧
      (replaceNested room definitions node).definitions = definitions ∧
        (replaceNested room definitions node).node = node := by
  have fits : (replaceNested room definitions node).fault = none := by
    rw [fault_replaceNested, flat]
    rfl
  have done := performs_replaceNested definitions fits
  refine ⟨fits, ?_, ?_, ?_⟩
  · rw [done.made, flat]
    rfl
  · rw [done.definitions, flat, storeAll_nil]
  · rw [done.node, Json.flattened_of_moves_nil flat]

end Unnesting
end SchemaUnnest
