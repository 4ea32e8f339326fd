import SchemaUnnest.Proofs.Ending
import SchemaUnnest.Proofs.Sharing

namespace SchemaUnnest

open Unnesting

structure Json.HoldsUnnamed (node : Json) (before : Fields) (value : Json) (after : Fields) : Prop where
  properties : node.properties? = some (before ++ ([], value) :: after)
  nested : value.isNestedObject

namespace Unnesting

variable {room : Room}

def Copyable (room : Room) (properties : Fields) : Prop :=
  ∀ key value, (key, value) ∈ properties → value.isNestedObject → room.holds value

instance (room : Room) (properties : Fields) : Decidable (Copyable room properties) :=
  decidable_of_iff (∀ entry ∈ properties, entry.2.isNestedObject → room.holds entry.2) Prod.forall

def referred (properties : Fields) : Fields :=
  properties.map fun (key, value) =>
    (key, if value.isNestedObject then Json.reference (Keyword.definitionsPointer ++ key) else value)

def objectMoves (properties : Fields) : List Move :=
  properties.filterMap fun (key, value) => fragmentAt? .object key value

theorem mem_objectMoves {properties : Fields} {move : Move} :
    move ∈ objectMoves properties ↔
      ∃ key value, (key, value) ∈ properties ∧ value.isNestedObject ∧ move = ⟨.object, key, value⟩ := by
  simp only [objectMoves, List.mem_filterMap, fragmentAt?]
  constructor
  · rintro ⟨⟨key, value⟩, member, found⟩
    split at found
    · rename_i object
      exact ⟨key, value, member, object, (Option.some.inj found).symm⟩
    · cases found
  · rintro ⟨key, value, member, object, rfl⟩
    exact ⟨(key, value), member, by simp [object]⟩

theorem entries_objectMoves (properties : Fields) :
    (objectMoves properties).map Move.entry = properties.filter fun (_, value) => value.isNestedObject := by
  rw [objectMoves, filterMap_fragmentAt?_object, objects_eq, List.map_map]
  exact List.map_id _

theorem keys_referred (properties : Fields) : Entries.keys (referred properties) = Entries.keys properties := by
  simp [Entries.keys, referred, Function.comp_def]

theorem isNestedObject_of_mem_referred {properties : Fields} {key : Text} {value : Json}
    (member : (key, value) ∈ referred properties) : value.isNestedObject = false := by
  obtain ⟨⟨name, old⟩, -, same⟩ := List.mem_map.1 member
  cases same
  split
  · exact Json.isNestedObject_of_isReference (Json.isReference_reference _)
  · rename_i plain
    simpa using plain

theorem objectMoves_referred (properties : Fields) : objectMoves (referred properties) = [] := by
  rw [List.eq_nil_iff_forall_not_mem]
  intro move member
  obtain ⟨key, value, held, object, -⟩ := mem_objectMoves.1 member
  rw [isNestedObject_of_mem_referred held] at object
  cases object

theorem referred_referred (properties : Fields) : referred (referred properties) = referred properties := by
  refine (List.map_congr_left ?_).trans (List.map_id _)
  rintro ⟨key, value⟩ member
  simp [isNestedObject_of_mem_referred member]

structure Walk.StopsAt (room : Room) (walk : Walk) (start : Fields) (moves : List Move) (last : Move)
    (left : Fields) : Prop where
  definitions : walk.definitions = (store room (storeAll moves start) last).definitions
  properties : walk.properties = left
  fault : walk.fault = last.fault? room

theorem Walk.StopsAt.keep {walk : Walk} {definitions left : Fields} {moves : List Move} {last : Move}
    (done : walk.StopsAt room definitions moves last left) (key : Text) (value : Json) :
    (walk.keep key value).StopsAt room definitions moves last ((key, value) :: left) where
  definitions := done.definitions
  properties := by simp [Walk.keep, done.properties]
  fault := done.fault

theorem Walk.StopsAt.move {walk : Walk} {definitions left : Fields} {moves : List Move} {move last : Move}
    (done : walk.StopsAt room (Entries.set move.name move.fragment definitions) moves last left) (key : Text)
    (value : Json)
    (collision : List Event) (record : Extraction) :
    (walk.move key value collision record).StopsAt room definitions (move :: moves) last ((key, value) :: left) where
  definitions := done.definitions
  properties := by simp [Walk.move, done.properties]
  fault := done.fault

theorem stopsAt_walk (definitions : Fields) {before : Fields} {key : Text} {value : Json} (after : Fields)
    {fault : Fault} (fits : ∀ move ∈ objectMoves before, move.fault? room = none) (nested : value.isNestedObject)
    (stops : Move.fault? room ⟨.object, key, value⟩ = some fault) :
    (walk room .object definitions (before ++ (key, value) :: after)).StopsAt room definitions (objectMoves before)
      ⟨.object, key, value⟩ (referred before ++ (key, value) :: after) := by
  induction before generalizing definitions with
  | nil =>
    have found : fragmentAt? .object key value = some ⟨.object, key, value⟩ := by simp [fragmentAt?, nested]
    rw [List.nil_append, walk_of_fault found stops]
    exact ⟨rfl, rfl, stops.symm⟩
  | cons entry rest ih =>
    obtain ⟨name, other⟩ := entry
    rw [List.cons_append]
    by_cases object : other.isNestedObject
    · have found : fragmentAt? .object name other = some ⟨.object, name, other⟩ := by simp [fragmentAt?, object]
      have moves : objectMoves ((name, other) :: rest) = ⟨.object, name, other⟩ :: objectMoves rest := by
        simp [objectMoves, found]
      obtain ⟨here, later⟩ := List.forall_mem_cons.1 (moves ▸ fits)
      have left : referred ((name, other) :: rest) =
          (name, leave .object other (Move.reference ⟨.object, name, other⟩)) :: referred rest := by
        simp [referred, object, leave, Move.reference, Move.pointer, Move.name, nameFor]
      rw [walk_of_fits found here, moves, left]
      exact (ih (Entries.set name other definitions) later).move _ _ _ _
    · have found : fragmentAt? .object name other = none := by simp [fragmentAt?, object]
      have moves : objectMoves ((name, other) :: rest) = objectMoves rest := by simp [objectMoves, found]
      have left : referred ((name, other) :: rest) = (name, other) :: referred rest := by simp [referred, object]
      rw [walk_of_none found, moves, left]
      exact (ih definitions (moves ▸ fits)).keep name other

theorem replaceNested_of_stopsAt {definitions : Fields} {node : Json} {properties left : Fields} {moves : List Move}
    {last : Move} {fault : Fault} (held : node.properties? = some properties)
    (done : (walk room .object definitions properties).StopsAt room definitions moves last left)
    (stops : last.fault? room = some fault) :
    (replaceNested room definitions node).definitions = (store room (storeAll moves definitions) last).definitions ∧
      (replaceNested room definitions node).node = node.set Keyword.properties (.obj left) ∧
      (replaceNested room definitions node).fault = some fault ∧ (replaceNested room definitions node).made = [] := by
  have reason : (walk room .object definitions properties).fault = some fault := done.fault.trans stops
  simp [replaceNested, held, moveAll, reason, done.definitions, done.properties]

theorem fault?_object {key : Text} {value : Json} (named : key ≠ []) (shallow : room.holds value) :
    Move.fault? room ⟨.object, key, value⟩ = none := by
  simp [Move.fault?, Move.name, nameFor, named, shallow]

theorem fault?_unnamed {value : Json} (shallow : room.holds value) :
    Move.fault? room ⟨.object, [], value⟩ = some (.record .emptyName) := by
  simp [Move.fault?, Move.name, nameFor, shallow]

variable {node value : Json} {before after : Fields}

theorem fits_before (absent : [] ∉ Entries.keys before) (copyable : Copyable room before) :
    ∀ move ∈ objectMoves before, move.fault? room = none := by
  intro move member
  obtain ⟨key, other, held, object, rfl⟩ := mem_objectMoves.1 member
  have named : key ≠ [] := by
    rintro rfl
    exact absent (List.mem_map_of_mem held)
  exact fault?_object named (copyable key other held object)

theorem copyable_append {properties more : Fields} :
    Copyable room (properties ++ more) ↔ Copyable room properties ∧ Copyable room more := by
  simp only [Copyable, List.mem_append, or_imp, forall_and]

theorem copyable_single {key : Text} (nested : value.isNestedObject) :
    Copyable room [(key, value)] ↔ room.holds value := by
  simp [Copyable, nested]

/-- What is left when the nested object under the empty key has stopped the work. -/
theorem replaceNested_unnamed (definitions : Fields) (unnamed : node.HoldsUnnamed before value after)
    (absent : [] ∉ Entries.keys before) (copyable : Copyable room (before ++ [([], value)])) :
    (replaceNested room definitions node).definitions =
        Entries.set [] value (storeAll (objectMoves before) definitions) ∧
      (replaceNested room definitions node).node =
        node.set Keyword.properties (.obj (referred before ++ ([], value) :: after)) ∧
      (replaceNested room definitions node).fault = some (.record .emptyName) ∧
      (replaceNested room definitions node).made = [] := by
  obtain ⟨first, here⟩ := copyable_append.1 copyable
  have shallow := (copyable_single unnamed.nested).1 here
  have stops := fault?_unnamed shallow
  have stored : (store room (storeAll (objectMoves before) definitions) ⟨.object, [], value⟩).definitions =
      Entries.set [] value (storeAll (objectMoves before) definitions) := by
    simp [store, shallow, Move.name, nameFor]
  rw [← stored]
  exact replaceNested_of_stopsAt unnamed.properties
    (stopsAt_walk definitions after (fits_before absent first) unnamed.nested stops) stops

theorem moves_unnamed (unnamed : node.HoldsUnnamed before value after) :
    ∃ rest, node.moves = objectMoves before ++ ⟨.object, [], value⟩ :: rest := by
  have objects : objectMoves (before ++ ([], value) :: after) =
      objectMoves before ++ ⟨.object, [], value⟩ :: objectMoves after := by
    simp [objectMoves, fragmentAt?, unnamed.nested]
  rw [Json.moves_of_properties? unnamed.properties, Json.movesOf, ← filterMap_fragmentAt?_object, ← objectMoves,
    objects,
    List.append_assoc, List.cons_append]
  exact ⟨_, rfl⟩

theorem fault?_of_named {move : Move} (named : move.name ≠ []) {fault : Fault} (stops : move.fault? room = some fault) :
    fault = .tooDeep ∧ room.holds move.fragment = false := by
  rcases Move.fault?_eq_some stops with deep | empty
  · exact deep
  · exact absurd empty named

/-- Only a nested object under the empty key goes without a name. -/
theorem mem_properties_of_unnamed {move : Move} (member : move ∈ node.moves) (empty : move.name = []) :
    ∃ properties value, node.properties? = some properties ∧ ([], value) ∈ properties ∧ value.isNestedObject ∧
      move = ⟨.object, [], value⟩ := by
  obtain ⟨properties, hp, mine⟩ := Json.properties?_of_mem_moves member
  obtain ⟨key, value, held, found⟩ := Json.mem_movesOf.1 mine
  rcases Json.move?_eq_some found with ⟨object, rfl⟩ | ⟨-, item, -, rfl⟩
  · have key : key = [] := empty
    exact ⟨properties, value, hp, key ▸ held, object, by rw [key]⟩
  · have ending : Keyword.itemEnding ≠ [] := by decide
    exact absurd (List.append_eq_nil_iff.1 empty).2 ending

theorem absent_before (distinct : ∀ properties, node.properties? = some properties → (Entries.keys properties).Nodup)
    (unnamed : node.HoldsUnnamed before value after) : [] ∉ Entries.keys before ∧ (Entries.keys before).Nodup := by
  have apart := distinct _ unnamed.properties
  rw [Entries.keys, List.map_append, List.nodup_append] at apart
  obtain ⟨first, -, others⟩ := apart
  exact ⟨fun member => others [] member [] List.mem_cons_self rfl, first⟩

theorem copyable_before (absent : [] ∉ Entries.keys before)
    (fits : (objectMoves before).findSome? (Move.fault? room) ≠ some .tooDeep) : Copyable room before := by
  intro key other held object
  by_contra deep
  have member : ⟨.object, key, other⟩ ∈ objectMoves before := mem_objectMoves.2 ⟨key, other, held, object, rfl⟩
  have stops : Move.fault? room ⟨.object, key, other⟩ = some .tooDeep := by simp [Move.fault?, deep]
  cases reason : (objectMoves before).findSome? (Move.fault? room) with
  | none =>
    rw [List.findSome?_eq_none_iff.1 reason _ member] at stops
    cases stops
  | some fault =>
    obtain ⟨move, earlier, first⟩ := List.exists_of_findSome?_eq_some reason
    obtain ⟨name, value, here, -, rfl⟩ := mem_objectMoves.1 earlier
    have named : Move.name ⟨.object, name, value⟩ ≠ [] := by
      intro empty
      have name : name = [] := empty
      exact absent (name ▸ List.mem_map_of_mem here)
    rw [reason, (fault?_of_named named first).1] at fits
    exact fits rfl

theorem fault_emptyName_iff (definitions : Fields)
    (distinct : ∀ properties, node.properties? = some properties → (Entries.keys properties).Nodup) :
    (replaceNested room definitions node).fault = some (.record .emptyName) ↔
      ∃ before value after, node.HoldsUnnamed before value after ∧ Copyable room (before ++ [([], value)]) := by
  constructor
  · intro stops
    rw [fault_replaceNested] at stops
    obtain ⟨move, member, reason⟩ := List.exists_of_findSome?_eq_some stops
    have empty : move.name = [] := by
      by_contra named
      cases (fault?_of_named named reason).1
    obtain ⟨properties, value, hp, held, object, rfl⟩ := mem_properties_of_unnamed member empty
    obtain ⟨before, after, rfl⟩ := List.append_of_mem held
    have unnamed : node.HoldsUnnamed before value after := ⟨hp, object⟩
    obtain ⟨absent, -⟩ := absent_before distinct unnamed
    obtain ⟨rest, moves⟩ := moves_unnamed unnamed
    have shallow : room.holds value := by
      by_contra deep
      rw [Bool.not_eq_true] at deep
      simp [Move.fault?, deep] at reason
    refine ⟨before, value, after, unnamed, copyable_append.2 ⟨?_, (copyable_single object).2 shallow⟩⟩
    apply copyable_before absent
    intro first
    simp [moves, List.findSome?_append, first] at stops
  · rintro ⟨before, value, after, unnamed, copyable⟩
    exact (replaceNested_unnamed definitions unnamed (absent_before distinct unnamed).1 copyable).2.2.1

theorem fault_tooDeep_iff (definitions : Fields) (node : Json) :
    (replaceNested room definitions node).fault = some .tooDeep ↔
      ∃ earlier move later, node.moves = earlier ++ move :: later ∧ room.holds move.fragment = false ∧
        ∀ other ∈ earlier, other.name ≠ [] := by
  rw [fault_replaceNested]
  constructor
  · intro stops
    obtain ⟨earlier, move, later, moves, reason, fits⟩ := List.findSome?_eq_some_iff.1 stops
    refine ⟨earlier, move, later, moves, ?_, ?_⟩
    · by_contra shallow
      simp [Move.fault?, shallow] at reason
    · intro other member empty
      have fit := fits other member
      simp [Move.fault?, empty, Move.holds_of_fits fit] at fit
  · rintro ⟨earlier, move, later, moves, deep, named⟩
    rw [moves, List.findSome?_append]
    cases first : earlier.findSome? (Move.fault? room) with
    | none => simp [Move.fault?, deep]
    | some fault =>
      obtain ⟨other, member, reason⟩ := List.exists_of_findSome?_eq_some first
      rw [(fault?_of_named (named other member) reason).1, Option.some_or]

/-- What is left of a node, of the definitions and of the records when the nested object under the empty key has
stopped the work: all that is there to be moved is there still, and trying again changes nothing. -/
structure Shared.StopsUnnamed (room : Room) (shared : Shared) (failed : Replacement) (node : Json)
    (before : Fields) (value : Json)
    (after : Fields) : Prop where
  left : failed.node = node.set Keyword.properties (.obj (referred before ++ ([], value) :: after))
  stored : ∀ key other, (key, other) ∈ before → other.isNestedObject →
    Entries.get? key failed.definitions = some other
  inline : Entries.get? [] failed.definitions = some value
  others : ∀ name, name ≠ [] → (∀ other, (name, other) ∈ before → other.isNestedObject = false) →
    Entries.get? name failed.definitions = Entries.get? name shared.definitions
  records : (shared.after failed).records = shared.records
  kept : ∀ move ∈ node.moves, move ∈ failed.node.moves ∨ Entries.get? move.name failed.definitions = some move.fragment
  again : ((shared.after failed).replace room failed.node).fault = some (.record .emptyName) ∧
    ((shared.after failed).replace room failed.node).node = failed.node ∧
    ((shared.after failed).replace room failed.node).definitions = failed.definitions ∧
    ((shared.after failed).replace room failed.node).made = []

theorem copyable_referred (properties : Fields) : Copyable room (referred properties) := by
  intro key value member object
  rw [isNestedObject_of_mem_referred member] at object
  cases object

/-- The node is as it was found, so the work stops where it stopped before. -/
theorem replaceNested_again {definitions : Fields} (unnamed : node.HoldsUnnamed (referred before) value after)
    (absent : [] ∉ Entries.keys before) (shallow : room.holds value)
    (stored : Entries.get? [] definitions = some value) :
    (replaceNested room definitions node).fault = some (.record .emptyName) ∧
      (replaceNested room definitions node).node = node ∧
      (replaceNested room definitions node).definitions = definitions ∧
        (replaceNested room definitions node).made = [] := by
  have copyable : Copyable room (referred before ++ [([], value)]) :=
    copyable_append.2 ⟨copyable_referred before, (copyable_single unnamed.nested).2 shallow⟩
  obtain ⟨kept, left, fault, made⟩ :=
    replaceNested_unnamed definitions unnamed (keys_referred before ▸ absent) copyable
  refine ⟨fault, ?_, ?_, made⟩
  · rw [left, referred_referred, Json.set_of_get? (Json.properties?_eq_some.1 unnamed.properties)]
  · rw [kept, objectMoves_referred, storeAll_nil, Entries.set_of_get? stored]

theorem stopsUnnamed_replace (shared : Shared)
    (distinct : ∀ properties, node.properties? = some properties → (Entries.keys properties).Nodup)
    (unnamed : node.HoldsUnnamed before value after) (copyable : Copyable room (before ++ [([], value)])) :
    shared.StopsUnnamed room (shared.replace room node) node before value after := by
  obtain ⟨absent, apart⟩ := absent_before distinct unnamed
  obtain ⟨definitions, left, -, made⟩ := replaceNested_unnamed shared.definitions unnamed absent copyable
  change (shared.replace room node).definitions = _ at definitions
  change (shared.replace room node).node = _ at left
  change (shared.replace room node).made = _ at made
  have found : ∀ name, Entries.get? name (shared.replace room node).definitions =
      if [] = name then some value
      else (Entries.last? name (before.filter fun (_, value) => value.isNestedObject)).or
        (Entries.get? name shared.definitions) := by
    intro name
    rw [definitions, Entries.get?_set, get?_storeAll, entries_objectMoves]
  have inline : Entries.get? [] (shared.replace room node).definitions = some value := by rw [found, if_pos rfl]
  have stored : ∀ key other, (key, other) ∈ before → other.isNestedObject →
      Entries.get? key (shared.replace room node).definitions = some other := by
    intro key other member object
    have named : [] ≠ key := by
      rintro rfl
      exact absent (List.mem_map_of_mem member)
    have objects : (Entries.keys (before.filter fun (_, value) => value.isNestedObject)).Nodup :=
      apart.sublist (List.filter_sublist.map Prod.fst)
    rw [found, if_neg named, Entries.last?_of_mem objects (List.mem_filter.2 ⟨member, object⟩), Option.some_or]
  have properties : (shared.replace room node).node.properties? = some (referred before ++ ([], value) :: after) := by
    have object := Json.isObject_of_get? (Json.properties?_eq_some.1 unnamed.properties)
    rw [left, Json.properties?_eq_some, Json.get?_set object, if_pos rfl]
  refine ⟨left, stored, inline, ?_, ?_, ?_, ?_⟩
  · intro name named plain
    have unmoved : name ∉ Entries.keys (before.filter fun (_, value) => value.isNestedObject) := by
      intro member
      obtain ⟨⟨key, other⟩, kept, rfl⟩ := List.mem_map.1 member
      obtain ⟨held, object⟩ := List.mem_filter.1 kept
      exact absurd object (by simp [plain other held])
    rw [found, if_neg (Ne.symm named), Entries.last?_eq_none_iff.2 unmoved, Option.none_or]
  · rw [Shared.after, made, List.append_nil]
  · intro move member
    rw [Json.moves_of_properties? unnamed.properties] at member
    rw [Json.moves_of_properties? properties]
    obtain ⟨key, other, held, given⟩ := Json.mem_movesOf.1 member
    rcases List.mem_append.1 held with first | later
    · by_cases object : other.isNestedObject
      · rw [Json.move?_eq, if_pos object, Option.some.injEq] at given
        subst given
        exact Or.inr (stored key other first object)
      · have same : (key, other) ∈ referred before := List.mem_map.2 ⟨(key, other), first, by simp [object]⟩
        exact Or.inl (Json.mem_movesOf.2 ⟨key, other, List.mem_append_left _ same, given⟩)
    · exact Or.inl (Json.mem_movesOf.2 ⟨key, other, List.mem_append_right _ later, given⟩)
  · have shallow := (copyable_single unnamed.nested).1 (copyable_append.1 copyable).2
    exact replaceNested_again ⟨properties, unnamed.nested⟩ absent shallow inline

theorem fault_replaceNested_cases {definitions : Fields} {fault : Fault}
    (stops : (replaceNested room definitions node).fault = some fault) :
    fault = .record .emptyName ∨ fault = .tooDeep := by
  rw [fault_replaceNested] at stops
  obtain ⟨move, -, reason⟩ := List.exists_of_findSome?_eq_some stops
  unfold Move.fault? at reason
  split at reason
  · exact Or.inr (Option.some.inj reason).symm
  · split at reason
    · exact Or.inl (Option.some.inj reason).symm
    · cases reason

/-- Flattening a node fails on a nested object under the empty key, unless a fragment that is too deep to be copied
comes first; there is no other way to fail. -/
theorem replacement_fails_iff (shared : Shared) {node : Json}
    (distinct : ∀ properties, node.properties? = some properties → (Entries.keys properties).Nodup) :
    ((shared.replace room node).fault = some (.record .emptyName) ↔
        ∃ before value after, node.HoldsUnnamed before value after ∧ Copyable room (before ++ [([], value)])) ∧
      ((shared.replace room node).fault = some .tooDeep ↔
        ∃ earlier move later, node.moves = earlier ++ move :: later ∧ room.holds move.fragment = false ∧
          ∀ other ∈ earlier, other.name ≠ []) ∧
      (∀ fault, (shared.replace room node).fault = some fault → fault = .record .emptyName ∨ fault = .tooDeep) ∧
      ∀ before value after, node.HoldsUnnamed before value after → Copyable room (before ++ [([], value)]) →
        shared.StopsUnnamed room (shared.replace room node) node before value after :=
  ⟨fault_emptyName_iff shared.definitions distinct, fault_tooDeep_iff shared.definitions node,
    fun _ => fault_replaceNested_cases, fun _ _ _ => stopsUnnamed_replace shared distinct⟩

def unnamedBefore : Fields := [("a", .obj [("properties", .obj [])]), ("b", .obj [("items", .obj [])])]

def unnamedAfter : Fields := [("c", .obj [("properties", .obj [])])]

def unnamedValue : Json := .obj [("properties", .obj []), ("items", .obj [])]

def unnamedNode : Json :=
  .obj [("title", .str "T"), ("properties", .obj (unnamedBefore ++ ([], unnamedValue) :: unnamedAfter))]

def unnamedStart : Shared := ⟨[("a", .null), ("c", .null)], [⟨"c", .object, "c", "#/definitions/c", false⟩]⟩

theorem replacement_fails_iff_unnamedNode :
    (∀ properties, unnamedNode.properties? = some properties → (Entries.keys properties).Nodup) ∧
      unnamedNode.HoldsUnnamed unnamedBefore unnamedValue unnamedAfter ∧
      Copyable (.ofDepth 100) (unnamedBefore ++ [([], unnamedValue)]) ∧
      (unnamedStart.replace (.ofDepth 100) unnamedNode).fault = some (.record .emptyName) ∧
      unnamedStart.StopsUnnamed (.ofDepth 100) (unnamedStart.replace (.ofDepth 100) unnamedNode) unnamedNode
        unnamedBefore unnamedValue unnamedAfter := by
  have distinct : ∀ properties, unnamedNode.properties? = some properties → (Entries.keys properties).Nodup := by
    intro properties held
    cases held
    decide
  have unnamed : unnamedNode.HoldsUnnamed unnamedBefore unnamedValue unnamedAfter := ⟨by decide, by decide⟩
  have copyable : Copyable (.ofDepth 100) (unnamedBefore ++ [([], unnamedValue)]) := by decide
  obtain ⟨fails, -, -, stops⟩ := replacement_fails_iff unnamedStart distinct
  exact ⟨distinct, unnamed, copyable, fails.2 ⟨_, _, _, unnamed, copyable⟩, stops _ _ _ unnamed copyable⟩

/-- A fragment that is too deep fails where every property has a name. -/
theorem replaceNested_tallRoot :
    (∀ properties, tallRoot.properties? = some properties → ¬ Entries.has [] properties) ∧
      ∀ limit < 600, (replaceNested (.ofDepth limit) [] tallRoot).fault = some .tooDeep := by
  constructor
  · intro properties held
    cases held
    decide
  · intro limit low
    rw [fault_replaceNested, moves_tallRoot]
    simp [Move.fault?, holds_tallFragment low]

end Unnesting
end SchemaUnnest
