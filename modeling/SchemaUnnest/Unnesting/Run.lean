import SchemaUnnest.Unnesting.Weight

namespace SchemaUnnest.Unnesting

def pending (definitions : Fields) : List Text :=
  (definitions.filter fun (_, node) => node.holdsNested).map Prod.fst

def isPending (definitions : Fields) (name : Text) : Bool :=
  (Entries.get? name definitions).any Json.holdsNested

/-- Flattens the node of a definition. It keeps its place, unless a fragment of its own has been stored under
its name: then that fragment is the definition. -/
def flattenEntry (room : Room) (definitions : Fields) (name : Text) : Replacement :=
  let r := replaceNested room definitions ((Entries.get? name definitions).getD .null)
  if name ∈ r.stored then r else { r with definitions := Entries.set name r.node r.definitions }

variable {room : Room}

theorem isPending_iff {definitions : Fields} {name : Text} :
    isPending definitions name ↔ ∃ node, Entries.get? name definitions = some node ∧ node.holdsNested :=
  Option.any_eq_true _ _

theorem fault_flattenEntry {definitions : Fields} {name : Text} {node : Json}
    (found : Entries.get? name definitions = some node) :
    (flattenEntry room definitions name).fault = node.moves.findSome? (Move.fault? room) := by
  simp only [flattenEntry, found, Option.getD_some]
  split <;> exact fault_replaceNested definitions node

/-- Whether the definition keeps its place or a fragment of its own takes it: the definitions are what they
would be had the node been flattened before any fragment was stored. -/
theorem definitions_flattenEntry {definitions : Fields} {name : Text} {node : Json}
    (found : Entries.get? name definitions = some node)
    (fits : (flattenEntry room definitions name).fault = none) :
    (flattenEntry room definitions name).definitions = passed name node definitions := by
  rw [fault_flattenEntry found, ← fault_replaceNested definitions] at fits
  have done := performs_replaceNested definitions fits
  have held : Entries.has name definitions := by simp [Entries.has, found]
  simp only [flattenEntry, found, Option.getD_some, done.stored, ← keys_entries]
  split
  · rename_i mine
    rw [done.definitions, passed, storeAll, storeAll, Entries.setAll_set mine held]
  · rename_i other
    simp only [done.definitions, done.node, passed, storeAll, Entries.set_setAll other held]

theorem made_flattenEntry {definitions : Fields} {name : Text} {node : Json}
    (found : Entries.get? name definitions = some node)
    (fits : (flattenEntry room definitions name).fault = none) :
    (flattenEntry room definitions name).made = recordAll definitions node.moves := by
  rw [fault_flattenEntry found, ← fault_replaceNested definitions] at fits
  simp only [flattenEntry, found, Option.getD_some]
  split <;> exact (performs_replaceNested definitions fits).made

def weightLeft (definitions : Fields) : Nat := Entries.total (Json.weight fun _ => true) definitions

theorem weightLeft_flattenEntry_lt {definitions : Fields} {name : Text} (h : isPending definitions name)
    (fits : (flattenEntry room definitions name).fault = none) :
    weightLeft (flattenEntry room definitions name).definitions < weightLeft definitions := by
  obtain ⟨node, found, unfinished⟩ := isPending_iff.1 h
  have step := total_passed_le (fun _ => true) found
  have some := List.length_pos_iff.2 (Json.moves_ne_nil unfinished)
  rw [definitions_flattenEntry found fits]
  simp only [List.countP_true, weightLeft] at step ⊢
  omega

structure Sweep where
  definitions : Fields
  made : List Extraction
  passes : Nat
  events : List Event
  fault : Option Fault

/-- Passes over the definitions, of which `passes` have been made already. An entry behind another of the
same name is none of the definitions; where names are distinct there is no such entry. -/
def sweep (room : Room) (passes : Nat) (definitions : Fields) : Sweep :=
  match pending definitions with
  | [] => ⟨definitions, [], passes, [], none⟩
  | name :: more =>
    if _held : isPending definitions name then
      let step := flattenEntry room definitions name
      let events := .pass (passes + 1) (more.length + 1) name :: step.events
      match hf : step.fault with
      | some fault => ⟨step.definitions, [], passes + 1, events, some fault⟩
      | none =>
        let next := sweep room (passes + 1) step.definitions
        { next with made := step.made ++ next.made, events := events ++ next.events }
    else ⟨definitions, [], passes, [], none⟩
termination_by weightLeft definitions
decreasing_by exact weightLeft_flattenEntry_lt _held hf

theorem isPending_of_mem_pending {definitions : Fields} (distinct : (Entries.keys definitions).Nodup)
    {name : Text} (member : name ∈ pending definitions) : isPending definitions name := by
  obtain ⟨⟨key, node⟩, kept, rfl⟩ := List.mem_map.1 member
  obtain ⟨held, unfinished⟩ := List.mem_filter.1 kept
  have found : Entries.get? key definitions = some node := Entries.get?_of_mem distinct held
  simpa [isPending, found] using unfinished

/-- A schema after unnesting, and the account of it. When it failed, the root is as far as it got and the
account does not count. -/
structure Run where
  root : Json
  made : List Extraction
  passes : Nat
  definitionsCreated : Bool
  events : List Event
  fault : Option Fault

def Run.names (run : Run) : List Text := run.made.map (·.name)

def unnestWith (room : Room) (root : Json) (definitions : Fields) : Run :=
  let first := replaceNested room definitions root
  match first.fault with
  | some fault =>
    { root := first.node.set Keyword.definitions (.obj first.definitions)
      made := []
      passes := 0
      definitionsCreated := false
      events := first.events
      fault := some fault }
  | none =>
    let rest := sweep room 0 first.definitions
    { root := first.node.set Keyword.definitions (.obj rest.definitions)
      made := first.made ++ rest.made
      passes := rest.passes
      definitionsCreated := false
      events := first.events ++ rest.events
      fault := rest.fault }

/-- Unnests a schema. Missing definitions are created; definitions that are no object leave the schema
unchanged. -/
def unnest (room : Room) (root : Json) : Run :=
  match root.get? Keyword.definitions with
  | none =>
    let run := unnestWith room (root.set Keyword.definitions (.obj [])) []
    { run with definitionsCreated := true, events := .noDefinitions :: run.events }
  | some (.obj definitions) => unnestWith room root definitions
  | some other =>
    { root := root
      made := []
      passes := 0
      definitionsCreated := false
      events := [.definitionsUnusable other.typeName]
      fault := none }

end SchemaUnnest.Unnesting
