import SchemaUnnest.Unnesting.Event
import SchemaUnnest.Unnesting.Move
import SchemaUnnest.Unnesting.Room

namespace SchemaUnnest.Unnesting

structure Stored where
  definitions : Fields
  names : List Text
  outcome : Except Fault Extraction

def collision (definitions : Fields) (name : Text) : List Event :=
  if Entries.has name definitions then [.replaced name] else []

/-- Stores a fragment under its name; the last one stored wins. The record is made after that, so a refused
record leaves the fragment stored. -/
def store (room : Room) (definitions : Fields) (move : Move) : Stored :=
  if room.holds move.fragment = false then ⟨definitions, [], .error .tooDeep⟩
  else
    { definitions := Entries.set move.name move.fragment definitions
      names := [move.name]
      outcome :=
        match Extraction.create move.name (.inr move.kind) move.propertyName move.pointer
          (Entries.has move.name definitions) with
        | .ok record => .ok record
        | .error fault => .error (.record fault) }

structure Walk where
  definitions : Fields
  properties : Fields
  stored : List Text
  made : List Extraction
  events : List Event
  fault : Option Fault

namespace Walk

def keep (key : Text) (value : Json) (next : Walk) : Walk :=
  { next with
    properties := (key, value) :: next.properties
    events := .checking key :: next.events }

def move (key : Text) (value : Json) (collision : List Event) (record : Extraction) (next : Walk) : Walk :=
  { next with
    properties := (key, value) :: next.properties
    stored := record.name :: next.stored
    made := record :: next.made
    events := .checking key :: collision ++ .extracted key :: next.events }

def stop (stored : Stored) (fault : Fault) (key : Text) (collision : List Event) (properties : Fields) : Walk :=
  ⟨stored.definitions, properties, stored.names, [], .checking key :: collision, some fault⟩

def andThen (first second : Walk) : Walk :=
  { second with
    stored := first.stored ++ second.stored
    made := first.made ++ second.made
    events := first.events ++ second.events }

end Walk

def walk (room : Room) (kind : FragmentKind) (definitions : Fields) : Fields → Walk
  | [] => ⟨definitions, [], [], [], [], none⟩
  | (key, value) :: rest =>
    match fragmentAt? kind key value with
    | none => .keep key value (walk room kind definitions rest)
    | some move =>
      let stored := store room definitions move
      let collision := collision definitions move.name
      match stored.outcome with
      | .error fault => .stop stored fault key collision ((key, value) :: rest)
      | .ok record => .move key (leave kind value record.referenceNode) collision record
        (walk room kind stored.definitions rest)

structure Replacement where
  definitions : Fields
  node : Json
  stored : List Text
  made : List Extraction
  events : List Event
  fault : Option Fault

def moveAll (room : Room) (definitions properties : Fields) : Walk :=
  let objects := walk room .object definitions properties
  match objects.fault with
  | some _ => { objects with made := [] }
  | none =>
    let both := objects.andThen (walk room .arrayItem objects.definitions objects.properties)
    if both.fault.isSome then { both with made := [] } else both

/-- Flattens a node that shares nothing with the definitions. -/
def replaceNested (room : Room) (definitions : Fields) (node : Json) : Replacement :=
  match node.properties? with
  | none => ⟨definitions, node, [], [], [], none⟩
  | some properties =>
    let walk := moveAll room definitions properties
    { definitions := walk.definitions
      node := node.set Keyword.properties (.obj walk.properties)
      stored := walk.stored
      made := walk.made
      events := walk.events
      fault := walk.fault }

structure Shared where
  definitions : Fields
  records : List Extraction

namespace Shared

def replace (room : Room) (shared : Shared) (node : Json) : Replacement := replaceNested room shared.definitions node

def after (shared : Shared) (done : Replacement) : Shared := ⟨done.definitions, shared.records ++ done.made⟩

def replaceEach (room : Room) (shared : Shared) : List Json → List Replacement × Shared
  | [] => ([], shared)
  | node :: rest =>
    let done := shared.replace room node
    let (others, last) := replaceEach room (shared.after done) rest
    (done :: others, last)

end Shared
end SchemaUnnest.Unnesting
