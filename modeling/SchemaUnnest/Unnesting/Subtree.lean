import SchemaUnnest.Json.Place
import SchemaUnnest.Unnesting.Replacement

namespace SchemaUnnest.Unnesting

/-- A node at work: the trees, where the definitions and the properties are, and where each property is that
was there when the present walk began. -/
structure Site where
  trees : List Json
  definitions : Place
  properties : Place
  entries : List (Text × Place)

namespace Site

def put (site : Site) (place : Place) (key : Text) (new : Json) : Site :=
  let target := place.member key
  let follow := Place.follow target site.trees.length
  { trees := target.store site.trees new
    definitions := follow site.definitions
    properties := follow site.properties
    entries := site.entries.map fun (name, entry) => (name, follow entry) }

def keys (site : Site) : List Text :=
  match site.properties.value site.trees with
  | .obj fields => Entries.keys fields
  | _ => []

def begin (site : Site) : Site :=
  { site with entries := site.keys.map fun key => (key, site.properties.member key) }

def entry (site : Site) (key : Text) : Place :=
  (Entries.get? key site.entries).getD (site.properties.member key)

def fragment? (site : Site) (kind : FragmentKind) (key : Text) : Option Json :=
  let value := (site.entry key).value site.trees
  match kind with
  | .object => if value.isNestedObject then some ((site.properties.member key).value site.trees) else none
  | .arrayItem => value.itemSchema?

def refer (site : Site) (kind : FragmentKind) (key : Text) (reference : Json) : Site :=
  match kind with
  | .object => site.put site.properties key reference
  | .arrayItem => site.put (site.entry key) Keyword.items reference

end Site

inductive SiteFault where
  | unnesting (fault : Fault)
  | notSearchable (typeName : Text)
  | notWritable (typeName : Text)
deriving DecidableEq

def SiteFault.message : SiteFault → Text
  | .unnesting fault => fault.message
  | .notSearchable typeName => "argument of type '" ++ typeName ++ "' is not iterable"
  | .notWritable typeName =>
    if typeName = "list" then "list indices must be integers or slices, not str"
    else "'" ++ typeName ++ "' object does not support item assignment"

/-- Whether a name occurs in what stands in place of the definitions: as an element of a list, or as a part
of a text. Nothing else can be searched. -/
def occurs? (name : Text) : Json → Option Bool
  | .obj fields => some (Entries.has name fields)
  | .arr items => some (items.any (· = .str name))
  | .str text => some (Text.hasPart name text)
  | _ => none

structure Progress where
  site : Site
  made : List Extraction
  events : List Event
  fault : Option SiteFault

def faultOf (room : Room) (definitions : Json) (name : Text) (fragment : Json) : SiteFault :=
  match occurs? name definitions with
  | none => .notSearchable definitions.typeName
  | some _ =>
    if room.holds fragment then .notWritable definitions.typeName else .unnesting .tooDeep

def walkSite (room : Room) (kind : FragmentKind) : List Text → Site → Progress
  | [], site => ⟨site, [], [], none⟩
  | key :: rest, site =>
    match site.fragment? kind key with
    | none =>
      let next := walkSite room kind rest site
      { next with events := .checking key :: next.events }
    | some fragment =>
      let move : Move := ⟨kind, key, fragment⟩
      let name := move.name
      match site.definitions.value site.trees with
      | .obj definitions =>
        let stored := store room definitions move
        let collision := collision definitions name
        let site := if stored.names = [] then site else site.put site.definitions name fragment
        match stored.outcome with
        | .error fault => ⟨site, [], .checking key :: collision, some (.unnesting fault)⟩
        | .ok record =>
          let next := walkSite room kind rest (site.refer kind key record.referenceNode)
          { next with
            made := record :: next.made
            events := .checking key :: collision ++ .extracted key :: next.events }
      | other =>
        let collision := if (occurs? name other).getD false then [Event.replaced name] else []
        ⟨site, [], .checking key :: collision, some (faultOf room other name fragment)⟩

structure Flattened where
  root : Json
  made : List Extraction
  events : List Event
  fault : Option SiteFault

def flattenSite (room : Room) (site : Site) : Progress :=
  let objects := walkSite room .object site.keys site.begin
  match objects.fault with
  | some _ => { objects with made := [] }
  | none =>
    let arrays := walkSite room .arrayItem objects.site.keys objects.site.begin
    { arrays with
      made := if arrays.fault.isSome then [] else objects.made ++ arrays.made
      events := objects.events ++ arrays.events }

def flattenAt (room : Room) (root : Json) (definitionsPath nodePath : List Text) : Flattened :=
  if !((root.at? nodePath).getD .null).hasProperties then ⟨root, [], [], none⟩
  else
    let place : Place := ⟨0, nodePath⟩
    let progress := flattenSite room ⟨[root], ⟨0, definitionsPath⟩, place.member Keyword.properties, []⟩
    ⟨progress.site.trees.headD root, progress.made, progress.events, progress.fault⟩

end SchemaUnnest.Unnesting
