import SchemaUnnest.Unnesting.Moves
import SchemaUnnest.Unnesting.Subtree

namespace SchemaUnnest

namespace Place

theorem follow_of_not_below {gone place : Place} (away : ¬ gone.path <+: place.path) (tree : Nat) :
    gone.follow tree place = place := by
  simp [follow, List.isPrefixOf_iff_prefix, away]

theorem value_of_first {trees : List Json} {tree : Json} (first : trees[0]? = some tree) (path : List Text) :
    Place.value trees ⟨0, path⟩ = (tree.at? path).getD .null := by
  simp [value, first]

theorem store_first {trees : List Json} {tree : Json} (first : trees[0]? = some tree) (path : List Text) (new : Json) :
    (Place.store trees ⟨0, path⟩ new)[0]? = some (tree.setAt path new) := by
  cases trees with
  | nil => cases first
  | cons head others =>
    cases first
    simp [store]

end Place

namespace Unnesting

/-- A tree that has definitions at one path and properties at another, neither of them inside the other. -/
structure Ground where
  root : Json
  definitionsPath : List Text
  propertiesPath : List Text
  apart : Apart definitionsPath propertiesPath
  definitionsHeld : (root.at? definitionsPath).isSome
  propertiesHeld : (root.at? propertiesPath).isSome

namespace Ground

def refit (ground : Ground) (definitions properties : Fields) : Json :=
  (ground.root.modifyAt (fun _ => .obj properties) ground.propertiesPath).modifyAt (fun _ => .obj definitions)
    ground.definitionsPath

variable (ground : Ground) (definitions properties : Fields)

theorem at?_definitions :
    (ground.refit definitions properties).at? ground.definitionsPath = some (.obj definitions) := by
  obtain ⟨old, found⟩ := Option.isSome_iff_exists.1 ground.definitionsHeld
  rw [← Json.at?_modifyAt_of_apart ground.apart.symm (fun _ => .obj properties)] at found
  exact Json.at?_modifyAt found _

theorem at?_properties :
    (ground.refit definitions properties).at? ground.propertiesPath = some (.obj properties) := by
  obtain ⟨old, found⟩ := Option.isSome_iff_exists.1 ground.propertiesHeld
  rw [refit, Json.at?_modifyAt_of_apart ground.apart]
  exact Json.at?_modifyAt found _

theorem setAt_definitions (name : Text) (new : Json) :
    (ground.refit definitions properties).setAt (ground.definitionsPath ++ [name]) new =
      ground.refit (Entries.set name new definitions) properties := by
  rw [refit, Json.setAt_append, Json.modifyAt_modifyAt]
  rfl

theorem modifyAt_properties {change : Json → Json} {after : Fields} (changed : change (.obj properties) = .obj after) :
    (ground.refit definitions properties).modifyAt change ground.propertiesPath = ground.refit definitions after := by
  have composed : change ∘ (fun _ => Json.obj properties) = fun _ : Json => Json.obj after := funext fun _ => changed
  rw [refit, Json.modifyAt_comm ground.apart, Json.modifyAt_modifyAt, composed, refit]

end Ground

/-- The definitions, the properties, and each property that lies ahead are in the first tree still. -/
structure Site.Shows (site : Site) (ground : Ground) (definitions properties : Fields) (ahead : List Text) : Prop where
  tree : site.trees[0]? = some (ground.refit definitions properties)
  definitionsAt : site.definitions = ⟨0, ground.definitionsPath⟩
  propertiesAt : site.properties = ⟨0, ground.propertiesPath⟩
  entryAt : ∀ key ∈ ahead, site.entry key = ⟨0, ground.propertiesPath ++ [key]⟩

namespace Site

variable {site : Site} {ground : Ground} {definitions properties : Fields} {ahead : List Text}

theorem entry_put {place : Place} {key other : Text} {new : Json}
    (properties : (place.member key).follow site.trees.length site.properties = site.properties)
    (entry : (place.member key).follow site.trees.length (site.entry other) = site.entry other) :
    (site.put place key new).entry other = site.entry other := by
  have moved : Entries.get? other (site.put place key new).entries =
      (Entries.get? other site.entries).map ((place.member key).follow site.trees.length) := by
    simp only [put]
    induction site.entries with
    | nil => rfl
    | cons first rest ih =>
      obtain ⟨name, held⟩ := first
      by_cases h : name = other <;> simp [Entries.get?, h, ih]
  have still : (site.put place key new).properties = site.properties := properties
  rw [Site.entry, moved, still]
  cases found : Entries.get? other site.entries with
  | none => simp [Site.entry, found]
  | some held => simpa [Site.entry, found] using entry

namespace Shows

theorem first (shows : site.Shows ground definitions properties ahead) (path : List Text) :
    Place.value site.trees ⟨0, path⟩ = ((ground.refit definitions properties).at? path).getD .null :=
  Place.value_of_first shows.tree path

theorem definitions_value (shows : site.Shows ground definitions properties ahead) :
    site.definitions.value site.trees = .obj definitions := by
  rw [shows.definitionsAt, shows.first, ground.at?_definitions]
  rfl

theorem property_value (shows : site.Shows ground definitions properties ahead) (key : Text) :
    Place.value site.trees ⟨0, ground.propertiesPath ++ [key]⟩ = (Entries.get? key properties).getD .null := by
  rw [shows.first, Json.at?_append, ground.at?_properties]
  cases found : Entries.get? key properties <;> simp [Json.at?, Json.get?, found]

theorem keys (shows : site.Shows ground definitions properties ahead) : site.keys = Entries.keys properties := by
  rw [Site.keys, shows.propertiesAt, shows.first, ground.at?_properties]
  rfl

theorem begin (shows : site.Shows ground definitions properties ahead) :
    site.begin.Shows ground definitions properties (Entries.keys properties) where
  tree := shows.tree
  definitionsAt := shows.definitionsAt
  propertiesAt := shows.propertiesAt
  entryAt := by
    intro key _
    have found : ∀ names : List Text, (Entries.get? key (names.map fun name => (name, site.properties.member name))).getD
        (site.properties.member key) = site.properties.member key := by
      intro names
      induction names with
      | nil => rfl
      | cons name rest ih => by_cases h : name = key <;> simp [Entries.get?, h, ih]
    have member : site.properties.member key = ⟨0, ground.propertiesPath ++ [key]⟩ := by rw [shows.propertiesAt]; rfl
    exact (found site.keys).trans member

theorem fragment? (shows : site.Shows ground definitions properties ahead) {key : Text} {value : Json}
    (kind : FragmentKind) (member : key ∈ ahead) (found : Entries.get? key properties = some value) :
    site.fragment? kind key = (fragmentAt? kind key value).map Move.fragment := by
  have here : (site.entry key).value site.trees = value := by
    rw [shows.entryAt key member, shows.property_value, found]
    rfl
  have there : (site.properties.member key).value site.trees = value := by
    rw [shows.propertiesAt]
    exact (shows.property_value key).trans (by rw [found]; rfl)
  cases kind with
  | object => by_cases nested : value.isNestedObject <;> simp [Site.fragment?, fragmentAt?, here, there, nested]
  | arrayItem => cases items : value.itemSchema? <;> simp [Site.fragment?, fragmentAt?, here, items]

theorem less (shows : site.Shows ground definitions properties ahead) {later : List Text} (rest : later ⊆ ahead) :
    site.Shows ground definitions properties later :=
  { shows with entryAt := fun key member => shows.entryAt key (rest member) }

/-- What is stored beside the places at work, or below them, leaves them where they are. -/
theorem put (shows : site.Shows ground definitions properties ahead) {place : Place} {key : Text} {path : List Text}
    {new : Json} {definitions' properties' : Fields} {later : List Text} (target : place.member key = ⟨0, path⟩)
    (noDefinitions : ¬ path <+: ground.definitionsPath) (noProperties : ¬ path <+: ground.propertiesPath)
    (noEntry : ∀ other ∈ later, ¬ path <+: ground.propertiesPath ++ [other]) (rest : later ⊆ ahead)
    (stored : (ground.refit definitions properties).setAt path new = ground.refit definitions' properties') :
    (site.put place key new).Shows ground definitions' properties' later where
  tree := by
    rw [← stored]
    simp only [Site.put, target]
    exact Place.store_first shows.tree path new
  definitionsAt := by
    simp only [Site.put, target, shows.definitionsAt]
    exact Place.follow_of_not_below noDefinitions _
  propertiesAt := by
    simp only [Site.put, target, shows.propertiesAt]
    exact Place.follow_of_not_below noProperties _
  entryAt := by
    intro other member
    have entry := shows.entryAt other (rest member)
    rw [entry_put ?properties ?entry, entry]
    case properties =>
      rw [target, shows.propertiesAt]
      exact Place.follow_of_not_below noProperties _
    case entry =>
      rw [target, entry]
      exact Place.follow_of_not_below (noEntry other member) _

theorem define (shows : site.Shows ground definitions properties ahead) (name : Text) (new : Json) :
    (site.put site.definitions name new).Shows ground (Entries.set name new definitions) properties ahead := by
  have target : site.definitions.member name = ⟨0, ground.definitionsPath ++ [name]⟩ := by rw [shows.definitionsAt]; rfl
  exact shows.put target (not_below_self _ _ _) (ground.apart.not_below _)
    (fun other _ => (ground.apart.append [other]).not_below _) (List.Subset.refl _)
    (ground.setAt_definitions definitions properties name new)

theorem refer {key : Text} (shows : site.Shows ground definitions properties (key :: ahead)) {value : Json}
    (found : Entries.get? key properties = some value) (fresh : key ∉ ahead) (kind : FragmentKind) (reference : Json) :
    (site.refer kind key reference).Shows ground definitions (Entries.set key (leave kind value reference) properties)
      ahead := by
  have beside : ∀ more, ∀ other ∈ ahead, ¬ ground.propertiesPath ++ key :: more <+: ground.propertiesPath ++ [other] :=
    fun more other member => not_below_sibling _ (ne_of_mem_of_not_mem member fresh).symm more
  cases kind with
  | object =>
    have target : site.properties.member key = ⟨0, ground.propertiesPath ++ [key]⟩ := by rw [shows.propertiesAt]; rfl
    refine shows.put target (ground.apart.symm.not_below _) (not_below_self _ _ _) (beside []) ?_ ?_
    · exact List.subset_cons_self key ahead
    · rw [Json.setAt_append]
      exact ground.modifyAt_properties definitions properties rfl
  | arrayItem =>
    have target : (site.entry key).member Keyword.items = ⟨0, ground.propertiesPath ++ [key, Keyword.items]⟩ := by
      rw [shows.entryAt key List.mem_cons_self]
      simp [Place.member]
    refine shows.put target (ground.apart.symm.not_below _) (not_below_self _ _ _) (beside _) ?_ ?_
    · exact List.subset_cons_self key ahead
    · have split : ground.propertiesPath ++ [key, Keyword.items] =
          (ground.propertiesPath ++ [key]) ++ [Keyword.items] := by simp
      rw [split, Json.setAt_append, Json.modifyAt_append]
      refine ground.modifyAt_properties definitions properties ?_
      rw [Json.modifyAt_of_get? (show (Json.obj properties).get? key = some value from found)]
      rfl

/-- A fragment that cannot be copied is not stored; one whose record is refused is. -/
theorem stored (shows : site.Shows ground definitions properties ahead) (room : Room) (move : Move) :
    (if (store room definitions move).names = [] then site
      else site.put site.definitions move.name move.fragment).Shows ground
        (store room definitions move).definitions properties ahead := by
  unfold store
  by_cases fits : room.holds move.fragment
  · simpa [fits] using shows.define move.name move.fragment
  · simpa [fits] using shows

end Shows

end Site

structure Progress.Follows (progress : Progress) (ground : Ground) (before : Fields) (done : Walk) : Prop where
  site : progress.site.Shows ground done.definitions (before ++ done.properties) []
  made : progress.made = done.made
  events : progress.events = done.events
  fault : progress.fault = done.fault.map .unnesting

theorem walkSite_follows (room : Room) (kind : FragmentKind) {ground : Ground} {site : Site} {definitions rest : Fields}
    (before : Fields) (distinct : (Entries.keys (before ++ rest)).Nodup)
    (shows : site.Shows ground definitions (before ++ rest) (Entries.keys rest)) :
    (walkSite room kind (Entries.keys rest) site).Follows ground before (walk room kind definitions rest) := by
  -- on the properties ahead; those behind are as the walk has left them
  induction rest generalizing before definitions site with
  | nil => exact ⟨shows, rfl, rfl, rfl⟩
  | cons entry rest ih =>
    obtain ⟨key, value⟩ := entry
    have found : Entries.get? key (before ++ (key, value) :: rest) = some value :=
      Entries.get?_of_mem distinct (by simp)
    have names : (Entries.keys before ++ key :: Entries.keys rest).Nodup := by simpa [Entries.keys] using distinct
    obtain ⟨absent, ahead⟩ : key ∉ Entries.keys before ∧ key ∉ Entries.keys rest := by
      simpa using (List.nodup_cons.1 (List.perm_middle.nodup_iff.1 names)).1
    have shifted : ∀ value, before ++ (key, value) :: rest = (before ++ [(key, value)]) ++ rest := by simp
    have still : ∀ value, (Entries.keys ((before ++ [(key, value)]) ++ rest)).Nodup := by
      intro value
      simpa [Entries.keys] using names
    have there := shows.fragment? kind List.mem_cons_self found
    show (walkSite room kind (key :: Entries.keys rest) site).Follows _ _ _
    cases fragment : fragmentAt? kind key value with
    | none =>
      have later := ih _ (still value) (shifted value ▸ shows.less (List.subset_cons_self key _))
      rw [fragment] at there
      simp only [walkSite, there, Option.map_none, walk, fragment]
      exact ⟨by simpa [Walk.keep] using later.site, later.made, by simp [later.events, Walk.keep], later.fault⟩
    | some move =>
      rw [fragment] at there
      have stored := shows.stored room move
      have same : (⟨kind, key, move.fragment⟩ : Move) = move := (eq_of_fragmentAt? fragment).symm
      simp only [walkSite, there, Option.map_some, same, shows.definitions_value, walk, fragment]
      cases outcome : (store room definitions move).outcome with
      | error fault => exact ⟨stored.less (List.nil_subset _), rfl, rfl, rfl⟩
      | ok record =>
        have referred := stored.refer found ahead kind record.referenceNode
        rw [Entries.set_append_cons absent, shifted] at referred
        have later := ih _ (still _) referred
        exact ⟨by simpa [Walk.move] using later.site, by simp [later.made, Walk.move],
          by simp [later.events, Walk.move], later.fault⟩

theorem Progress.Follows.andThen {first second : Progress} {ground : Ground} {before : Fields} {done next : Walk}
    (objects : first.Follows ground before done) (arrays : second.Follows ground before next) :
    Progress.Follows
      { second with
        made := if second.fault.isSome then [] else first.made ++ second.made
        events := first.events ++ second.events }
      ground before
      (if (done.andThen next).fault.isSome then { done.andThen next with made := [] } else done.andThen next) := by
  have fault := arrays.fault
  have events : first.events ++ second.events = (done.andThen next).events := by
    rw [objects.events, arrays.events]
    rfl
  cases ended : next.fault with
  | some last =>
    have both : (done.andThen next).fault = some last := ended
    simp only [ended, Option.map_some] at fault
    simp only [fault, both, Option.isSome_some, if_true]
    exact ⟨arrays.site, rfl, events, rfl⟩
  | none =>
    have both : (done.andThen next).fault = none := ended
    have made : first.made ++ second.made = (done.andThen next).made := by
      rw [objects.made, arrays.made]
      rfl
    simp only [ended, Option.map_none] at fault
    simp only [fault, both, Option.isSome_none, Bool.false_eq_true, if_false]
    exact ⟨arrays.site, made, events, by rw [both]; rfl⟩

theorem keys_walk {room : Room} {kind : FragmentKind} {definitions properties : Fields}
    (fits : (walk room kind definitions properties).fault = none) :
    Entries.keys (walk room kind definitions properties).properties = Entries.keys properties := by
  rw [(performs_walk kind definitions fits).properties]
  simp [Entries.keys, Function.comp_def]

theorem flattenSite_follows (room : Room) {ground : Ground} {site : Site} {definitions properties : Fields}
    {ahead : List Text} (distinct : (Entries.keys properties).Nodup)
    (shows : site.Shows ground definitions properties ahead) :
    (flattenSite room site).Follows ground [] (moveAll room definitions properties) := by
  have objects := walkSite_follows room .object [] distinct shows.begin
  rw [← shows.keys] at objects
  cases stopped : (walk room .object definitions properties).fault with
  | some fault =>
    have fault := objects.fault
    rw [stopped] at fault
    simp only [flattenSite, fault, moveAll, stopped, Option.map_some]
    exact ⟨objects.site, rfl, objects.events, rfl⟩
  | none =>
    have fault := objects.fault
    rw [stopped] at fault
    have again : (Entries.keys ([] ++ (walk room .object definitions properties).properties)).Nodup := by
      simpa [keys_walk stopped] using distinct
    have arrays := walkSite_follows room .arrayItem [] again objects.site.begin
    have names : (walkSite room .object site.keys site.begin).site.keys =
        Entries.keys (walk room .object definitions properties).properties := objects.site.keys
    rw [← names] at arrays
    simp only [flattenSite, fault, moveAll, stopped, Option.map_none]
    exact objects.andThen arrays

/-- Flattening a node inside a tree is flattening it by itself, as long as the definitions are neither in its properties
nor around them. -/
theorem flattenAt_eq_replaceNested (room : Room) {root node : Json} {definitions : Fields}
    {definitionsPath nodePath : List Text} (apart : Apart definitionsPath (nodePath ++ [Keyword.properties]))
    (here : root.at? nodePath = some node) (there : root.at? definitionsPath = some (.obj definitions))
    (distinct : ∀ properties, node.properties? = some properties → (Entries.keys properties).Nodup) :
    let done := replaceNested room definitions node
    flattenAt room root definitionsPath nodePath =
      { root := (root.modifyAt (fun _ => done.node) nodePath).modifyAt (fun _ => .obj done.definitions) definitionsPath
        made := done.made
        events := done.events
        fault := done.fault.map .unnesting } := by
  intro done
  unfold flattenAt
  cases held : node.properties? with
  | none =>
    have unchanged : done.node = node ∧ done.definitions = definitions := by simp [done, replaceNested, held]
    rw [unchanged.1, unchanged.2, Json.modifyAt_self here, Json.modifyAt_self there]
    simp [here, Json.hasProperties, held, done, replaceNested]
  | some properties =>
    have member := Json.properties?_eq_some.1 held
    have inside : root.at? (nodePath ++ [Keyword.properties]) = some (.obj properties) := by
      simp [Json.at?_append, here, Json.at?, member]
    let ground : Ground :=
      ⟨root, definitionsPath, nodePath ++ [Keyword.properties], apart, by simp [there], by simp [inside]⟩
    have unfitted : ground.refit definitions properties = root := by
      rw [Ground.refit, Json.modifyAt_self inside, Json.modifyAt_self there]
    let site : Site := ⟨[root], ⟨0, definitionsPath⟩, (⟨0, nodePath⟩ : Place).member Keyword.properties, []⟩
    have shows : site.Shows ground definitions properties [] :=
      { tree := congrArg some unfitted.symm
        definitionsAt := rfl
        propertiesAt := rfl
        entryAt := fun _ member => absurd member List.not_mem_nil }
    have follows := flattenSite_follows room (distinct properties held) shows
    let moved := moveAll room definitions properties
    have replaced : done = ⟨moved.definitions, node.set Keyword.properties (.obj moved.properties), moved.stored,
        moved.made, moved.events, moved.fault⟩ := by
      simp [done, replaceNested, held, moved]
    have result : ground.refit moved.definitions moved.properties =
        (root.modifyAt (fun _ => done.node) nodePath).modifyAt (fun _ => .obj done.definitions) definitionsPath := by
      show (root.modifyAt (fun _ => .obj moved.properties) (nodePath ++ [Keyword.properties])).modifyAt
        (fun _ => .obj moved.definitions) definitionsPath = _
      rw [Json.modifyAt_append, replaced]
      congr 1
      apply Json.modifyAt_congr here
      rw [Json.modifyAt_of_get? member]
      rfl
    have tree : (flattenSite room site).site.trees.headD root =
        (root.modifyAt (fun _ => done.node) nodePath).modifyAt (fun _ => .obj done.definitions) definitionsPath := by
      rw [List.headD_eq_head?_getD, List.head?_eq_getElem?, follows.site.tree, Option.getD_some, ← result]
      rfl
    have works : ((root.at? nodePath).getD .null).hasProperties := by simp [here, Json.hasProperties, held]
    simp only [works, Bool.not_true, Bool.false_eq_true, if_false, Flattened.mk.injEq]
    rw [replaced] at tree ⊢
    exact ⟨tree, follows.made, follows.events, follows.fault⟩

example : Apart [Keyword.definitions] ([] ++ [Keyword.properties]) := by decide

end Unnesting
end SchemaUnnest
