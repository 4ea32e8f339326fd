import Mathlib.Algebra.BigOperators.Ring.Finset
import Mathlib.Data.Set.Card
import Mathlib.Order.CompletePartialOrder
import SchemaUnnest.Json.Part
import SchemaUnnest.Schema.Statistics

namespace SchemaUnnest.Json

/-- How a schema is reached from the one around it: as an element, as a member, or under a name in a member that is no
schema itself. -/
inductive Step where
  | item (index : Nat)
  | member (key : Text)
  | named (key name : Text)
deriving DecidableEq

namespace Step

def isDefinition : Step → Bool
  | .named key _ => key = Keyword.definitions
  | _ => false

def key? : Step → Option Text
  | .item _ => none
  | .member key | .named key _ => some key

theorem isDefinition_iff {step : Step} : step.isDefinition ↔ ∃ name, step = .named Keyword.definitions name := by
  cases step with
  | named key name => simp [isDefinition]
  | _ => simp [isDefinition]

end Step

abbrev Position := List Step

def elements (first : Nat) : List Json → List (Step × Json)
  | [] => []
  | item :: rest => (.item first, item) :: elements (first + 1) rest

def schemasAt (key : Text) : Json → List (Step × Json)
  | .obj members =>
    if key = Keyword.properties || key = Keyword.definitions then
      members.map fun (name, schema) => (.named key name, schema)
    else [(.member key, .obj members)]
  | value => [(.member key, value)]

def children : Json → List (Step × Json)
  | .obj fields => fields.flatMap fun (key, value) => schemasAt key value
  | .arr items => elements 0 items
  | _ => []

inductive At (found : Json) : Position → Json → Prop where
  | here : At found [] found
  | inner {step : Step} {child node : Json} {rest : Position} (held : (step, child) ∈ node.children)
    (inside : At found rest child) : At found (step :: rest) node

@[simp] theorem at_nil_iff {found node : Json} : found.At [] node ↔ found = node := by
  constructor
  · intro h
    cases h
    rfl
  · rintro rfl
    exact .here

@[simp] theorem at_cons_iff {found node : Json} {step : Step} {rest : Position} :
    found.At (step :: rest) node ↔ ∃ child, (step, child) ∈ node.children ∧ found.At rest child := by
  constructor
  · intro h
    cases h with
    | inner held inside => exact ⟨_, held, inside⟩
  · rintro ⟨child, held, inside⟩
    exact .inner held inside

theorem mem_of_mem_elements {first : Nat} {items : List Json} {step : Step} {child : Json}
    (held : (step, child) ∈ elements first items) : (∃ index, first ≤ index ∧ step = .item index) ∧ child ∈ items := by
  induction items generalizing first with
  | nil => simp [elements] at held
  | cons item rest ih =>
    rcases List.mem_cons.1 held with same | later
    · cases same
      exact ⟨⟨first, Nat.le_refl _, rfl⟩, List.mem_cons_self⟩
    · obtain ⟨⟨index, after, rfl⟩, member⟩ := ih later
      exact ⟨⟨index, by omega, rfl⟩, List.mem_cons_of_mem _ member⟩

theorem of_mem_schemasAt {key : Text} {value child : Json} {step : Step}
    (held : (step, child) ∈ schemasAt key value) : step.key? = some key ∧ child.IsPart value := by
  unfold schemasAt at held
  split at held
  · split at held
    · obtain ⟨⟨name, schema⟩, member, same⟩ := List.mem_map.1 held
      cases same
      exact ⟨rfl, .member member .self⟩
    · cases List.mem_singleton.1 held
      exact ⟨rfl, .self⟩
  · cases List.mem_singleton.1 held
    exact ⟨rfl, .self⟩

/-- A child is a part of an element or of a member. -/
theorem exists_of_mem_children {node child : Json} {step : Step} (held : (step, child) ∈ node.children) :
    ∃ value : Json, child.IsPart value ∧ value.IsPart node ∧ value.depth < node.depth := by
  cases node with
  | obj fields =>
    obtain ⟨⟨key, value⟩, member, inside⟩ := List.mem_flatMap.1 held
    exact ⟨value, (of_mem_schemasAt inside).2, .member member .self, depth_lt_of_mem_fields member⟩
  | arr items =>
    have member := (mem_of_mem_elements held).2
    exact ⟨child, .self, .item member .self, depth_lt_of_mem_items member⟩
  | _ => cases held

theorem isPart_of_mem_children {node child : Json} {step : Step} (held : (step, child) ∈ node.children) :
    child.IsPart node := by
  obtain ⟨value, inside, whole, -⟩ := exists_of_mem_children held
  exact inside.trans whole

theorem depth_lt_of_mem_children {node child : Json} {step : Step} (held : (step, child) ∈ node.children) :
    child.depth < node.depth := by
  obtain ⟨value, inside, -, below⟩ := exists_of_mem_children held
  exact Int.lt_of_le_of_lt inside.depth_le below

def Distinct (value : Json) : Prop := ∀ fields, IsPart (.obj fields) value → (Entries.keys fields).Nodup

def distinctKeys : Json → Bool
  | .obj fields => decide (Entries.keys fields).Nodup
  | _ => true

theorem distinct_iff (value : Json) : value.everyPart distinctKeys ↔ value.Distinct := by
  rw [everyPart_iff]
  constructor
  · intro h fields inside
    exact of_decide_eq_true (h _ inside)
  · intro h part inside
    cases part with
    | obj fields => exact decide_eq_true (h fields inside)
    | _ => rfl

instance (value : Json) : Decidable value.Distinct := decidable_of_iff _ (distinct_iff value)

theorem Distinct.part {value part : Json} (distinct : value.Distinct) (inside : part.IsPart value) : part.Distinct :=
  fun fields within => distinct fields (within.trans inside)

theorem nodup_elements (first : Nat) (items : List Json) : ((elements first items).map Prod.fst).Nodup := by
  induction items generalizing first with
  | nil => exact List.nodup_nil
  | cons item rest ih =>
    refine List.nodup_cons.2 ⟨?_, ih (first + 1)⟩
    intro again
    obtain ⟨⟨step, child⟩, held, same⟩ := List.mem_map.1 again
    obtain ⟨⟨index, after, rfl⟩, -⟩ := mem_of_mem_elements held
    cases same
    omega

theorem nodup_schemasAt {value : Json} (distinct : value.Distinct) (key : Text) :
    ((schemasAt key value).map Prod.fst).Nodup := by
  unfold schemasAt
  split
  · rename_i members
    split
    · have names : (members.map Prod.fst).Nodup := distinct members .self
      have steps := names.map (f := Step.named key) fun _ _ same => by cases same; rfl
      simpa [Function.comp_def] using steps
    · exact List.nodup_singleton _
  · exact List.nodup_singleton _

theorem nodup_children {node : Json} (distinct : node.Distinct) : (node.children.map Prod.fst).Nodup := by
  cases node with
  | obj fields =>
    have keys : (fields.map Prod.fst).Nodup := distinct fields .self
    rw [children, List.map_flatMap, List.nodup_flatMap]
    refine ⟨fun entry member => nodup_schemasAt (distinct.part (.member member .self)) entry.1, ?_⟩
    -- members with different keys share no step, since a step tells the key of its member
    refine (List.pairwise_map.1 keys).imp fun {left right} other step first second => other ?_
    obtain ⟨⟨_, child⟩, held, rfl⟩ := List.mem_map.1 first
    obtain ⟨⟨_, child'⟩, held', same⟩ := List.mem_map.1 second
    cases same
    exact Option.some.inj ((of_mem_schemasAt held).1.symm.trans (of_mem_schemasAt held').1)
  | arr items => exact nodup_elements 0 items
  | _ => exact List.nodup_nil

def onward (children : List (Step × Json)) (inside : Step × Json → Set Position) : Set Position :=
  {position | ∃ child ∈ children, ∃ rest ∈ inside child, position = child.1 :: rest}

theorem encard_onward {children : List (Step × Json)} (distinct : (children.map Prod.fst).Nodup)
    (inside : Step × Json → Set Position) :
    (onward children inside).encard = (children.map fun child => (inside child).encard).sum := by
  induction children with
  | nil => simp [onward]
  | cons child rest ih =>
    obtain ⟨fresh, distinct⟩ := List.nodup_cons.1 distinct
    have parts : onward (child :: rest) inside = (child.1 :: ·) '' inside child ∪ onward rest inside := by
      ext position
      simp [onward, eq_comm]
    have apart : Disjoint ((child.1 :: ·) '' inside child) (onward rest inside) := by
      rw [Set.disjoint_left]
      rintro _ ⟨_, _, rfl⟩ ⟨other, held, _, _, same⟩
      exact fresh (List.mem_map.2 ⟨other, held, (List.cons.inj same).1.symm⟩)
    rw [parts, Set.encard_union_eq apart, List.cons_injective.encard_image, ih distinct, List.map_cons, List.sum_cons]

def nestedPositions (node : Json) : Set Position :=
  {position | ∃ found : Json, found.At position node ∧ found.isNestedObject}

theorem nil_mem_nestedPositions {node : Json} : [] ∈ node.nestedPositions ↔ node.isNestedObject := by
  simp [nestedPositions]

theorem cons_mem_nestedPositions {node : Json} {step : Step} {rest : Position} :
    step :: rest ∈ node.nestedPositions ↔ ∃ child, (step, child) ∈ node.children ∧ rest ∈ child.nestedPositions := by
  simp only [nestedPositions, Set.mem_ofPred_eq, at_cons_iff]
  constructor
  · rintro ⟨found, ⟨child, held, inside⟩, nested⟩
    exact ⟨child, held, found, inside, nested⟩
  · rintro ⟨child, held, found, inside, nested⟩
    exact ⟨found, ⟨child, held, inside⟩, nested⟩

/-- The nested objects that count in a node: if it is exempt, not those that definitions alone lead to. -/
def countedPositions (exempt : Bool) (node : Json) : Set Position :=
  {position ∈ node.nestedPositions | ¬(exempt ∧ position.all Step.isDefinition)}

def ownPositions (exempt : Bool) (node : Json) : Set Position :=
  {position | position = [] ∧ node.isNestedObject ∧ exempt = false}

theorem countedPositions_eq (exempt : Bool) (node : Json) :
    countedPositions exempt node = ownPositions exempt node ∪
      onward node.children fun child => countedPositions (exempt && child.1.isDefinition) child.2 := by
  ext position
  cases position with
  | nil => simp [countedPositions, ownPositions, nil_mem_nestedPositions, onward]
  | cons step rest =>
    simp only [countedPositions, ownPositions, onward, Set.mem_union, Set.mem_ofPred_eq, cons_mem_nestedPositions,
      reduceCtorEq, false_and, false_or]
    constructor
    · rintro ⟨⟨child, held, inside⟩, counts⟩
      exact ⟨(step, child), held, rest, ⟨inside, by simpa [and_assoc] using counts⟩, rfl⟩
    · rintro ⟨⟨_, child⟩, held, _, ⟨inside, counts⟩, same⟩
      cases same
      exact ⟨⟨child, held, inside⟩, by simpa [and_assoc] using counts⟩

end SchemaUnnest.Json

namespace SchemaUnnest.Tally

open Json

@[simp] theorem inlineObjects_add (a b : Tally) : (a.add b).inlineObjects = a.inlineObjects + b.inlineObjects := rfl

def inlineIn (exempt : Bool) (children : List (Step × Json)) : Nat :=
  (children.map fun child => (count (exempt && child.1.isDefinition) child.2).inlineObjects).sum

@[simp] theorem inlineIn_cons (exempt : Bool) (step : Step) (node : Json) (rest : List (Step × Json)) :
    inlineIn exempt ((step, node) :: rest) =
      (count (exempt && step.isDefinition) node).inlineObjects + inlineIn exempt rest := rfl

theorem inlineIn_append (exempt : Bool) (first second : List (Step × Json)) :
    inlineIn exempt (first ++ second) = inlineIn exempt first + inlineIn exempt second := by
  simp [inlineIn]

theorem inlineObjects_countItems (exempt : Bool) (first : Nat) (items : List Json) :
    (countItems items).inlineObjects = inlineIn exempt (elements first items) := by
  induction items generalizing first with
  | nil => rfl
  | cons item rest ih => simp [countItems, elements, ih (first + 1), Step.isDefinition]

theorem inlineObjects_countMembers (exempt : Bool) (key : Text) (members : Fields) :
    (countMembers (key = Keyword.definitions && exempt) members).inlineObjects =
      inlineIn exempt (members.map fun (name, schema) => (.named key name, schema)) := by
  induction members with
  | nil => rfl
  | cons entry rest ih =>
    rw [countMembers, inlineObjects_add, ih, List.map_cons, inlineIn_cons, Step.isDefinition, Bool.and_comm]

theorem inlineIn_schemasAt (exempt : Bool) (key : Text) (value : Json) :
    inlineIn exempt (schemasAt key value) =
      (if (key = Keyword.properties || key = Keyword.definitions) && value.isObject then
        countNamed (key = Keyword.definitions && exempt) value
      else count false value).inlineObjects := by
  cases value with
  | obj members =>
    rw [schemasAt]
    by_cases naming : (key = Keyword.properties || key = Keyword.definitions) = true
    · simp only [naming, isObject, Bool.and_true, if_true, countNamed]
      exact (inlineObjects_countMembers exempt key members).symm
    · simp [naming, inlineIn, Step.isDefinition]
  | _ => simp [schemasAt, isObject, inlineIn, Step.isDefinition]

theorem inlineObjects_countFields (exempt : Bool) (fields : Fields) :
    (countFields exempt fields).inlineObjects =
      inlineIn exempt (fields.flatMap fun (key, value) => schemasAt key value) := by
  induction fields with
  | nil => rfl
  | cons entry rest ih =>
    rw [countFields, inlineObjects_add, ih, List.flatMap_cons, inlineIn_append, inlineIn_schemasAt]

theorem inlineObjects_count (exempt : Bool) (node : Json) :
    (count exempt node).inlineObjects = (ofNode exempt node).inlineObjects + inlineIn exempt node.children := by
  cases node with
  | obj fields => rw [count, inlineObjects_add, inlineObjects_countFields, children]
  | arr items =>
    have own : ofNode exempt (.arr items) = none := rfl
    rw [count, inlineObjects_countItems exempt 0, own, children]
    exact (Nat.zero_add _).symm
  | _ => rfl

theorem inlineObjects_ofNode (exempt : Bool) (node : Json) :
    (ofNode exempt node).inlineObjects = if node.isNestedObject && !exempt then 1 else 0 := by
  cases reference : node.isReference <;> cases nested : node.hasProperties <;> cases exempt <;>
    simp [ofNode, isNestedObject, reference, nested, none]

end SchemaUnnest.Tally

namespace SchemaUnnest.Json

theorem encard_ownPositions (exempt : Bool) (node : Json) :
    (ownPositions exempt node).encard = (Tally.ofNode exempt node).inlineObjects := by
  rw [Tally.inlineObjects_ofNode]
  cases nested : node.isNestedObject <;> cases exempt <;> simp [ownPositions, nested]

theorem disjoint_ownPositions (exempt : Bool) (node : Json) (children : List (Step × Json))
    (inside : Step × Json → Set Position) : Disjoint (ownPositions exempt node) (onward children inside) := by
  rw [Set.disjoint_left]
  rintro position ⟨rfl, -⟩ ⟨_, _, _, _, same⟩
  cases same

theorem encard_countedPositions (exempt : Bool) (node : Json) (distinct : node.Distinct) :
    (countedPositions exempt node).encard = (Tally.count exempt node).inlineObjects := by
  have within : ∀ child ∈ node.children, (countedPositions (exempt && child.1.isDefinition) child.2).encard =
      (Tally.count (exempt && child.1.isDefinition) child.2).inlineObjects := by
    intro child held
    exact encard_countedPositions _ child.2 (distinct.part (isPart_of_mem_children held))
  rw [countedPositions_eq, Set.encard_union_eq (disjoint_ownPositions ..), encard_ownPositions,
    encard_onward (nodup_children distinct), List.map_congr_left within, Tally.inlineObjects_count, Tally.inlineIn,
    Nat.cast_add, Nat.cast_list_sum, List.map_map]
  rfl
termination_by node.depth.toNat
decreasing_by
  have below := depth_lt_of_mem_children held
  have start := depth_nonneg child.2
  omega

/-- The nested objects other than the root and the entries of its definitions. -/
def inlinePositions (root : Json) : Set Position :=
  {position ∈ root.nestedPositions | position ≠ [] ∧ ∀ name, position ≠ [.named Keyword.definitions name]}

/-- The nested objects in definitions of an entry of the root's definitions, or in definitions of those in turn. -/
def shieldedPositions (root : Json) : Set Position :=
  {position ∈ root.nestedPositions | position.all Step.isDefinition ∧ 2 ≤ position.length}

theorem inline_iff (position : Position) :
    (position ≠ [] ∧ ∀ name, position ≠ [.named Keyword.definitions name]) ↔
      ¬position.all Step.isDefinition ∨ (position.all Step.isDefinition ∧ 2 ≤ position.length) := by
  match position with
  | [] => simp
  | [step] =>
    have one : step.isDefinition = false ↔ ∀ name, step ≠ .named Keyword.definitions name := by
      rw [← Bool.not_eq_true, Step.isDefinition_iff, not_exists]
    simp [one]
  | first :: second :: rest =>
    have decided := (em ((first :: second :: rest).all Step.isDefinition)).symm
    simpa using decided

theorem inlinePositions_eq (root : Json) :
    root.inlinePositions = countedPositions true root ∪ root.shieldedPositions := by
  ext position
  simp only [inlinePositions, countedPositions, shieldedPositions, Set.mem_union, Set.mem_ofPred_eq, inline_iff,
    true_and]
  exact and_or_left

theorem disjoint_shieldedPositions (root : Json) : Disjoint (countedPositions true root) root.shieldedPositions := by
  rw [Set.disjoint_left]
  rintro position ⟨-, counted⟩ ⟨-, definitions, -⟩
  exact counted ⟨rfl, definitions⟩

end SchemaUnnest.Json

namespace SchemaUnnest.Statistics

open Json

/-- What is counted are the nested objects besides the root and the entries of its definitions, less those in definitions
of such an entry. So the number is the one that is meant for the schemas that have no nested object there. -/
theorem inlineObjects_are_unshielded {root : Json} (distinct : root.Distinct) :
    (root.inlinePositions \ root.shieldedPositions).encard = (ofRoot root).inlineObjects ∧
      (root.inlinePositions.encard = (ofRoot root).inlineObjects ↔ root.shieldedPositions = ∅) := by
  have apart := disjoint_shieldedPositions root
  have counted : (countedPositions true root).encard = (ofRoot root).inlineObjects :=
    encard_countedPositions true root distinct
  have whole : root.inlinePositions.encard = (ofRoot root).inlineObjects + root.shieldedPositions.encard := by
    rw [inlinePositions_eq, Set.encard_union_eq apart, counted]
  refine ⟨by rw [inlinePositions_eq, Set.union_sdiff_cancel_right apart.le_bot, counted], ?_⟩
  rw [whole, ← Set.encard_eq_zero]
  constructor
  · intro same
    exact (ENat.addLECancellable_natCast _).inj.1 (same.trans (add_zero _).symm)
  · intro empty
    rw [empty, add_zero]

def nestedDefinitions : Json :=
  .obj [("definitions", .obj [("a", .obj [("definitions", .obj [("b", .obj [("properties", .obj [])])])])])]

theorem inlineObjects_are_unshielded_nestedDefinitions :
    nestedDefinitions.Distinct ∧
      (nestedDefinitions.inlinePositions \ nestedDefinitions.shieldedPositions).encard =
        (ofRoot nestedDefinitions).inlineObjects ∧
      (nestedDefinitions.inlinePositions.encard = (ofRoot nestedDefinitions).inlineObjects ↔
        nestedDefinitions.shieldedPositions = ∅) := by
  have distinct : nestedDefinitions.Distinct := by decide +kernel
  exact ⟨distinct, inlineObjects_are_unshielded distinct⟩

/-- The object among them is neither the root nor an entry of the root's definitions, and is not counted. -/
theorem inlineObjects_nestedDefinitions :
    nestedDefinitions.isObject ∧ nestedDefinitions.Distinct ∧ (ofRoot nestedDefinitions).inlineObjects = 0 ∧
      nestedDefinitions.inlinePositions.encard ≠ (ofRoot nestedDefinitions).inlineObjects := by
  have uncounted : (ofRoot nestedDefinitions).inlineObjects = 0 := by decide +kernel
  have inside : [.named "definitions" "a", .named "definitions" "b"] ∈ nestedDefinitions.inlinePositions := by
    refine ⟨⟨.obj [("properties", .obj [])], ?_, rfl⟩, by simp, by simp⟩
    exact .inner (List.mem_singleton.2 rfl) (.inner (List.mem_singleton.2 rfl) .here)
  refine ⟨rfl, by decide +kernel, uncounted, ?_⟩
  rw [uncounted]
  exact Set.encard_ne_zero_of_mem inside

end SchemaUnnest.Statistics
