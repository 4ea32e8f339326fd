import Mathlib.Data.List.Infix
import Mathlib.Data.Nat.SuccPred
import SchemaUnnest.Json.Depth

namespace SchemaUnnest.Json

def contents : Json → List Json
  | .arr items => items
  | .obj fields => fields.map Prod.snd
  | _ => []

/-- What a path leads to: level by level, its numbers tell which of the contents it goes through. -/
def part? : List Nat → Json → Option Json
  | [], value => some value
  | index :: path, value => value.contents[index]?.bind (part? path)

def replaceAt (value : Json) (place : List Nat) (new : Json) : Json :=
  match place, value with
  | [], _ => new
  | index :: place, .arr items => .arr (items.modify index fun item => item.replaceAt place new)
  | index :: place, .obj fields => .obj (fields.modify index fun (key, member) => (key, member.replaceAt place new))
  | _ :: _, other => other

def paths (value : Json) : Set (List Nat) := {path | (value.part? path).isSome}

def pathsBeside (value : Json) (place : List Nat) : Set (List Nat) := {path ∈ value.paths | ¬place <+: path}

def Longest (paths : Set (List Nat)) (length : Nat) : Prop := IsGreatest (List.length '' paths) length

/-- Arrays get another order of their elements and objects one of their keys, at any places, one after another. -/
inductive Rearranged (value : Json) : Json → Prop where
  | self : Rearranged value value
  | items {whole : Json} {place : List Nat} {items others : List Json} (before : Rearranged value whole)
    (found : whole.part? place = some (.arr items)) (order : items.Perm others) :
    Rearranged value (whole.replaceAt place (.arr others))
  | keys {whole : Json} {place : List Nat} {fields others : Fields} (before : Rearranged value whole)
    (found : whole.part? place = some (.obj fields)) (order : fields.Perm others) :
    Rearranged value (whole.replaceAt place (.obj others))

theorem depth_lt_of_mem_contents {value inner : Json} (member : inner ∈ value.contents) :
    inner.depth < value.depth := by
  cases value with
  | arr items => exact depth_lt_of_mem_items member
  | obj fields =>
    obtain ⟨⟨key, value⟩, held, rfl⟩ := List.mem_map.1 member
    exact depth_lt_of_mem_fields held
  | _ => cases member

theorem depth_le_of_contents {value : Json} {bound : Int} (start : 0 ≤ bound)
    (each : ∀ inner ∈ value.contents, inner.depth < bound) : value.depth ≤ bound := by
  cases value with
  | arr items => exact depth_arr_le start each
  | obj fields =>
    apply depth_obj_le start
    intro key value member
    exact each value (List.mem_map_of_mem member)
  | _ => exact start

theorem exists_deepest_contents {value : Json} (deep : 0 < value.depth) :
    ∃ inner ∈ value.contents, value.depth = inner.depth + 1 := by
  by_contra none
  have flat : value.depth ≤ value.depth - 1 := by
    apply depth_le_of_contents (by omega)
    intro inner member
    have below := depth_lt_of_mem_contents member
    have other : value.depth ≠ inner.depth + 1 := fun same => none ⟨inner, member, same⟩
    omega
  omega

theorem depth_le_of_contents_subset {value other : Json} (subset : value.contents ⊆ other.contents) :
    value.depth ≤ other.depth :=
  depth_le_of_contents (depth_nonneg other) fun _ member => depth_lt_of_mem_contents (subset member)

theorem depth_eq_of_contents_perm {value other : Json} (order : value.contents.Perm other.contents) :
    value.depth = other.depth :=
  Int.le_antisymm (depth_le_of_contents_subset order.subset) (depth_le_of_contents_subset order.symm.subset)

theorem exists_height (value : Json) : ∃ height : Nat, value.depth = height :=
  Int.eq_ofNat_of_zero_le (depth_nonneg value)

@[simp] theorem nil_mem_paths (value : Json) : [] ∈ value.paths := rfl

theorem cons_mem_paths {value : Json} {index : Nat} {path : List Nat} :
    index :: path ∈ value.paths ↔ ∃ inner, value.contents[index]? = some inner ∧ path ∈ inner.paths := by
  simp only [paths, part?, Set.mem_ofPred_eq]
  cases value.contents[index]? <;> simp

theorem length_le_depth {value : Json} {path : List Nat} (leads : path ∈ value.paths) : path.length ≤ value.depth := by
  induction path generalizing value with
  | nil => exact depth_nonneg value
  | cons index path ih =>
    obtain ⟨inner, found, onward⟩ := cons_mem_paths.1 leads
    have below := depth_lt_of_mem_contents (List.mem_of_getElem? found)
    have rest := ih onward
    simp only [List.length_cons]
    omega

theorem exists_path_of_depth {depth : Nat} {value : Json} (deep : value.depth = depth) :
    ∃ path ∈ value.paths, path.length = depth := by
  induction depth generalizing value with
  | zero => exact ⟨[], nil_mem_paths value, rfl⟩
  | succ depth ih =>
    obtain ⟨inner, member, next⟩ := exists_deepest_contents (show 0 < value.depth by omega)
    obtain ⟨index, found⟩ := List.getElem?_of_mem member
    obtain ⟨path, leads, length⟩ := ih (show inner.depth = depth by omega)
    exact ⟨index :: path, cons_mem_paths.2 ⟨inner, found, leads⟩, by rw [List.length_cons, length]⟩

theorem longest_paths_iff {value : Json} {length : Nat} : Longest value.paths length ↔ value.depth = length := by
  have longest {depth : Nat} (deep : value.depth = depth) : Longest value.paths depth := by
    refine ⟨exists_path_of_depth deep, ?_⟩
    rintro _ ⟨path, leads, rfl⟩
    have bound := length_le_depth leads
    omega
  constructor
  · intro h
    obtain ⟨height, deep⟩ := exists_height value
    rw [deep, h.unique (longest deep)]
  · exact longest

theorem deepest_of_longest {value : Json} {length : Nat} (h : Longest value.paths length) (start : Int) :
    value.deepest start = start + length := by
  rw [deepest_eq, longest_paths_iff.1 h, Int.add_comm]

theorem part?_append (place rest : List Nat) (value : Json) :
    value.part? (place ++ rest) = (value.part? place).bind (part? rest) := by
  induction place generalizing value with
  | nil => rfl
  | cons index place ih =>
    cases found : value.contents[index]? <;> simp [part?, found, ih]

theorem paths_eq_of_part? {value part : Json} {place : List Nat} (found : value.part? place = some part) :
    value.paths = (place ++ ·) '' part.paths ∪ value.pathsBeside place := by
  have through (rest : List Nat) : place ++ rest ∈ value.paths ↔ rest ∈ part.paths := by
    simp [paths, part?_append, found]
  ext path
  constructor
  · intro leads
    by_cases inside : place <+: path
    · obtain ⟨rest, rfl⟩ := inside
      exact .inl ⟨rest, (through rest).1 leads, rfl⟩
    · exact .inr ⟨leads, inside⟩
  · rintro (⟨rest, leads, rfl⟩ | beside)
    · exact (through rest).2 leads
    · exact beside.1

theorem longest_through {part : Json} {own : Nat} (inner : Longest part.paths own) (place : List Nat) :
    Longest ((place ++ ·) '' part.paths) (place.length + own) := by
  obtain ⟨⟨path, leads, length⟩, bound⟩ := inner
  constructor
  · exact ⟨place ++ path, ⟨path, leads, rfl⟩, by rw [List.length_append, length]⟩
  · rintro _ ⟨_, ⟨rest, leads, rfl⟩, rfl⟩
    have shorter : rest.length ≤ own := bound ⟨rest, leads, rfl⟩
    simp only [List.length_append]
    omega

theorem longest_paths_of_part? {value part : Json} {place : List Nat} {own beside : Nat}
    (found : value.part? place = some part) (inner : Longest part.paths own)
    (outer : Longest (value.pathsBeside place) beside) : Longest value.paths (max (place.length + own) beside) := by
  rw [paths_eq_of_part? found, Longest, Set.image_union]
  exact (longest_through inner place).union outer

/-- Beside a place other than the whole value there is a path at least, the one that goes nowhere. -/
theorem exists_longest_beside (value : Json) {place : List Nat} (inner : place ≠ []) :
    ∃ beside, Longest (value.pathsBeside place) beside := by
  obtain ⟨height, deep⟩ := exists_height value
  apply BddAbove.exists_isGreatest_of_nonempty
  · refine ⟨height, ?_⟩
    rintro _ ⟨path, ⟨leads, -⟩, rfl⟩
    have bound := length_le_depth leads
    omega
  · exact ⟨0, [], ⟨nil_mem_paths value, by simpa using inner⟩, rfl⟩

@[simp] theorem replaceAt_nil (value new : Json) : value.replaceAt [] new = new := by
  cases value <;> rfl

theorem contents_replaceAt (value : Json) (index : Nat) (place : List Nat) (new : Json) :
    (value.replaceAt (index :: place) new).contents = value.contents.modify index (·.replaceAt place new) := by
  cases value with
  | arr items => rfl
  | obj fields =>
    apply List.ext_getElem?
    intro other
    simp only [replaceAt, contents, List.getElem?_map, List.getElem?_modify]
    cases fields[other]? with
    | none => rfl
    | some entry => by_cases same : index = other <;> simp [same]
  | _ => simp [replaceAt, contents]

theorem part?_replaceAt {value : Json} {place : List Nat} (leads : place ∈ value.paths) (new : Json) :
    (value.replaceAt place new).part? place = some new := by
  induction place generalizing value with
  | nil => rw [replaceAt_nil, part?]
  | cons index place ih =>
    obtain ⟨inner, found, onward⟩ := cons_mem_paths.1 leads
    simp [part?, contents_replaceAt, found, ih onward]

theorem mem_paths_replaceAt {value : Json} {place path : List Nat} (beside : ¬place <+: path) (new : Json) :
    path ∈ (value.replaceAt place new).paths ↔ path ∈ value.paths := by
  induction place generalizing value path with
  | nil => exact absurd List.nil_prefix beside
  | cons index place ih =>
    cases path with
    | nil => simp
    | cons first path =>
      rw [cons_mem_paths, cons_mem_paths, contents_replaceAt]
      by_cases same : index = first
      · subst first
        have onward : ¬place <+: path := by simpa using beside
        simp [ih onward]
      · rw [List.getElem?_modify_ne _ _ same]

theorem pathsBeside_replaceAt (value : Json) (place : List Nat) (new : Json) :
    (value.replaceAt place new).pathsBeside place = value.pathsBeside place := by
  ext path
  exact and_congr_left fun beside => mem_paths_replaceAt beside new

theorem longest_paths_replaceAt {value new : Json} {place : List Nat} {own beside : Nat} (leads : place ∈ value.paths)
    (inner : Longest new.paths own) (outer : Longest (value.pathsBeside place) beside) :
    Longest (value.replaceAt place new).paths (max (place.length + own) beside) := by
  rw [← pathsBeside_replaceAt value place new] at outer
  exact longest_paths_of_part? (part?_replaceAt leads new) inner outer

theorem depth_replaceAt_of_depth_eq {value part new : Json} {place : List Nat} (found : value.part? place = some part)
    (same : part.depth = new.depth) : value.depth = (value.replaceAt place new).depth := by
  cases place with
  | nil =>
    -- no path is beside the whole value
    cases found
    rw [replaceAt_nil, same]
  | cons index place =>
    have leads : index :: place ∈ value.paths := Option.isSome_of_eq_some found
    obtain ⟨beside, outer⟩ := exists_longest_beside value (List.cons_ne_nil index place)
    obtain ⟨own, deep⟩ := exists_height part
    have old := longest_paths_of_part? found (longest_paths_iff.2 deep) outer
    have now := longest_paths_replaceAt leads (longest_paths_iff.2 (same ▸ deep)) outer
    rw [longest_paths_iff.1 old, longest_paths_iff.1 now]

theorem Rearranged.depth_eq {value other : Json} (h : value.Rearranged other) : value.depth = other.depth := by
  induction h with
  | self => rfl
  | items before found order ih => exact ih.trans (depth_replaceAt_of_depth_eq found (depth_eq_of_contents_perm order))
  | keys before found order ih =>
    exact ih.trans (depth_replaceAt_of_depth_eq found (depth_eq_of_contents_perm (order.map Prod.snd)))

theorem deepest_measures_longest_path (start : Int) (value : Json) :
    ∃ height : Nat, Longest value.paths height ∧ value.deepest start = start + height ∧
      (∀ other, value.Rearranged other → other.deepest start = start + height) ∧
        ∀ place ∈ value.paths, ∀ (new : Json) (own : Nat), Longest new.paths own →
          (place = [] → (value.replaceAt place new).deepest start = start + own) ∧
            (place ≠ [] → ∃ beside, Longest (value.pathsBeside place) beside ∧
              (value.replaceAt place new).deepest start = start + max (place.length + own) beside) := by
  obtain ⟨height, deep⟩ := exists_height value
  have longest : Longest value.paths height := longest_paths_iff.2 deep
  refine ⟨height, longest, deepest_of_longest longest start, ?_, ?_⟩
  · intro other rearranged
    exact deepest_of_longest (longest_paths_iff.2 (rearranged.depth_eq ▸ deep)) start
  · intro place leads new own inner
    constructor
    · rintro rfl
      rw [replaceAt_nil, deepest_of_longest inner start]
    · intro inside
      obtain ⟨beside, outer⟩ := exists_longest_beside value inside
      exact ⟨beside, outer, deepest_of_longest (longest_paths_replaceAt leads inner outer) start⟩

def layeredTree : Json := .obj [("a", .arr [.obj [("b", .null)], .int 1]), ("c", .arr [])]

def turnedTree : Json := .obj [("c", .arr []), ("a", .arr [.int 1, .obj [("b", .null)]])]

def threeArrays : Json := .arr [.arr [.arr []]]

theorem rearranged_turnedTree : layeredTree.Rearranged turnedTree := by
  have keys := Rearranged.keys .self (show layeredTree.part? [] = some layeredTree from rfl) (.swap _ _ _)
  exact .items keys (show part? [1] _ = some (.arr [.obj [("b", .null)], .int 1]) from rfl) (.swap _ _ _)

theorem deepest_measures_longest_path_layeredTree :
    layeredTree.Rearranged turnedTree ∧ [0, 0] ∈ layeredTree.paths ∧ Longest threeArrays.paths 2 ∧
      ∃ height : Nat, Longest layeredTree.paths height ∧ layeredTree.deepest (-3) = -3 + height ∧
        turnedTree.deepest (-3) = -3 + height ∧ (layeredTree.replaceAt [] threeArrays).deepest (-3) = -3 + (2 : Nat) ∧
          ∃ beside, Longest (layeredTree.pathsBeside [0, 0]) beside ∧
            (layeredTree.replaceAt [0, 0] threeArrays).deepest (-3) = -3 + max (2 + 2) beside := by
  have leads : [0, 0] ∈ layeredTree.paths := rfl
  have tall : Longest threeArrays.paths 2 := longest_paths_iff.2 rfl
  obtain ⟨height, longest, deep, turned, replaced⟩ := deepest_measures_longest_path (-3) layeredTree
  refine ⟨rearranged_turnedTree, leads, tall, height, longest, deep, turned _ rearranged_turnedTree, ?_, ?_⟩
  · exact (replaced [] (nil_mem_paths _) threeArrays 2 tall).1 rfl
  · exact (replaced [0, 0] leads threeArrays 2 tall).2 (by decide)

/-- The arrays end one level deeper than the object did; with a leaf there, a path beside it is as long as any. -/
example : layeredTree.depth = 3 ∧ (layeredTree.replaceAt [0, 0] threeArrays).depth = 4 ∧
    (layeredTree.replaceAt [0, 0] .null).depth = 2 := by decide +kernel

end SchemaUnnest.Json
