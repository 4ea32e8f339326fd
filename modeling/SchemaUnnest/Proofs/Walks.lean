import SchemaUnnest.Proofs.Batches

namespace SchemaUnnest

namespace Text

theorem splitOn_ne_nil (separator : CodePoint) (text : Text) : splitOn separator text ≠ [] := by
  cases text with
  | nil => simp [splitOn]
  | cons c rest =>
    unfold splitOn
    split
    · simp
    · split <;> simp

theorem splitOn_append_cons (separator : CodePoint) (before after : Text) :
    splitOn separator (before ++ separator :: after) = splitOn separator before ++ splitOn separator after := by
  induction before with
  | nil => simp [splitOn]
  | cons c rest ih =>
    obtain ⟨piece, pieces, split⟩ := List.exists_cons_of_ne_nil (splitOn_ne_nil separator rest)
    by_cases same : c = separator
    · simp [splitOn, same, ih]
    · simp [splitOn, same, ih, split]

theorem splitOn_append_of_not_mem {separator : CodePoint} {before after first : Text} {rest : List Text}
    (absent : separator ∉ before) (split : splitOn separator after = first :: rest) :
    splitOn separator (before ++ after) = (before ++ first) :: rest := by
  induction before with
  | nil => exact split
  | cons c before ih =>
    have other : separator ≠ c ∧ separator ∉ before := by simpa using absent
    simp [splitOn, Ne.symm other.1, ih other.2]

theorem splitOn_of_not_mem {separator : CodePoint} {text : Text} (absent : separator ∉ text) :
    splitOn separator text = [text] := by
  have whole := splitOn_append_of_not_mem absent (show splitOn separator [] = [[]] from rfl)
  simpa using whole

theorem not_mem_of_mem_splitOn {separator : CodePoint} {text piece : Text} (member : piece ∈ splitOn separator text) :
    separator ∉ piece := by
  induction text generalizing piece with
  | nil =>
    cases List.mem_singleton.1 member
    exact List.not_mem_nil
  | cons c rest ih =>
    unfold splitOn at member
    split at member
    · rcases List.mem_cons.1 member with rfl | later
      · exact List.not_mem_nil
      · exact ih later
    · rename_i other
      split at member
      · cases List.mem_singleton.1 member
        simpa using Ne.symm other
      · rename_i first pieces found
        rw [found] at ih
        rcases List.mem_cons.1 member with rfl | later
        · simpa [Ne.symm other] using ih List.mem_cons_self
        · exact ih (List.mem_cons_of_mem _ later)

theorem splitOn_join {separator : CodePoint} {pieces : List Text} (nonempty : pieces ≠ []) :
    splitOn separator (join [separator] pieces) = pieces.flatMap (splitOn separator) := by
  induction pieces with
  | nil => exact absurd rfl nonempty
  | cons piece rest ih =>
    cases rest with
    | nil => simp [join]
    | cons next rest =>
      have whole : join [separator] (piece :: next :: rest) = piece ++ separator :: join [separator]
        (next :: rest) := by
        simp [join]
      rw [whole, splitOn_append_cons, ih (by simp)]
      rfl

end Text

namespace FilePath

def Normal (path : FilePath) : Prop := ∀ name ∈ path.parts, name ≠ [] ∧ name ≠ "." ∧ slash ∉ name

instance (path : FilePath) : Decidable path.Normal :=
  inferInstanceAs (Decidable (∀ name ∈ path.parts, name ≠ [] ∧ name ≠ "." ∧ slash ∉ name))

theorem normal_ofText (text : Text) : (ofText text).Normal := by
  intro name member
  obtain ⟨inside, kept⟩ := List.mem_filter.1 member
  simp only [Bool.and_eq_true, decide_eq_true_eq] at kept
  exact ⟨kept.1, kept.2, Text.not_mem_of_mem_splitOn inside⟩

theorem name_ne_nil_of_withName {path output : FilePath} {name : Text} (named : path.withName name = .ok output) :
    path.name ≠ [] := by
  unfold withName at named
  split at named
  · cases named
  · assumption

theorem withName_eq_ok {path output : FilePath} {name : Text} (named : path.withName name = .ok output) :
    isName name ∧ output = ⟨path.start, path.parts.dropLast ++ [name]⟩ := by
  unfold withName at named
  split at named
  · cases named
  · split at named
    · rename_i good
      cases named
      exact ⟨good, rfl⟩
    · cases named

theorem parts_eq {path : FilePath} (named : path.name ≠ []) : path.parts = path.parts.dropLast ++ [path.name] := by
  cases last : path.parts.getLast? with
  | none => simp [name, last] at named
  | some name =>
    obtain ⟨parents, split⟩ := List.getLast?_eq_some_iff.1 last
    simp [FilePath.name, split]

theorem name_mem_of_withName {path output : FilePath} {name : Text} (named : path.withName name = .ok output) :
    path.name ∈ path.parts := by
  rw [parts_eq (name_ne_nil_of_withName named)]
  exact List.mem_append_right _ List.mem_cons_self

end FilePath

namespace FileSystem

def enter (location : Location) (name : Text) : Location :=
  if name = [] || name = "." then location
  else if name = ".." then location.dropLast
  else location ++ [name]

theorem walk_cons_eq_ok_iff {fs : FileSystem} {location last : Location} {name : Text} {rest : List Text} :
    fs.walk location (name :: rest) = .ok last ↔
      fs.lookup location = some .directory ∧ fs.walk (enter location name) rest = .ok last := by
  rw [walk]
  cases fs.lookup location with
  | none => simp
  | some entry =>
    cases entry with
    | file content => simp
    | directory =>
      simp only [enter, true_and]
      split
      · rfl
      · split <;> rfl

theorem walk_append_eq_ok_iff {fs : FileSystem} {location last : Location} {first second : List Text} :
    fs.walk location (first ++ second) = .ok last ↔
      ∃ between, fs.walk location first = .ok between ∧ fs.walk between second = .ok last := by
  induction first generalizing location with
  | nil => simp [walk]
  | cons name rest ih => simp only [List.cons_append, walk_cons_eq_ok_iff, ih, and_assoc, exists_and_left]

def origin (fs : FileSystem) : PathStart → Location
  | .here => fs.current
  | .top | .doubleTop => []

theorem isPath_of_resolve {fs : FileSystem} {path : Text} {location : Location}
    (found : fs.resolve path = .ok location) :
    IsPath path := by
  by_contra bad
  obtain ⟨fault, stuck, -⟩ := resolve_of_not_isPath fs bad
  rw [stuck] at found
  cases found

def Solid (path : FilePath) : Prop := ∃ c part rest, path.parts = (c :: part) :: rest ∧ c ≠ FilePath.slash

theorem text_of_solid {path : FilePath} (solid : Solid path) :
    path.text = path.start.text ++ Text.join [FilePath.slash] path.parts := by
  obtain ⟨c, part, rest, parts, -⟩ := solid
  unfold FilePath.text
  rw [parts]
  cases path.start <;> rfl

/-- A path leads where its names lead, one after the other; a name that a slash was put into counts as several. -/
theorem resolve_text (fs : FileSystem) {path : FilePath} (good : IsPath path.text) (solid : Solid path) :
    fs.resolve path.text = fs.walk (fs.origin path.start) (path.parts.flatMap (Text.splitOn FilePath.slash)) := by
  have whole := text_of_solid solid
  obtain ⟨c, part, rest, parts, other⟩ := solid
  have pieces : Text.splitOn FilePath.slash (Text.join [FilePath.slash] path.parts) =
      path.parts.flatMap (Text.splitOn FilePath.slash) := Text.splitOn_join (by simp [parts])
  have head : (Text.join [FilePath.slash] path.parts).head? = some c := by
    rw [parts]
    cases rest <;> rfl
  have top : fs.lookup [] = some .directory := by simp [lookup]
  rw [resolve_of_isPath fs good, whole]
  cases path.start with
  | here => simp [PathStart.text, head, other, pieces, origin]
  | top =>
    have split : Text.splitOn FilePath.slash (FilePath.slash :: Text.join [FilePath.slash] path.parts) =
        [] :: path.parts.flatMap (Text.splitOn FilePath.slash) := by simp [Text.splitOn, pieces]
    have text : PathStart.top.text = [FilePath.slash] := rfl
    simp [text, split, origin, walk, top]
  | doubleTop =>
    have split : Text.splitOn FilePath.slash (FilePath.slash :: FilePath.slash :: Text.join [FilePath.slash]
      path.parts) =
        [] :: [] :: path.parts.flatMap (Text.splitOn FilePath.slash) := by simp [Text.splitOn, pieces]
    have text : PathStart.doubleTop.text = [FilePath.slash, FilePath.slash] := rfl
    simp [text, split, origin, walk, top]

theorem target_eq_ok_iff {fs : FileSystem} {path : Text} {location : Location} :
    fs.target path = .ok location ↔ fs.resolve path = .ok location ∧ fs.lookup location ≠ some .directory := by
  unfold target
  cases fs.resolve path with
  | error fault => simp
  | ok found =>
    simp only [Except.ok.injEq]
    split
    · rename_i directory
      simp only [reduceCtorEq, false_iff, not_and, not_not]
      rintro rfl
      exact directory
    · rename_i other
      constructor
      · rintro ⟨rfl⟩
        exact ⟨rfl, other⟩
      · rintro ⟨rfl, -⟩
        rfl

theorem read_eq_ok_iff {fs : FileSystem} {path : Text} {content : Bytes} :
    fs.read path = .ok content ↔ ∃ location, fs.resolve path = .ok location ∧
      fs.lookup location = some (.file content) := by
  unfold read find
  cases fs.resolve path with
  | error fault => simp
  | ok location =>
    simp only [Except.ok.injEq, exists_eq_left']
    cases fs.lookup location with
    | none => simp
    | some entry => cases entry <;> simp

theorem lookup_put (fs : FileSystem) {place : Location} (below : place ≠ []) (content : Bytes) (location : Location) :
    (fs.put place content).lookup location = if place = location then some (.file content) else fs.lookup location := by
  unfold lookup put
  by_cases top : location = []
  · simp [top, below]
  · simp [top, Entries.get?_set]

structure Alike (fs now : FileSystem) : Prop where
  current : now.current = fs.current
  directories : ∀ location, now.lookup location = some .directory ↔ fs.lookup location = some .directory

theorem Alike.trans {first second third : FileSystem} (before : Alike first second) (after : Alike second third) :
    Alike first third :=
  ⟨after.current.trans before.current, fun location => (after.directories location).trans (before.directories location)⟩

theorem alike_put {fs : FileSystem} {place : Location} (free : fs.lookup place ≠ some .directory) (content : Bytes) :
    Alike fs (fs.put place content) where
  current := rfl
  directories := by
    have below : place ≠ [] := by
      rintro rfl
      simp [lookup] at free
    intro location
    rw [lookup_put fs below]
    split
    · rename_i here
      simp [← here, free]
    · rfl

theorem Alike.walk_eq_ok_iff {fs now : FileSystem} (alike : Alike fs now) {location last : Location}
    {names : List Text} :
    now.walk location names = .ok last ↔ fs.walk location names = .ok last := by
  induction names generalizing location with
  | nil => simp only [walk]
  | cons name rest ih => simp only [walk_cons_eq_ok_iff, alike.directories, ih]

theorem Alike.resolve_eq_ok_iff {fs now : FileSystem} (alike : Alike fs now) {path : Text} {location : Location} :
    now.resolve path = .ok location ↔ fs.resolve path = .ok location := by
  by_cases good : IsPath path
  · simp only [resolve_of_isPath _ good, alike.current, alike.walk_eq_ok_iff]
  · have stuck (other : FileSystem) : other.resolve path ≠ .ok location := fun found => good (isPath_of_resolve found)
    simp only [stuck]

theorem Alike.target_congr {fs now : FileSystem} (alike : Alike fs now) {path : Text}
    (resolved : now.resolve path = fs.resolve path) : now.target path = fs.target path := by
  unfold target
  rw [resolved]
  cases fs.resolve path with
  | error fault => rfl
  | ok location =>
    have directories := alike.directories location
    dsimp only
    split <;> split <;> simp_all

theorem walk_congr {fs now : FileSystem} (same : ∀ location, now.lookup location = fs.lookup location)
    (location : Location) (names : List Text) : now.walk location names = fs.walk location names := by
  induction names generalizing location with
  | nil => rfl
  | cons name rest ih => simp only [walk, same, ih]

theorem Alike.resolve_congr {fs now : FileSystem} (alike : Alike fs now)
    (same : ∀ location, now.lookup location = fs.lookup location) (path : Text) :
    now.resolve path = fs.resolve path := by
  simp only [resolve, alike.current, walk_congr same]

theorem ne_nil_of_target {fs : FileSystem} {path : Text} {location : Location}
    (opened : fs.target path = .ok location) :
    location ≠ [] := by
  rintro rfl
  exact (target_eq_ok_iff.1 opened).2 (by simp [lookup])

theorem read_put {fs : FileSystem} {path : Text} {location : Location} (opened : fs.target path = .ok location)
    (content : Bytes) : (fs.put location content).read path = .ok content := by
  obtain ⟨resolved, free⟩ := target_eq_ok_iff.1 opened
  rw [read_eq_ok_iff]
  exact ⟨location, (alike_put free content).resolve_eq_ok_iff.2 resolved,
    by simp [lookup_put fs (ne_nil_of_target opened)]⟩

theorem resolve_eq_of_not_isPath (fs now : FileSystem) {path : Text} (bad : ¬ IsPath path) :
    now.resolve path = fs.resolve path := by
  obtain ⟨fault, -, stuck⟩ := stuck_of_not_isPath bad
  rw [stuck, stuck]

theorem read_congr {fs now : FileSystem} {path : Text} (resolved : now.resolve path = fs.resolve path)
    (same : ∀ location, fs.resolve path = .ok location → now.lookup location = fs.lookup location) :
    now.read path = fs.read path := by
  unfold read find
  rw [resolved]
  cases found : fs.resolve path with
  | error fault => rfl
  | ok location => simp only [same location found]

theorem flatMap_splitOn {names : List Text} (plain : ∀ name ∈ names, FilePath.slash ∉ name) :
    names.flatMap (Text.splitOn FilePath.slash) = names := by
  induction names with
  | nil => rfl
  | cons name rest ih =>
    have here := Text.splitOn_of_not_mem (plain name List.mem_cons_self)
    have later := ih fun other member => plain other (List.mem_cons_of_mem _ member)
    rw [List.flatMap_cons, here, later]
    rfl

theorem walk_idle {fs : FileSystem} {location last : Location} {name : Text} {rest : List Text}
    (idle : ∀ other ∈ name :: rest, other = [] ∨ other = ".") (walked : fs.walk location (name :: rest) = .ok last) :
    last = location ∧ fs.lookup location = some .directory := by
  induction rest generalizing name with
  | nil =>
    obtain ⟨directory, ends⟩ := walk_cons_eq_ok_iff.1 walked
    have stays : enter location name = location := by simp [enter, idle name List.mem_cons_self]
    rw [stays, walk, Except.ok.injEq] at ends
    exact ⟨ends.symm, directory⟩
  | cons next rest ih =>
    obtain ⟨directory, onwards⟩ := walk_cons_eq_ok_iff.1 walked
    have stays : enter location name = location := by simp [enter, idle name List.mem_cons_self]
    rw [stays] at onwards
    exact ih (fun other member => idle other (List.mem_cons_of_mem _ member)) onwards

section Output

variable {fs : FileSystem} {source output : FilePath} {ending : Text}

theorem solid_of_normal (normal : source.Normal) (named : source.name ≠ []) : Solid source := by
  have parts := FilePath.parts_eq named
  have filled : source.parts ≠ [] := by
    rw [parts]
    simp
  obtain ⟨first, rest, split⟩ := List.exists_cons_of_ne_nil filled
  obtain ⟨full, -, plain⟩ := normal first (by rw [split]; exact List.mem_cons_self)
  obtain ⟨c, part, whole⟩ := List.exists_cons_of_ne_nil full
  refine ⟨c, part, rest, by rw [split, whole], ?_⟩
  rintro rfl
  exact plain (by rw [whole]; exact List.mem_cons_self)

theorem solid_of_withName (normal : source.Normal) (named : source.withName (source.name ++ ending) = .ok output) :
    Solid output := by
  have nameful := FilePath.name_ne_nil_of_withName named
  have solid := solid_of_normal normal nameful
  have parts := FilePath.parts_eq nameful
  obtain ⟨c, part, rest, split, other⟩ := solid
  obtain ⟨-, rfl⟩ := FilePath.withName_eq_ok named
  cases parents : source.parts.dropLast with
  | nil =>
    rw [parents, List.nil_append, split] at parts
    obtain ⟨name, -⟩ := List.cons.inj parts
    exact ⟨c, part ++ ending, [], by simp [← name], other⟩
  | cons first later =>
    rw [parents, split] at parts
    obtain ⟨name, -⟩ := List.cons.inj parts
    exact ⟨c, part, later ++ [source.name ++ ending], by simp [← name], other⟩

theorem resolve_source_eq_ok_iff (good : IsPath source.text) (normal : source.Normal) (named : source.name ≠ [])
    {location : Location} :
    fs.resolve source.text = .ok location ↔ ∃ parent,
      fs.walk (fs.origin source.start) source.parts.dropLast = .ok parent ∧
      fs.lookup parent = some .directory ∧ location = enter parent source.name := by
  have plain : ∀ name ∈ source.parts, FilePath.slash ∉ name := fun name member => (normal name member).2.2
  have last (parent : Location) : fs.walk parent [source.name] = .ok location ↔
      fs.lookup parent = some .directory ∧ location = enter parent source.name := by
    rw [walk_cons_eq_ok_iff, walk, Except.ok.injEq, eq_comm (a := location)]
  rw [resolve_text fs good (solid_of_normal normal named), flatMap_splitOn plain, FilePath.parts_eq named,
    walk_append_eq_ok_iff, List.dropLast_concat]
  simp only [last]

theorem append_ne_dots {name : Text} (filled : name ≠ []) (dotless : name ≠ ".") (more : Text) :
    name ++ more ≠ [] ∧ name ++ more ≠ "." ∧ (more ≠ [] → name ++ more ≠ "..") := by
  obtain ⟨c, rest, rfl⟩ := List.exists_cons_of_ne_nil filled
  refine ⟨by simp, ?_, ?_⟩
  · intro same
    obtain ⟨head, tail⟩ := List.cons.inj same
    exact dotless (by rw [head, (List.append_eq_nil_iff.1 tail).1]; rfl)
  · intro grown same
    obtain ⟨head, tail⟩ := List.cons.inj same
    rcases List.append_eq_singleton_iff.1 tail with ⟨short, -⟩ | ⟨-, none⟩
    · exact dotless (by rw [head, short]; rfl)
    · exact grown none

theorem idle_of_isName {name first : Text} {rest : List Text} (single : FilePath.isName name)
    (split : Text.splitOn FilePath.slash name = first :: rest) (filled : first ≠ []) (dotless : first ≠ ".") :
    ∀ other ∈ rest, other = [] ∨ other = "." := by
  simp only [FilePath.isName, Bool.and_eq_true, decide_eq_true_eq] at single
  have one := single.2
  simp only [FilePath.names] at one
  change (List.filter _ (Text.splitOn FilePath.slash name)).length = 1 at one
  simp only [split, List.filter_cons, filled, dotless, ne_eq, not_false_eq_true, decide_true, Bool.and_self, if_true,
    List.length_cons, Nat.add_eq_right, List.length_eq_zero_iff, List.filter_eq_nil_iff] at one
  intro other member
  by_contra kept
  rw [not_or] at kept
  exact one other member (by simp [kept])

theorem splitOn_output (normal : source.Normal) (named : source.withName (source.name ++ ending) = .ok output) :
    output.parts.flatMap (Text.splitOn FilePath.slash) =
      source.parts.dropLast ++ Text.splitOn FilePath.slash (source.name ++ ending) := by
  obtain ⟨-, rfl⟩ := FilePath.withName_eq_ok named
  have before : source.parts.dropLast.flatMap (Text.splitOn FilePath.slash) = source.parts.dropLast :=
    flatMap_splitOn fun name member => (normal name (List.dropLast_subset _ member)).2.2
  rw [List.flatMap_append, before, List.flatMap_singleton]

theorem start_output (named : source.withName (source.name ++ ending) = .ok output) : output.start = source.start := by
  obtain ⟨-, rfl⟩ := FilePath.withName_eq_ok named
  rfl

/-- An output whose ending has a slash in it cannot be opened: behind the slash there is nothing but empty names and
dots, which only a directory lets pass. -/
theorem slash_not_mem_of_target (normal : source.Normal) (named : source.withName (source.name ++ ending) = .ok output)
    {location : Location} (found : fs.target output.text = .ok location) : FilePath.slash ∉ ending := by
  intro inside
  obtain ⟨resolved, free⟩ := target_eq_ok_iff.1 found
  rw [resolve_text fs (isPath_of_resolve resolved) (solid_of_withName normal named), splitOn_output normal named,
    walk_append_eq_ok_iff] at resolved
  obtain ⟨parent, -, onwards⟩ := resolved
  obtain ⟨filled, dotless, plain⟩ := normal source.name (FilePath.name_mem_of_withName named)
  obtain ⟨front, back, rfl⟩ := List.append_of_mem inside
  obtain ⟨first, rest, head⟩ := List.exists_cons_of_ne_nil (Text.splitOn_ne_nil FilePath.slash front)
  obtain ⟨next, others, tail⟩ := List.exists_cons_of_ne_nil (Text.splitOn_ne_nil FilePath.slash back)
  have split : Text.splitOn FilePath.slash (source.name ++ (front ++ FilePath.slash :: back)) =
      (source.name ++ first) :: (rest ++ next :: others) := by
    apply Text.splitOn_append_of_not_mem plain
    rw [Text.splitOn_append_cons, head, tail, List.cons_append]
  obtain ⟨full, dot, -⟩ := append_ne_dots filled dotless first
  have idle := idle_of_isName (FilePath.withName_eq_ok named).1 split full dot
  have behind : rest ++ next :: others ≠ [] := List.append_ne_nil_of_right_ne_nil rest (List.cons_ne_nil next others)
  obtain ⟨second, more, whole⟩ := List.exists_cons_of_ne_nil behind
  rw [split, walk_cons_eq_ok_iff] at onwards
  rw [whole] at idle onwards
  obtain ⟨rfl, directory⟩ := walk_idle idle onwards.2
  exact free directory

theorem resolve_output_eq_ok_iff (good : IsPath output.text) (normal : source.Normal) (nonempty : ending ≠ [])
    (single : FilePath.slash ∉ ending) (named : source.withName (source.name ++ ending) = .ok output)
    {location : Location} :
    fs.resolve output.text = .ok location ↔ ∃ parent,
      fs.walk (fs.origin source.start) source.parts.dropLast = .ok parent ∧
      fs.lookup parent = some .directory ∧ location = parent ++ [source.name ++ ending] := by
  obtain ⟨filled, dotless, plain⟩ := normal source.name (FilePath.name_mem_of_withName named)
  obtain ⟨full, dot, dots⟩ := append_ne_dots filled dotless ending
  have split : Text.splitOn FilePath.slash (source.name ++ ending) = [source.name ++ ending] := by
    apply Text.splitOn_of_not_mem
    simp [plain, single]
  have last (parent : Location) : fs.walk parent [source.name ++ ending] = .ok location ↔
      fs.lookup parent = some .directory ∧ location = parent ++ [source.name ++ ending] := by
    have enters : enter parent (source.name ++ ending) = parent ++ [source.name ++ ending] := by
      simp [enter, full, dot, dots nonempty]
    rw [walk_cons_eq_ok_iff, walk, Except.ok.injEq, enters, eq_comm (a := location)]
  rw [resolve_text fs good (solid_of_withName normal named), splitOn_output normal named, start_output named, split,
    walk_append_eq_ok_iff]
  simp only [last]

theorem target_output (normal : source.Normal) (nonempty : ending ≠ [])
    (named : source.withName (source.name ++ ending) = .ok output) {location : Location}
    (found : fs.target output.text = .ok location) :
    ∃ parent, fs.walk (fs.origin source.start) source.parts.dropLast = .ok parent ∧
      fs.lookup parent = some .directory ∧ location = parent ++ [source.name ++ ending] := by
  have single := slash_not_mem_of_target normal named found
  obtain ⟨resolved, -⟩ := target_eq_ok_iff.1 found
  exact (resolve_output_eq_ok_iff (isPath_of_resolve resolved) normal nonempty single named).1 resolved

/-- However a source is written, its output is another file. -/
theorem resolve_ne_target (normal : source.Normal) (nonempty : ending ≠ [])
    (named : source.withName (source.name ++ ending) = .ok output) {location other : Location}
    (found : fs.resolve source.text = .ok location) (opened : fs.target output.text = .ok other) :
    location ≠ other := by
  have nameful := FilePath.name_ne_nil_of_withName named
  obtain ⟨parent, walked, -, rfl⟩ := (resolve_source_eq_ok_iff (isPath_of_resolve found) normal nameful).1 found
  obtain ⟨parent', walked', -, rfl⟩ := target_output normal nonempty named opened
  rw [walked, Except.ok.injEq] at walked'
  subst walked'
  obtain ⟨filled, dotless, -⟩ := normal source.name (FilePath.name_mem_of_withName named)
  intro same
  unfold enter at same
  split at same
  · simpa using congrArg List.length same
  · split at same
    · have lengths := congrArg List.length same
      simp only [List.length_dropLast, List.length_append, List.length_singleton] at lengths
      omega
    · have names := List.append_cancel_left same
      simp [nonempty] at names

end Output

end FileSystem

end SchemaUnnest
