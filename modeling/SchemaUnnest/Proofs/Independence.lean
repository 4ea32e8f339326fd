import SchemaUnnest.Proofs.Outputs

namespace SchemaUnnest

namespace FilePath

def Plain (path : FilePath) : Prop := path.Normal ∧ Text.ofString ".." ∉ path.parts

instance (path : FilePath) : Decidable path.Plain :=
  inferInstanceAs (Decidable (path.Normal ∧ Text.ofString ".." ∉ path.parts))

end FilePath

namespace FileSystem

def place (fs : FileSystem) (path : FilePath) : Location := fs.origin path.start ++ path.parts

theorem walk_plain {fs : FileSystem} {location last : Location} {names : List Text}
    (plain : ∀ name ∈ names, name ≠ [] ∧ name ≠ "." ∧ name ≠ "..") (walked : fs.walk location names = .ok last) :
    last = location ++ names := by
  induction names generalizing location with
  | nil =>
    cases walked
    simp
  | cons name rest ih =>
    obtain ⟨filled, dotless, straight⟩ := plain name List.mem_cons_self
    obtain ⟨-, onwards⟩ := walk_cons_eq_ok_iff.1 walked
    have whole := ih (fun other member => plain other (List.mem_cons_of_mem _ member)) onwards
    simpa [enter, filled, dotless, straight] using whole

theorem resolve_nameless (fs : FileSystem) {path : FilePath} (nameless : path.parts = []) {location : Location}
    (found : fs.resolve path.text = .ok location) : location = fs.origin path.start := by
  rw [resolve_of_isPath fs (isPath_of_resolve found)] at found
  obtain ⟨start, parts⟩ := path
  obtain rfl : parts = [] := nameless
  have idle : ∀ name ∈ Text.splitOn FilePath.slash (FilePath.text ⟨start, []⟩), name = [] ∨ name = "." := by
    cases start <;> decide
  obtain ⟨first, rest, split⟩ :=
    List.exists_cons_of_ne_nil (Text.splitOn_ne_nil FilePath.slash (FilePath.text ⟨start, []⟩))
  rw [split] at found idle
  rw [(walk_idle idle found).1]
  cases start <;> rfl

theorem resolve_plain {fs : FileSystem} {path : FilePath} (plain : path.Plain) {location : Location}
    (found : fs.resolve path.text = .ok location) : location = fs.place path := by
  by_cases nameless : path.parts = []
  · rw [place, nameless, List.append_nil]
    exact resolve_nameless fs nameless found
  · have named : path.name ≠ [] := by
      have last := List.getLast_mem nameless
      rw [FilePath.name, List.getLast?_eq_some_getLast nameless]
      exact (plain.1 _ last).1
    have single : ∀ name ∈ path.parts, FilePath.slash ∉ name := fun name member => (plain.1 name member).2.2
    rw [resolve_text fs (isPath_of_resolve found) (solid_of_normal plain.1 named), flatMap_splitOn single] at found
    apply walk_plain _ found
    intro name member
    obtain ⟨filled, dotless, -⟩ := plain.1 name member
    refine ⟨filled, dotless, ?_⟩
    rintro rfl
    exact plain.2 member

end FileSystem

theorem Document.read_of_readText {fs : FileSystem} {path text : Text} (h : readText fs path = .ok text) :
    ∃ content, fs.read path = .ok content := by
  cases found : fs.read path with
  | error fault => simp [readText, found] at h
  | ok content => exact ⟨content, rfl⟩

namespace Batch

open FileSystem

section Independence

variable {settings : Settings} {fs now : FileSystem} {source : FilePath}

theorem load_congr (same : now.read source.text = fs.read source.text) :
    (settings.load now source).1 = (settings.load fs source).1 := by
  simp only [Document.load, Document.readText, same]

theorem load_of_stuck (good : IsPath source.text) {fault : FileFault} (stuck : fs.resolve source.text = .error fault) :
    (settings.load fs source).1 = .ok ⟨source, none⟩ := by
  have refusal := isRefusal_of_resolve good stuck
  simp [Document.load, Document.readText, FileSystem.read, find, stuck, refusal]

def Writes (settings : Settings) (fs : FileSystem) (source : FilePath) (location : Location) (content : Bytes) : Prop :=
  ∃ root path, Prepares settings fs source root path ∧ fs.target path.text = .ok location ∧
    content = (Utf8.encode (rendering settings root)).toOption.getD []

/-- While the file and its output are as they were at the beginning, what comes of the work is what would have come of
it then, and is put where it would have been. -/
theorem Outcome.transport {result : Except BatchFault FileResult} {after : FileSystem}
    (outcome : Outcome settings fs source result after)
    (loaded : (settings.load now source).1 = (settings.load fs source).1)
    (opens : ∀ root path, Prepares settings fs source root path → now.target path.text = fs.target path.text) :
    (Outcome settings now source result now ∧ ∀ location content, ¬ Writes settings fs source location content) ∨
      ∃ location content, Writes settings fs source location content ∧
        Outcome settings now source result (now.put location content) := by
  have prepares {root path} (prepared : Prepares settings fs source root path) :
    Prepares settings now source root path :=
    ⟨by rw [loaded, prepared.loaded], prepared.ends, prepared.named⟩
  by_cases writes : ∃ location content, Writes settings fs source location content
  · obtain ⟨location, content, writes⟩ := writes
    refine .inr ⟨location, content, writes, ?_⟩
    obtain ⟨root, path, prepared, opened, rfl⟩ := writes
    have opened' := (opens root path prepared).trans opened
    cases encoded : Utf8.encode (rendering settings root) with
    | error fault =>
      rw [← outcome.runOne.1, (Outcome.unencodable prepared opened encoded).runOne.1]
      exact .unencodable (prepares prepared) opened' encoded
    | ok content =>
      rw [← outcome.runOne.1, (Outcome.written prepared opened encoded).runOne.1]
      exact .written (prepares prepared) opened' encoded
  · have nothing : ∀ location content, ¬ Writes settings fs source location content :=
      fun location content here => writes ⟨location, content, here⟩
    cases outcome with
    | unloaded unread => exact .inl ⟨.unloaded (loaded.trans unread), nothing⟩
    | rootless empty => exact .inl ⟨.rootless (loaded.trans empty), nothing⟩
    | unrecorded held stops => exact .inl ⟨.unrecorded (loaded.trans held) stops, nothing⟩
    | tooDeep held stops => exact .inl ⟨.tooDeep (loaded.trans held) stops, nothing⟩
    | unnamed held ends named => exact .inl ⟨.unnamed (loaded.trans held) ends named, nothing⟩
    | refused prepared closed refusal =>
      exact .inl ⟨.refused (prepares prepared) ((opens _ _ prepared).trans closed) refusal, nothing⟩
    | unusable prepared closed fatal =>
      exact .inl ⟨.unusable (prepares prepared) ((opens _ _ prepared).trans closed) fatal, nothing⟩
    | unencodable prepared opened | written prepared opened =>
      exact (nothing _ _ ⟨_, _, prepared, opened, rfl⟩).elim

theorem Writes.place {location : Location} {content : Bytes} (writes : Writes settings fs source location content)
    (plain : source.Plain) (nonempty : settings.ending ≠ []) :
    ∃ path, source.withName (source.name ++ settings.ending) = .ok path ∧ location = fs.place path ∧
      location = fs.origin source.start ++ source.parts.dropLast ++ [source.name ++ settings.ending] := by
  obtain ⟨root, path, prepared, opened, -⟩ := writes
  obtain ⟨parent, walked, -, rfl⟩ := target_output plain.1 nonempty prepared.named opened
  have straight : parent = fs.origin source.start ++ source.parts.dropLast := by
    refine walk_plain ?_ walked
    intro name member
    have inside := List.dropLast_subset _ member
    obtain ⟨filled, dotless, -⟩ := plain.1 name inside
    refine ⟨filled, dotless, ?_⟩
    rintro rfl
    exact plain.2 inside
  refine ⟨path, prepared.named, ?_, by rw [straight]⟩
  obtain ⟨-, rfl⟩ := FilePath.withName_eq_ok prepared.named
  rw [FileSystem.place, straight, List.append_assoc]

theorem Writes.free {location : Location} {content : Bytes} (writes : Writes settings fs source location content) :
    location ≠ [] ∧ fs.lookup location ≠ some .directory := by
  obtain ⟨root, path, -, opened, -⟩ := writes
  exact ⟨ne_nil_of_target opened, (target_eq_ok_iff.1 opened).2⟩

theorem Holds.unique {root other : Json} {twin : FilePath} (plain : source.Plain) (plain' : twin.Plain)
    (same : fs.place source = fs.place twin) (held : Holds settings fs source root)
    (again : Holds settings fs twin other) : root = other := by
  obtain ⟨text, read, parsed⟩ := held
  obtain ⟨text', read', parsed'⟩ := again
  obtain ⟨content, found⟩ := Document.read_of_readText read
  obtain ⟨content', found'⟩ := Document.read_of_readText read'
  obtain ⟨location, resolved, stands⟩ := read_eq_ok_iff.1 found
  obtain ⟨location', resolved', stands'⟩ := read_eq_ok_iff.1 found'
  rw [resolve_plain plain resolved, same, ← resolve_plain plain' resolved', stands'] at stands
  cases stands
  have texts : Document.readText fs twin.text = Document.readText fs source.text := by
    simp only [Document.readText, found, found']
  rw [texts, read, Except.ok.injEq] at read'
  subst read'
  rw [parsed, Except.ok.injEq] at parsed'
  exact parsed'

theorem Writes.unique {location : Location} {content other : Bytes} {twin : FilePath} (plain : source.Plain)
    (plain' : twin.Plain) (nonempty : settings.ending ≠ []) (writes : Writes settings fs source location content)
    (again : Writes settings fs twin location other) : content = other := by
  obtain ⟨-, -, -, spot⟩ := writes.place plain nonempty
  obtain ⟨-, -, -, spot'⟩ := again.place plain' nonempty
  obtain ⟨root, path, prepared, -, rfl⟩ := writes
  obtain ⟨root', path', prepared', -, rfl⟩ := again
  rw [spot] at spot'
  obtain ⟨parents, names⟩ := List.append_inj' spot' rfl
  have name : source.name = twin.name := List.append_cancel_right (List.singleton_inj.1 names)
  have same : fs.place source = fs.place twin := by
    rw [FileSystem.place, FileSystem.place, FilePath.parts_eq (FilePath.name_ne_nil_of_withName prepared.named),
      FilePath.parts_eq (FilePath.name_ne_nil_of_withName prepared'.named), name, ← List.append_assoc, parents,
      List.append_assoc]
  rw [Holds.unique plain plain' same (load_eq_ok_iff.1 prepared.loaded) (load_eq_ok_iff.1 prepared'.loaded)]

structure Reached (settings : Settings) (fs : FileSystem) (done : List FilePath) (now : FileSystem) : Prop where
  alike : Alike fs now
  written : ∀ source ∈ done, ∀ location content, Writes settings fs source location content →
    now.lookup location = some (.file content)
  kept : ∀ location, (∀ source ∈ done, ∀ content, ¬ Writes settings fs source location content) →
    now.lookup location = fs.lookup location

theorem reached_refl (settings : Settings) (fs : FileSystem) : Reached settings fs [] fs :=
  ⟨⟨rfl, fun _ => Iff.rfl⟩, by simp, fun _ _ => rfl⟩

/-- No source is the output of a source. -/
structure Independent (settings : Settings) (fs : FileSystem) (sources : List FilePath) : Prop where
  plain : ∀ source ∈ sources, source.Plain
  apart : ∀ source ∈ sources, ∀ other ∈ sources, ∀ output,
    other.withName (other.name ++ settings.ending) = .ok output → fs.place source ≠ fs.place output

theorem Independent.subset {sources few : List FilePath} (independent : Independent settings fs sources)
    (inside : few ⊆ sources) : Independent settings fs few :=
  ⟨fun source member => independent.plain source (inside member),
    fun source member other member' => independent.apart source (inside member) other (inside member')⟩

/-- Paths that start at one place differ just if they spell different locations. -/
theorem independent_of_ne {sources : List FilePath} {start : PathStart} (plain : ∀ source ∈ sources, source.Plain)
    (starts : ∀ source ∈ sources, source.start = start)
    (apart : ∀ source ∈ sources, ∀ other ∈ sources, other.withName (other.name ++ settings.ending) ≠ .ok source) :
    Independent settings fs sources := by
  refine ⟨plain, ?_⟩
  intro source member other member' output named same
  apply apart source member other member'
  rw [FileSystem.place, FileSystem.place, start_output named, starts source member, starts other member'] at same
  have parts : source.parts = output.parts := List.append_cancel_left same
  have start' : output.start = source.start := by rw [start_output named, starts source member, starts other member']
  rw [named, Except.ok.injEq]
  cases source
  cases output
  cases parts
  cases start'
  rfl

variable {done : List FilePath}

theorem Reached.load (reached : Reached settings fs done now) (nonempty : settings.ending ≠ [])
    (independent : Independent settings fs (source :: done)) :
    (settings.load now source).1 = (settings.load fs source).1 := by
  by_cases good : IsPath source.text
  · cases resolved : fs.resolve source.text with
    | ok location =>
      have spot := resolve_plain (independent.plain source List.mem_cons_self) resolved
      have same : now.lookup location = fs.lookup location := by
        apply reached.kept
        intro other member content writes
        have inside := List.mem_cons_of_mem source member
        obtain ⟨path, named, here, -⟩ := writes.place (independent.plain other inside) nonempty
        exact independent.apart source List.mem_cons_self other inside path named (spot.symm.trans here)
      apply load_congr
      apply read_congr (by rw [resolved]; exact reached.alike.resolve_eq_ok_iff.2 resolved)
      intro location' resolved'
      rw [resolved] at resolved'
      cases resolved'
      exact same
    | error fault =>
      -- the file may be out of reach for another reason now, but out of reach it is
      cases resolved' : now.resolve source.text with
      | ok location =>
        rw [reached.alike.resolve_eq_ok_iff.1 resolved'] at resolved
        cases resolved
      | error fault' => rw [load_of_stuck good resolved, load_of_stuck good resolved']
  · apply load_congr
    apply read_congr (resolve_eq_of_not_isPath fs now good)
    intro location found
    exact absurd (isPath_of_resolve found) good

theorem Reached.target (reached : Reached settings fs done now) (nonempty : settings.ending ≠ [])
    (independent : Independent settings fs (source :: done)) {root : Json} {path : FilePath}
    (prepared : Prepares settings fs source root path) : now.target path.text = fs.target path.text := by
  apply reached.alike.target_congr
  have normal := (independent.plain source List.mem_cons_self).1
  by_cases good : IsPath path.text
  · by_cases single : FilePath.slash ∈ settings.ending
    · -- no output can be opened, so nothing has been written
      apply reached.alike.resolve_congr
      intro location
      apply reached.kept
      rintro other member content ⟨root', path', prepared', opened, -⟩
      have normal' := (independent.plain other (List.mem_cons_of_mem source member)).1
      exact slash_not_mem_of_target normal' prepared'.named opened single
    · obtain ⟨text, read, -⟩ := load_eq_ok_iff.1 prepared.loaded
      obtain ⟨content, found⟩ := Document.read_of_readText read
      obtain ⟨location, resolved, -⟩ := read_eq_ok_iff.1 found
      have nameful := FilePath.name_ne_nil_of_withName prepared.named
      obtain ⟨parent, walked, directory, -⟩ :=
        (resolve_source_eq_ok_iff (isPath_of_resolve resolved) normal nameful).1 resolved
      have output := (resolve_output_eq_ok_iff good normal nonempty single prepared.named).2 ⟨parent, walked,
        directory, rfl⟩
      rw [output]
      exact reached.alike.resolve_eq_ok_iff.2 output
  · exact resolve_eq_of_not_isPath fs now good

theorem Reached.step (reached : Reached settings fs done now) (nonempty : settings.ending ≠ [])
    (independent : Independent settings fs (source :: done)) :
    (runOne settings now source).result = (runOne settings fs source).result ∧
      Reached settings fs (source :: done) (runOne settings now source).fs := by
  have plain := independent.plain source List.mem_cons_self
  have loaded := reached.load nonempty independent
  have opens : ∀ root path, Prepares settings fs source root path → now.target path.text = fs.target path.text :=
    fun root path => reached.target nonempty independent
  rcases (outcome_runOne settings fs source).transport loaded opens with
    ⟨same, unwritten⟩ | ⟨location, content, writes, same⟩
  · obtain ⟨result, left⟩ := same.runOne
    rw [left]
    refine ⟨result, reached.alike, ?_, ?_⟩
    · intro other member location content writes
      rcases List.mem_cons.1 member with rfl | member
      · exact absurd writes (unwritten location content)
      · exact reached.written other member location content writes
    · intro location none
      exact reached.kept location fun other member => none other (List.mem_cons_of_mem source member)
  · obtain ⟨result, left⟩ := same.runOne
    obtain ⟨below, free⟩ := writes.free
    have free' := mt (reached.alike.directories location).1 free
    rw [left]
    refine ⟨result, reached.alike.trans (alike_put free' content), ?_, ?_⟩
    · intro other member spot held writes'
      rw [lookup_put now below]
      split
      · rename_i here
        subst here
        rw [writes.unique plain (independent.plain other member) nonempty writes']
      · rename_i elsewhere
        rcases List.mem_cons.1 member with rfl | member
        · obtain ⟨-, -, -, first⟩ := writes.place plain nonempty
          obtain ⟨-, -, -, second⟩ := writes'.place plain nonempty
          exact absurd (first.trans second.symm) elsewhere
        · exact reached.written other member spot held writes'
    · intro spot none
      rw [lookup_put now below]
      split
      · rename_i here
        subst here
        exact absurd writes (none source List.mem_cons_self content)
      · exact reached.kept spot fun other member => none other (List.mem_cons_of_mem source member)

theorem Reached.run {report : FilePath → FileResult} {rest : List FilePath} (reached : Reached settings fs done now)
    (nonempty : settings.ending ≠ []) (independent : Independent settings fs (rest ++ done))
    (each : ∀ source ∈ rest, (runOne settings fs source).result = .ok (report source)) :
    (runEach settings now rest).result = .ok (rest.map report) ∧
      Reached settings fs (rest.reverse ++ done) (runEach settings now rest).fs := by
  induction rest generalizing now done with
  | nil => exact ⟨rfl, reached⟩
  | cons source rest ih =>
    have here : Independent settings fs (source :: done) :=
      independent.subset (List.cons_subset_cons source (List.subset_append_right rest done))
    obtain ⟨same, later⟩ := reached.step nonempty here
    rw [each source List.mem_cons_self] at same
    obtain ⟨results, left⟩ := ih later (independent.subset List.perm_middle.subset) fun other member =>
      each other (List.mem_cons_of_mem source member)
    rw [runEach, List.reverse_cons, List.append_assoc]
    simp only [same, results]
    exact ⟨rfl, left⟩

theorem Reached.returns {rest : List FilePath} {results : List FileResult} (reached : Reached settings fs done now)
    (nonempty : settings.ending ≠ []) (independent : Independent settings fs (rest ++ done))
    (returned : (runEach settings now rest).result = .ok results) :
    ∀ source ∈ rest, ∃ result, (runOne settings fs source).result = .ok result := by
  induction rest generalizing now done results with
  | nil => simp
  | cons first rest ih =>
    have here : Independent settings fs (first :: done) :=
      independent.subset (List.cons_subset_cons first (List.subset_append_right rest done))
    obtain ⟨same, later⟩ := reached.step nonempty here
    rw [runEach, same] at returned
    intro source member
    cases done : (runOne settings fs first).result with
    | error fault => simp [done] at returned
    | ok result =>
      cases behind : (runEach settings (runOne settings now first).fs rest).result with
      | error fault => simp [done, behind, Except.map] at returned
      | ok others =>
        rcases List.mem_cons.1 member with rfl | member
        · exact ⟨result, done⟩
        · exact ih later (independent.subset List.perm_middle.subset) behind source member

theorem Reached.lookup_congr {done' : List FilePath} {now' : FileSystem} (reached : Reached settings fs done now)
    (again : Reached settings fs done' now') (members : ∀ source, source ∈ done' ↔ source ∈ done)
    (location : Location) :
    now'.lookup location = now.lookup location := by
  by_cases touched : ∃ source ∈ done, ∃ content, Writes settings fs source location content
  · obtain ⟨source, member, content, writes⟩ := touched
    rw [reached.written source member location content writes,
      again.written source ((members source).2 member) location content writes]
  · have untouched : ∀ source ∈ done, ∀ content, ¬ Writes settings fs source location content := by
      intro source member content writes
      exact touched ⟨source, member, content, writes⟩
    rw [reached.kept location untouched,
      again.kept location fun source member => untouched source ((members source).1 member)]

end Independence
end Batch

namespace Sanitizer

open Batch FileSystem

theorem sanitizeFiles_order_free {s other : Sanitizer} (same : other.settings = s.settings)
    (nonempty : s.settings.ending ≠ []) {readings readings' : Nat → Readings}
    (usable : s.meter.isSome → ∀ place, (readings place).Usable)
    (usable' : other.meter.isSome → ∀ place, (readings' place).Usable) {fs : FileSystem}
    {sources others : List FilePath} (independent : Independent s.settings fs sources)
    (members : ∀ source, source ∈ others ↔ source ∈ sources) {results : List FileResult}
    (returned : (s.sanitizeFiles readings fs sources).work.result = .ok results) :
    ∃ report : FilePath → FileResult, results = sources.map report ∧
      (other.sanitizeFiles readings' fs others).work.result = .ok (others.map report) ∧
      (other.sanitizeFiles readings' fs others).work.fs.current =
        (s.sanitizeFiles readings fs sources).work.fs.current ∧
      ∀ location, (other.sanitizeFiles readings' fs others).work.fs.lookup location =
        (s.sanitizeFiles readings fs sources).work.fs.lookup location := by
  obtain ⟨result, left⟩ := work_sanitizeFiles usable fs sources
  obtain ⟨result', left'⟩ := work_sanitizeFiles usable' fs others
  rw [same] at result' left'
  rw [result] at returned
  have begins := reached_refl s.settings fs
  have each := begins.returns nonempty (independent.subset (by simp)) returned
  have : Nonempty FileResult := ⟨.nothingFound (.ofText [])⟩
  choose! report told using each
  have told' : ∀ source ∈ others, (runOne s.settings fs source).result = .ok (report source) :=
    fun source member => told source ((members source).1 member)
  obtain ⟨done, reached⟩ := begins.run nonempty (independent.subset (by simp)) told
  have inside : others ++ [] ⊆ sources := by
    rw [List.append_nil]
    intro source
    exact (members source).1
  obtain ⟨done', reached'⟩ := begins.run nonempty (independent.subset inside) told'
  refine ⟨report, ?_, ?_, ?_, ?_⟩
  · rw [done, Except.ok.injEq] at returned
    exact returned.symm
  · rw [result', done']
  · rw [left, left', reached.alike.current, reached'.alike.current]
  · intro location
    rw [left, left']
    exact reached.lookup_congr reached' (by simpa using members) location

def scatteredFiles : FileSystem :=
  ⟨[([Text.ofString "a.json"], fileOf "\x7b\"properties\":\x7b\"p\":\x7b\"properties\":\x7b\x7d\x7d\x7d\x7d"),
    ([Text.ofString "d"], .directory), ([Text.ofString "d", Text.ofString "b.json"], fileOf "\x7b\x7d")], []⟩

def scatteredSources : List FilePath := [.ofText "a.json", .ofText "d/b.json", .ofText "c.json"]

theorem independent_scatteredSources : Independent standard scatteredFiles scatteredSources := by
  have starts : ∀ source ∈ scatteredSources, source.start = .here := by decide
  exact independent_of_ne (by decide) starts (by decide)

theorem sanitizeFiles_order_free_scatteredSources :
    Independent standard scatteredFiles scatteredSources ∧
      ∃ results, ((fresh standard true).sanitizeFiles steadyReadings scatteredFiles scatteredSources).work.result =
          .ok results ∧
        ∃ report : FilePath → FileResult, results = scatteredSources.map report ∧
          ((fresh standard false).sanitizeFiles steadyReadings scatteredFiles
            (scatteredSources.reverse ++ scatteredSources)).work.result =
              .ok ((scatteredSources.reverse ++ scatteredSources).map report) := by
  have same : (fresh standard false).settings = (fresh standard true).settings := rfl
  have nonempty : (fresh standard true).settings.ending ≠ [] := by decide
  have usable (metered : Bool) : (fresh standard metered).meter.isSome → ∀ place, (steadyReadings place).Usable :=
    fun _ => usable_steadyReadings
  have returned : ((fresh standard true).sanitizeFiles steadyReadings scatteredFiles
    scatteredSources).work.result.isOk := by
    decide +kernel
  have members : ∀ source, source ∈ scatteredSources.reverse ++ scatteredSources ↔ source ∈ scatteredSources := by simp
  obtain ⟨results, found⟩ := exists_eq_ok returned
  obtain ⟨report, told, again, -⟩ := sanitizeFiles_order_free same nonempty (usable true) (usable false)
    independent_scatteredSources members found
  exact ⟨independent_scatteredSources, results, found, report, told, again⟩

end Sanitizer
end SchemaUnnest
