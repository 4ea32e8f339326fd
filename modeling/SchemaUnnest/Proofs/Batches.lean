import Mathlib.Data.List.TakeWhile
import SchemaUnnest.Proofs.Readable
import SchemaUnnest.Proofs.Passes
import SchemaUnnest.Sanitizer

namespace SchemaUnnest

def FilePath.slash : CodePoint := '/'

namespace FileSystem

def IsPath (path : Text) : Prop := ∀ c ∈ path, c.value ≠ 0 ∧ (c.isSurrogate → standsForOctet c)

instance (path : Text) : Decidable (IsPath path) :=
  inferInstanceAs (Decidable (∀ c ∈ path, c.value ≠ 0 ∧ (c.isSurrogate → standsForOctet c)))

theorem unencodable?_eq_none_iff {path : Text} :
    unencodable? path = none ↔ ∀ c ∈ path, c.isSurrogate → standsForOctet c := by
  have fits : ∀ c : CodePoint, (!c.isSurrogate || standsForOctet c) ↔ (c.isSurrogate → standsForOctet c) := by
    intro c
    cases c.isSurrogate <;> simp
  simp only [← fits, ← List.dropWhile_eq_nil_iff, unencodable?]
  split <;> simp_all

theorem isRefusal_of_walk {fs : FileSystem} {location : Location} {names : List Text} {fault : FileFault}
    (h : fs.walk location names = .error fault) : fault.isRefusal := by
  induction names generalizing location with
  | nil => cases h
  | cons name rest ih =>
    unfold walk at h
    split at h
    · cases h
      rfl
    · cases h
      rfl
    · split at h
      · exact ih h
      · split at h
        · exact ih h
        · exact ih h

theorem resolve_of_isPath (fs : FileSystem) {path : Text} (good : IsPath path) :
    fs.resolve path =
      fs.walk (if path.head? = some FilePath.slash then [] else fs.current) (Text.splitOn FilePath.slash path) := by
  have encodable : unencodable? path = none := unencodable?_eq_none_iff.2 fun c member => (good c member).2
  have clean : path.any (·.value = 0) = false := by
    rw [List.any_eq_false]
    intro c member
    simpa using (good c member).1
  simp only [resolve, encodable, clean, FilePath.slash]
  rfl

theorem isRefusal_of_resolve {fs : FileSystem} {path : Text} (good : IsPath path) {fault : FileFault}
    (h : fs.resolve path = .error fault) : fault.isRefusal := by
  rw [resolve_of_isPath fs good] at h
  exact isRefusal_of_walk h

theorem stuck_of_not_isPath {path : Text} (bad : ¬ IsPath path) :
    ∃ fault, fault.isRefusal = false ∧ ∀ fs : FileSystem, fs.resolve path = .error fault := by
  unfold resolve
  cases encodable : unencodable? path with
  | some fault => exact ⟨.unencodable fault, rfl, fun _ => rfl⟩
  | none =>
    have fits := unencodable?_eq_none_iff.1 encodable
    have null : path.any (·.value = 0) = true := by
      by_contra none
      rw [Bool.not_eq_true, List.any_eq_false] at none
      exact bad fun c member => ⟨by simpa using none c member, fits c member⟩
    exact ⟨.nullByte, rfl, fun _ => by simp [null]⟩

theorem resolve_of_not_isPath (fs : FileSystem) {path : Text} (bad : ¬ IsPath path) :
    ∃ fault, fs.resolve path = .error fault ∧ fault.isRefusal = false := by
  obtain ⟨fault, fatal, stuck⟩ := stuck_of_not_isPath bad
  exact ⟨fault, stuck fs, fatal⟩

theorem isRefusal_of_read {fs : FileSystem} {path : Text} (good : IsPath path) {fault : FileFault}
    (h : fs.read path = .error fault) : fault.isRefusal := by
  unfold read find at h
  cases found : fs.resolve path with
  | error reason =>
    simp only [found, Except.error.injEq] at h
    exact h ▸ isRefusal_of_resolve good found
  | ok location =>
    cases held : fs.lookup location with
    | none =>
      simp only [found, held, Except.error.injEq] at h
      exact h ▸ rfl
    | some entry =>
      cases entry <;> simp only [found, held, Except.error.injEq, reduceCtorEq] at h
      exact h ▸ rfl

theorem isRefusal_of_target {fs : FileSystem} {path : Text} (good : IsPath path) {fault : FileFault}
    (h : fs.target path = .error fault) : fault.isRefusal := by
  unfold target at h
  cases found : fs.resolve path with
  | error reason =>
    simp only [found, Except.error.injEq] at h
    exact h ▸ isRefusal_of_resolve good found
  | ok location =>
    simp only [found] at h
    split at h
    · cases h
      rfl
    · cases h

end FileSystem

theorem Utf8.surrogates?_eq_none_iff {text : Text} : surrogates? text = none ↔ ∀ c ∈ text, c.isSurrogate = false := by
  have same : ∀ c : CodePoint, (!c.isSurrogate) = true ↔ c.isSurrogate = false := by simp
  simp only [← same, ← List.dropWhile_eq_nil_iff, surrogates?]
  split <;> simp_all

namespace Unnesting

theorem Move.emptyName_of_fault? {room : Room} {move : Move} {fault : RecordFault}
    (h : move.fault? room = some (.record fault)) :
    fault = .emptyName := by
  unfold Move.fault? at h
  split at h
  · cases h
  · split at h
    · cases h
      rfl
    · cases h

/-- The only record that cannot be made is one without a name. -/
theorem emptyName_of_unnest {room : Room} {root : Json}
    (distinct : ∀ start, root.definitions? = some start → (Entries.keys start).Nodup) {fault : RecordFault}
    (stops : (unnest room root).fault = some (.record fault)) : fault = .emptyName := by
  cases begins : root.definitions? with
  | none =>
    rw [(unnest_of_unusable begins).1] at stops
    cases stops
  | some start =>
    rcases stops_unnest begins (distinct start begins) stops with here | ⟨_, _, _, _, _, _, _, _, _, here⟩
    · obtain ⟨move, -, why⟩ := List.exists_of_findSome?_eq_some here
      exact move.emptyName_of_fault? why
    · obtain ⟨move, -, why⟩ := List.exists_of_findSome?_eq_some here
      exact move.emptyName_of_fault? why

end Unnesting

namespace Document

open FileSystem

theorem isRefusal_of_readText {fs : FileSystem} {path : Text} (good : IsPath path) {fault : FileFault}
    (h : readText fs path = .error (.file fault)) : fault.isRefusal := by
  unfold readText at h
  split at h
  · rename_i reason found
    cases h
    exact isRefusal_of_read good found
  · split at h <;> cases h

theorem load_of_isPath (levels : Nat) (limit : Int) (fs : FileSystem) {source : FilePath} (good : IsPath source.text) :
    ∃ root, (load levels limit fs source).1 = .ok ⟨source, root⟩ := by
  cases read : readText fs source.text with
  | error fault =>
    cases fault with
    | file fault => exact ⟨none, by simp [load, read, isRefusal_of_readText good read]⟩
    | encoding fault => exact ⟨none, by simp [load, read]⟩
  | ok text =>
    simp only [load, read]
    split
    · exact ⟨none, rfl⟩
    · rename_i root _ _
      exact ⟨some root, rfl⟩

theorem load_eq_ok_iff {levels : Nat} {limit : Int} {fs : FileSystem} {source : FilePath} {root : Json} :
    (load levels limit fs source).1 = .ok ⟨source, some root⟩ ↔
      ∃ text, readText fs source.text = .ok text ∧ (Schema.parse levels limit (.str text)).1 = .ok root := by
  cases read : readText fs source.text with
  | error fault =>
    cases fault with
    | file fault =>
      cases refused : fault.isRefusal <;> simp [load, read, refused]
    | encoding fault => simp [load, read]
  | ok text =>
    cases parsed : Schema.parse levels limit (.str text) with
    | mk found log => cases found <;> simp [load, read, parsed]

theorem load_of_not_isPath (levels : Nat) (limit : Int) (fs : FileSystem) {source : FilePath}
    (bad : ¬ IsPath source.text) :
    ∃ fault, (load levels limit fs source).1 = .error fault := by
  obtain ⟨fault, found, fatal⟩ := resolve_of_not_isPath fs bad
  exact ⟨fault, by simp [load, readText, FileSystem.read, FileSystem.find, found, fatal]⟩

end Document

namespace Batch

open FileSystem

def runOne (settings : Settings) (fs : FileSystem) (source : FilePath) : Work FileResult :=
  match settings.load fs source with
  | (.error fault, log) => ⟨.error (.file source fault), fs, log⟩
  | (.ok document, log) =>
    let unnested := Document.unnest settings.stack.room (some document)
    let log := log ++ unnested.log
    match unnested.fault, unnested.document, unnested.report with
    | some fault, _, _ => ⟨.error (.record fault), fs, log⟩
    | none, some output, some run =>
      let work := writeResult settings fs source run.made.length output
      { work with log := log ++ work.log }
    | none, _, _ =>
      if document.hasRoot then
        let failure := FileResult.tooDeep source
        ⟨.ok (.failed source failure none 0), fs, log ++ failure.log⟩
      else ⟨.ok (.nothingFound source), fs, log⟩

def runEach (settings : Settings) (fs : FileSystem) : List FilePath → Work (List FileResult)
  | [] => ⟨.ok [], fs, []⟩
  | source :: rest =>
    let work := runOne settings fs source
    match work.result with
    | .error fault => ⟨.error fault, work.fs, work.log⟩
    | .ok result =>
      let next := runEach settings work.fs rest
      ⟨next.result.map (result :: ·), next.fs, work.log ++ next.log⟩

def Writable (settings : Settings) (fs : FileSystem) (source : FilePath) (text : Text) : Prop :=
  ∃ path, source.withName (source.name ++ settings.ending) = .ok path ∧ IsPath path.text ∧
    ∀ location, fs.target path.text = .ok location → ∀ c ∈ text, c.isSurrogate = false

/-- A file can be worked on if it can be found, the fragments of its schema named, and what is left of that
schema written. -/
structure Workable (settings : Settings) (fs : FileSystem) (source : FilePath) : Prop where
  path : IsPath source.text
  records : ∀ root, (settings.load fs source).1 = .ok ⟨source, some root⟩ →
    (settings.unnest root).fault ≠ some (.record .emptyName)
  output : ∀ root, (settings.load fs source).1 = .ok ⟨source, some root⟩ →
    (settings.unnest root).fault = none →
      Writable settings fs source ((settings.unnest root).root.render settings.indent)

theorem encode_isOk_iff {text : Text} :
    (∃ content, Utf8.encode text = .ok content) ↔ ∀ c ∈ text, c.isSurrogate = false := by
  rw [← Utf8.surrogates?_eq_none_iff, Utf8.encode]
  cases Utf8.surrogates? text <;> simp

theorem writeResult_isOk_iff {settings : Settings} {fs : FileSystem} {source : FilePath} {extracted : Nat}
    {root : Json} :
    (∃ result, (writeResult settings fs source extracted ⟨source, some root⟩).result = .ok result) ↔
      Writable settings fs source (root.render settings.indent) := by
  cases named : source.withName (source.name ++ settings.ending) with
  | error fault =>
    have out : ¬ Writable settings fs source (root.render settings.indent) := by
      rintro ⟨path, given, -⟩
      rw [named] at given
      cases given
    simp [writeResult, Document.write, Document.outputPath, named, out]
  | ok path =>
    by_cases good : IsPath path.text
    · cases target : fs.target path.text with
      | error fault =>
        have refused := isRefusal_of_target good target
        have writable : Writable settings fs source (root.render settings.indent) := by
          refine ⟨path, named, good, ?_⟩
          intro location found
          rw [target] at found
          cases found
        simp [writeResult, Document.write, Document.outputPath, named, target, refused, writable]
      | ok location =>
        have clean : Writable settings fs source (root.render settings.indent) ↔
            ∃ content, Utf8.encode (root.render settings.indent) = .ok content := by
          rw [encode_isOk_iff]
          constructor
          · rintro ⟨other, given, -, clean⟩
            rw [named] at given
            cases given
            exact clean location target
          · intro clean
            exact ⟨path, named, good, fun _ _ => clean⟩
        rw [clean]
        cases encoded : Utf8.encode (root.render settings.indent) <;>
          simp [writeResult, Document.write, Document.outputPath, named, target, encoded]
    · obtain ⟨fault, found, fatal⟩ := resolve_of_not_isPath fs good
      have out : ¬ Writable settings fs source (root.render settings.indent) := by
        rintro ⟨other, given, fine, -⟩
        rw [named] at given
        cases given
        exact good fine
      have target : fs.target path.text = .error fault := by simp [FileSystem.target, found]
      simp [writeResult, Document.write, Document.outputPath, named, target, fatal, out]

theorem result_runOne_unloaded {settings : Settings} {fs : FileSystem} {source : FilePath} {fault : FileFault}
    (loaded : (settings.load fs source).1 = .error fault) :
    (runOne settings fs source).result = .error (.file source fault) := by
  obtain ⟨log, found⟩ : ∃ log, settings.load fs source = (.error fault, log) := ⟨_, Prod.ext loaded rfl⟩
  simp [runOne, found]

theorem result_runOne_rootless {settings : Settings} {fs : FileSystem} {source : FilePath}
    (loaded : (settings.load fs source).1 = .ok ⟨source, none⟩) :
    (runOne settings fs source).result = .ok (.nothingFound source) := by
  obtain ⟨log, found⟩ : ∃ log, settings.load fs source = (.ok ⟨source, none⟩, log) := ⟨_, Prod.ext loaded rfl⟩
  simp [runOne, found, Document.unnest, Document.hasRoot]

theorem result_runOne_root {settings : Settings} {fs : FileSystem} {source : FilePath} {root : Json}
    (loaded : (settings.load fs source).1 = .ok ⟨source, some root⟩) :
    (runOne settings fs source).result =
      match (settings.unnest root).fault with
      | some (.record fault) => .error (.record fault)
      | some .tooDeep => .ok (.failed source (FileResult.tooDeep source) none 0)
      | none =>
        (writeResult settings fs source (settings.unnest root).made.length
          ⟨source, some (settings.unnest root).root⟩).result := by
  obtain ⟨log, found⟩ : ∃ log, settings.load fs source = (.ok ⟨source, some root⟩, log) := ⟨_, Prod.ext loaded rfl⟩
  cases stops : (settings.unnest root).fault with
  | none => simp [runOne, found, Document.unnest, stops]
  | some fault => cases fault <;> simp [runOne, found, Document.unnest, stops, Document.hasRoot]

theorem workable_of_rootless {settings : Settings} {fs : FileSystem} {source : FilePath} (good : IsPath source.text)
    (loaded : (settings.load fs source).1 = .ok ⟨source, none⟩) :
    Workable settings fs source := by
  have absent : ∀ root, (settings.load fs source).1 ≠ .ok ⟨source, some root⟩ := by
    intro root
    rw [loaded]
    simp
  exact ⟨good, fun root found => absurd found (absent root), fun root found => absurd found (absent root)⟩

theorem workable_root_iff {settings : Settings} {fs : FileSystem} {source : FilePath} {root : Json}
    (good : IsPath source.text) (loaded : (settings.load fs source).1 = .ok ⟨source, some root⟩) :
    Workable settings fs source ↔ (settings.unnest root).fault ≠ some (.record .emptyName) ∧
      ((settings.unnest root).fault = none →
        Writable settings fs source ((settings.unnest root).root.render settings.indent)) := by
  have same : ∀ other, (settings.load fs source).1 = .ok ⟨source, some other⟩ → other = root := by
    intro other
    rw [loaded]
    rintro ⟨⟩
    rfl
  constructor
  · intro able
    exact ⟨able.records root loaded, able.output root loaded⟩
  · rintro ⟨records, output⟩
    constructor
    · exact good
    · intro other found
      rwa [same other found]
    · intro other found
      rwa [same other found]

/-- The work on a file gives a result just if the file is workable. -/
theorem runOne_isOk_iff {settings : Settings} {fs : FileSystem} {source : FilePath} :
    (∃ result, (runOne settings fs source).result = .ok result) ↔ Workable settings fs source := by
  by_cases good : IsPath source.text
  · obtain ⟨root, loaded⟩ := Document.load_of_isPath settings.stack.levels settings.maxDepth fs good
    cases root with
    | none => simp [result_runOne_rootless loaded, workable_of_rootless good loaded]
    | some root =>
      rw [result_runOne_root loaded, workable_root_iff good loaded]
      cases stops : (settings.unnest root).fault with
      | none => simp [writeResult_isOk_iff]
      | some fault =>
        cases fault with
        | tooDeep => simp
        | record fault =>
          obtain ⟨text, -, parsed⟩ := Document.load_eq_ok_iff.1 loaded
          have read := (Schema.parse_eq_ok_iff.1 parsed).2.1
          have empty := Unnesting.emptyName_of_unnest (fun _ => Json.nodup_definitions_of_read read) stops
          simp [empty]
  · obtain ⟨fault, loaded⟩ := Document.load_of_not_isPath settings.stack.levels settings.maxDepth fs good
    have out : ¬ Workable settings fs source := fun able => good able.path
    simp [result_runOne_unloaded loaded, out]

structure Tells (source : FilePath) (result : FileResult) : Prop where
  source : result.source = source
  failure : result.success = false → ∃ errors, result.errors = some errors ∧ errors ≠ []

theorem tells_failed (source : FilePath) (failure : Failure) (path : Option FilePath) (extracted : Nat) :
    Tells source (.failed source failure path extracted) := ⟨rfl, fun _ => ⟨_, rfl, by simp⟩⟩

theorem tells_writeResult {settings : Settings} {fs : FileSystem} {source : FilePath} {extracted : Nat}
    {document : Document} {result : FileResult}
    (h : (writeResult settings fs source extracted document).result = .ok result) : Tells source result := by
  unfold writeResult at h
  dsimp only at h
  split at h
  · cases h
    exact ⟨rfl, by simp⟩
  · cases h
    exact tells_failed _ _ _ _
  · cases h
  · cases h
  · cases h

theorem tells_runOne {settings : Settings} {fs : FileSystem} {source : FilePath} {result : FileResult}
    (h : (runOne settings fs source).result = .ok result) : Tells source result := by
  have able := runOne_isOk_iff.1 ⟨result, h⟩
  obtain ⟨root, loaded⟩ := Document.load_of_isPath settings.stack.levels settings.maxDepth fs able.path
  cases root with
  | none =>
    rw [result_runOne_rootless loaded] at h
    cases h
    exact ⟨rfl, fun _ => ⟨_, rfl, by simp⟩⟩
  | some root =>
    rw [result_runOne_root loaded] at h
    split at h
    · cases h
    · cases h
      exact tells_failed _ _ _ _
    · exact tells_writeResult h

def stage (settings : Settings) (fs : FileSystem) (sources : List FilePath) : FileSystem :=
  sources.foldl (fun fs source => (runOne settings fs source).fs) fs

def AllWorkable (settings : Settings) (fs : FileSystem) (sources : List FilePath) : Prop :=
  ∀ before source after, sources = before ++ source :: after → Workable settings (stage settings fs before) source

theorem allWorkable_cons {settings : Settings} {fs : FileSystem} {source : FilePath} {rest : List FilePath} :
    AllWorkable settings fs (source :: rest) ↔
      Workable settings fs source ∧ AllWorkable settings (runOne settings fs source).fs rest := by
  constructor
  · intro all
    exact ⟨all [] source rest rfl, fun before other after split => all (source :: before) other after (by simp [split])⟩
  · rintro ⟨first, later⟩ before other after split
    cases before with
    | nil =>
      cases split
      exact first
    | cons here before =>
      cases split
      exact later before other after rfl

theorem runEach_isOk_iff {settings : Settings} {fs : FileSystem} {sources : List FilePath} :
    (∃ results, (runEach settings fs sources).result = .ok results) ↔ AllWorkable settings fs sources := by
  induction sources generalizing fs with
  | nil => simp [runEach, AllWorkable]
  | cons source rest ih =>
    rw [allWorkable_cons, ← ih, ← runOne_isOk_iff, runEach]
    cases here : (runOne settings fs source).result with
    | error fault => simp
    | ok result =>
      cases later : (runEach settings (runOne settings fs source).fs rest).result <;> simp [later, Except.map]

/-- The results of a batch: one for each file, in order, and it is what the work on that file gives when its turn
comes. -/
structure Reports (settings : Settings) (fs : FileSystem) (sources : List FilePath) (results : List FileResult) :
    Prop where
  inOrder : results.map (·.source) = sources
  each : ∀ before source after, sources = before ++ source :: after →
    ∃ result, results[before.length]? = some result ∧
      (runOne settings (stage settings fs before) source).result = .ok result
  failures : ∀ result ∈ results, result.success = false → ∃ errors, result.errors = some errors ∧ errors ≠ []

theorem reports_runEach {settings : Settings} {fs : FileSystem} {sources : List FilePath} {results : List FileResult}
    (h : (runEach settings fs sources).result = .ok results) : Reports settings fs sources results := by
  induction sources generalizing fs results with
  | nil =>
    cases h
    exact ⟨rfl, by simp, by simp⟩
  | cons source rest ih =>
    rw [runEach] at h
    cases here : (runOne settings fs source).result with
    | error fault => simp [here] at h
    | ok result =>
      cases later : (runEach settings (runOne settings fs source).fs rest).result with
      | error fault => simp [here, later, Except.map] at h
      | ok others =>
        simp only [here, later, Except.map, Except.ok.injEq] at h
        subst h
        have told := tells_runOne here
        have behind := ih later
        constructor
        · rw [List.map_cons, told.source, behind.inOrder]
        · intro before other after split
          cases before with
          | nil =>
            cases split
            exact ⟨result, rfl, here⟩
          | cons first before =>
            cases split
            exact behind.each before other after rfl
        · intro one member
          rcases List.mem_cons.1 member with rfl | member
          · exact told.failure
          · exact behind.failures one member

theorem Reports.at_place {settings : Settings} {fs : FileSystem} {sources : List FilePath} {results : List FileResult}
    (told : Reports settings fs sources results) {place : Nat} {source : FilePath}
    (found : sources[place]? = some source) :
    ∃ result, results[place]? = some result ∧
      (runOne settings (stage settings fs (sources.take place)) source).result = .ok result := by
  obtain ⟨inside, here⟩ := List.getElem?_eq_some_iff.1 found
  have split : sources = sources.take place ++ source :: sources.drop (place + 1) := by
    rw [← here, List.getElem_cons_drop, List.take_append_drop]
  have length : (sources.take place).length = place := List.length_take_of_le (Nat.le_of_lt inside)
  have told := told.each _ source _ split
  rwa [length] at told

end Batch

namespace Meter

def Ready (p : Meter) : Prop :=
  ∃ name start memory, p.operation = some name ∧ name ≠ [] ∧ p.startTime = some start ∧ start.isZero = false ∧
    p.startMemory = some memory

theorem ready_start (p : Meter) {name : Text} (named : name ≠ []) (size : Int) {reading : Reading}
    (memory : reading.memory.isSome) (clock : reading.now.isZero = false) :
    (p.start name size reading).result = .ok () ∧ (p.start name size reading).after.Ready := by
  obtain ⟨used, read⟩ := Option.isSome_iff_exists.1 memory
  simp only [start, read]
  exact ⟨trivial, name, reading.now, used, rfl, named, rfl, clock, rfl⟩

theorem Ready.sample {p : Meter} (h : p.Ready) (reading : Reading) : (p.sample reading).after.Ready := by
  unfold Meter.sample
  split
  · exact h
  · cases reading.memory with
    | none => exact h
    | some memory => exact h

theorem Ready.stop {p : Meter} (h : p.Ready) (output extracted : Int) (reading : Reading) :
    (∃ metrics, (p.stop output extracted reading).result = .ok metrics) ∧
      (p.stop output extracted reading).after.isOpen = false := by
  obtain ⟨name, start, memory, operation, named, begun, clock, measured⟩ := h
  have session : p.session? = some (name, start) := by simp [session?, operation, begun, named, clock]
  cases reading.memory <;> simp [Meter.stop, session, measured, isOpen]

theorem Ready.leave {p : Meter} (h : p.Ready) (reading : Reading) : (p.leave reading).result = .ok () := by
  obtain ⟨metrics, stopped⟩ := (h.stop 0 0 reading).1
  unfold Meter.leave
  split
  · simp [stopped, Except.map]
  · rfl

theorem leave_of_closed {p : Meter} (closed : p.isOpen = false) (reading : Reading) :
    (p.leave reading).result = .ok () := by
  simp [leave, closed]

end Meter

namespace Batch

theorem finish_of_ready {p : Meter} (h : p.Ready) (readings : Readings) (result : FileResult) :
    (finish readings p result).result = .ok () := by
  have sampled := h.sample readings.sample
  unfold finish
  dsimp only
  split
  · obtain ⟨⟨metrics, stopped⟩, closed⟩ := sampled.stop (outputSize result) result.extracted readings.stop
    simp [stopped, Meter.leave_of_closed closed]
  · exact sampled.leave readings.stop

def Readings.Usable (readings : Readings) : Prop :=
  readings.start.memory.isSome ∧ readings.start.now.isZero = false

end Batch

namespace Sanitizer

open Batch

/-- The work on a file depends on the settings alone, and leaves nothing behind but the account of this file. -/
theorem process_eq (s : Sanitizer) (fs : FileSystem) (source : FilePath) :
    ∃ report, s.process fs source = ⟨runOne s.settings fs source, { s with lastReport := report }⟩ := by
  unfold process runOne
  cases s.settings.load fs source with
  | mk loaded log =>
    cases loaded with
    | error fault => exact ⟨s.lastReport, rfl⟩
    | ok document =>
      refine ⟨(Document.unnest s.settings.stack.room (some document)).report, ?_⟩
      dsimp only [unnest]
      cases (Document.unnest s.settings.stack.room (some document)).fault with
      | some fault => rfl
      | none =>
        cases (Document.unnest s.settings.stack.room (some document)).document <;>
          cases (Document.unnest s.settings.stack.room (some document)).report <;> cases document.hasRoot <;> rfl

theorem sanitizeFile_unmetered {s : Sanitizer} (unmetered : s.meter = none) (readings : Readings) (fs : FileSystem)
    (source : FilePath) :
    ∃ report, s.sanitizeFile readings fs source = ⟨runOne s.settings fs source, { s with lastReport := report }⟩ := by
  obtain ⟨report, done⟩ := s.process_eq fs source
  exact ⟨report, by simp only [sanitizeFile, unmetered, done]⟩

/-- The session that is opened for a file is left behind closed: as the work on the file ends it, with its result or with
its fault. -/
theorem sanitizeFile_metered {s : Sanitizer} {p : Meter} (metered : s.meter = some p) {readings : Readings}
    (usable : readings.Usable) (fs : FileSystem) (source : FilePath) :
    (s.sanitizeFile readings fs source).work.result = (runOne s.settings fs source).result ∧
      (s.sanitizeFile readings fs source).work.fs = (runOne s.settings fs source).fs ∧
      (s.sanitizeFile readings fs source).after.settings = s.settings ∧
      (s.sanitizeFile readings fs source).after.meter = some (
        let opened := (p.start (sessionName source) (fs.size source.text) readings.start).after
        match (runOne s.settings fs source).result with
        | .error _ => (opened.leave readings.stop).after
        | .ok result => (finish readings opened result).after) := by
  have named : sessionName source ≠ [] := by simp [sessionName, Text.ofString]
  obtain ⟨opened, ready⟩ := p.ready_start named (fs.size source.text) usable.1 usable.2
  obtain ⟨report, done⟩ :=
    process_eq { s with meter := some (p.start (sessionName source) (fs.size source.text) readings.start).after
      } fs source
  simp only [sanitizeFile, metered, opened, done]
  cases (runOne s.settings fs source).result with
  | error fault => simp [ready.leave]
  | ok result => simp [finish_of_ready ready]

/-- With a meter or without, and whatever was done before, the work on a file comes to what the settings alone give. -/
theorem work_sanitizeFile_of_usable {s : Sanitizer} {readings : Readings} (usable : s.meter.isSome → readings.Usable)
    (fs : FileSystem) (source : FilePath) :
    (s.sanitizeFile readings fs source).work.result = (runOne s.settings fs source).result ∧
      (s.sanitizeFile readings fs source).work.fs = (runOne s.settings fs source).fs ∧
      (s.sanitizeFile readings fs source).after.settings = s.settings ∧
      (s.sanitizeFile readings fs source).after.meter.isSome = s.meter.isSome := by
  cases metered : s.meter with
  | none =>
    obtain ⟨report, done⟩ := sanitizeFile_unmetered metered readings fs source
    simp [done, metered]
  | some p =>
    obtain ⟨result, left, settings, meter⟩ := sanitizeFile_metered metered (usable (by simp [metered])) fs source
    exact ⟨result, left, settings, by simp [meter]⟩

theorem work_sanitizeEach {s : Sanitizer} {readings : Nat → Readings}
    (usable : s.meter.isSome → ∀ place, (readings place).Usable) (place : Nat) (fs : FileSystem)
    (sources : List FilePath) :
    (s.sanitizeEach readings place fs sources).work.result = (runEach s.settings fs sources).result ∧
      (s.sanitizeEach readings place fs sources).work.fs = (runEach s.settings fs sources).fs := by
  induction sources generalizing s place fs with
  | nil => exact ⟨rfl, rfl⟩
  | cons source rest ih =>
    obtain ⟨result, left, settings, metered⟩ := work_sanitizeFile_of_usable (fun held => usable held place) fs source
    rw [sanitizeEach, runEach]
    simp only [result, left]
    cases (runOne s.settings fs source).result with
    | error fault => exact ⟨rfl, rfl⟩
    | ok result =>
      have later := ih (s := (s.sanitizeFile (readings place) fs source).after) (metered ▸ usable) (place + 1)
        (runOne s.settings fs source).fs
      simp only [later, settings, and_self]

theorem result_close (work : Work (List FileResult)) : (close work).result = work.result := by
  unfold close
  split <;> rfl

theorem fs_close (work : Work (List FileResult)) : (close work).fs = work.fs := by
  unfold close
  split <;> rfl

theorem work_sanitizeFiles {s : Sanitizer} {readings : Nat → Readings}
    (usable : s.meter.isSome → ∀ place, (readings place).Usable) (fs : FileSystem) (sources : List FilePath) :
    (s.sanitizeFiles readings fs sources).work.result = (runEach s.settings fs sources).result ∧
      (s.sanitizeFiles readings fs sources).work.fs = (runEach s.settings fs sources).fs := by
  simp only [sanitizeFiles, result_close, fs_close]
  exact work_sanitizeEach usable 0 fs sources

end Sanitizer

namespace Batch

def fileOf (text : String) : FileEntry := .file ((Text.ofString text).flatMap Utf8.encodeOne)

def mixedFiles : FileSystem :=
  ⟨[([Text.ofString "a.json"], fileOf "[]"), ([Text.ofString "b.json"], fileOf "\x7b\x7d")], []⟩

def standard : Settings := ⟨Document.standardEnding, 2, Schema.maxDepth, ⟨1000, .ofDepth 400⟩⟩

def steadyReading : Reading := ⟨.ofInt 1, some .zero⟩

def steadyReadings (_place : Nat) : Readings := ⟨steadyReading, steadyReading, steadyReading⟩

theorem usable_steadyReadings (place : Nat) : (steadyReadings place).Usable := by
  have clock : steadyReading.now.isZero = false := by decide +kernel
  exact ⟨rfl, clock⟩

end Batch

namespace Sanitizer

open Batch

theorem exists_eq_ok {ε α : Type} {result : Except ε α} (returned : result.isOk) : ∃ a, result = .ok a := by
  cases result with
  | error fault => cases returned
  | ok a => exact ⟨a, rfl⟩

end Sanitizer
end SchemaUnnest
