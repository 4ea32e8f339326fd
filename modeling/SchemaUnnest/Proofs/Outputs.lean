import SchemaUnnest.Proofs.Chains
import SchemaUnnest.Proofs.Walks

namespace SchemaUnnest

namespace Batch

open FileSystem

def Holds (settings : Settings) (fs : FileSystem) (source : FilePath) (root : Json) : Prop :=
  ∃ text, Document.readText fs source.text = .ok text ∧
    (Schema.parse settings.stack.levels settings.maxDepth (.str text)).1 = .ok root

theorem load_eq_ok_iff {settings : Settings} {fs : FileSystem} {source : FilePath} {root : Json} :
    (settings.load fs source).1 = .ok ⟨source, some root⟩ ↔ Holds settings fs source root :=
  Document.load_eq_ok_iff

theorem load_cases (settings : Settings) (fs : FileSystem) (source : FilePath) :
    (∃ fault, (settings.load fs source).1 = .error fault) ∨
      (settings.load fs source).1 = .ok ⟨source, none⟩ ∨
        ∃ root, (settings.load fs source).1 = .ok ⟨source, some root⟩ := by
  by_cases good : IsPath source.text
  · obtain ⟨root, loaded⟩ := Document.load_of_isPath settings.stack.levels settings.maxDepth fs good
    cases root with
    | none => exact .inr (.inl loaded)
    | some root => exact .inr (.inr ⟨root, loaded⟩)
  · exact .inl (Document.load_of_not_isPath settings.stack.levels settings.maxDepth fs good)

structure Prepares (settings : Settings) (fs : FileSystem) (source : FilePath) (root : Json) (path : FilePath) :
    Prop where
  loaded : (settings.load fs source).1 = .ok ⟨source, some root⟩
  ends : (settings.unnest root).fault = none
  named : source.withName (source.name ++ settings.ending) = .ok path

def rendering (settings : Settings) (root : Json) : Text :=
  (settings.unnest root).root.render settings.indent

inductive Outcome (settings : Settings) (fs : FileSystem) (source : FilePath) :
    Except BatchFault FileResult → FileSystem → Prop where
  | unloaded {fault : FileFault} (loaded : (settings.load fs source).1 = .error fault) :
      Outcome settings fs source (.error (.file source fault)) fs
  | rootless (loaded : (settings.load fs source).1 = .ok ⟨source, none⟩) :
      Outcome settings fs source (.ok (.nothingFound source)) fs
  | unrecorded {root : Json} {fault : RecordFault}
      (loaded : (settings.load fs source).1 = .ok ⟨source, some root⟩)
      (stops : (settings.unnest root).fault = some (.record fault)) :
      Outcome settings fs source (.error (.record fault)) fs
  | tooDeep {root : Json} (loaded : (settings.load fs source).1 = .ok ⟨source, some root⟩)
      (stops : (settings.unnest root).fault = some .tooDeep) :
      Outcome settings fs source (.ok (.failed source (FileResult.tooDeep source) none 0)) fs
  | unnamed {root : Json} {fault : PathFault}
      (loaded : (settings.load fs source).1 = .ok ⟨source, some root⟩)
      (ends : (settings.unnest root).fault = none)
      (named : source.withName (source.name ++ settings.ending) = .error fault) :
      Outcome settings fs source (.error (.naming fault)) fs
  | refused {root : Json} {path : FilePath} {fault : FileFault} (prepared : Prepares settings fs source root path)
      (closed : fs.target path.text = .error fault) (refusal : fault.isRefusal = true) :
      Outcome settings fs source
        (.ok (.failed source (WriteFault.refusal path fault (rendering settings root)) (some path)
          (settings.unnest root).made.length)) fs
  | unusable {root : Json} {path : FilePath} {fault : FileFault} (prepared : Prepares settings fs source root path)
      (closed : fs.target path.text = .error fault) (fatal : fault.isRefusal = false) :
      Outcome settings fs source (.error (.file path fault)) fs
  | unencodable {root : Json} {path : FilePath} {location : Location} {fault : Utf8.EncodeFault}
      (prepared : Prepares settings fs source root path) (opened : fs.target path.text = .ok location)
      (stuck : Utf8.encode (rendering settings root) = .error fault) :
      Outcome settings fs source (.error (.encoding fault)) (fs.put location [])
  | written {root : Json} {path : FilePath} {location : Location} {content : Bytes}
      (prepared : Prepares settings fs source root path) (opened : fs.target path.text = .ok location)
      (encoded : Utf8.encode (rendering settings root) = .ok content) :
      Outcome settings fs source
        (.ok ⟨true, source, some path, (settings.unnest root).made.length, none, some (rendering settings root)⟩)
        (fs.put location content)

section Outcome

variable {settings : Settings} {fs after : FileSystem} {source : FilePath} {result : Except BatchFault FileResult}

theorem Prepares.runOne {root : Json} {path : FilePath} (prepared : Prepares settings fs source root path) :
    ∃ log, runOne settings fs source =
      let work := writeResult settings fs source (settings.unnest root).made.length ⟨source, some (settings.unnest root).root⟩
      { work with log := log ++ work.log } := by
  obtain ⟨log, found⟩ : ∃ log, settings.load fs source = (.ok ⟨source, some root⟩, log) :=
    ⟨_, Prod.ext prepared.loaded rfl⟩
  exact ⟨_, by simp only [Batch.runOne, found, Document.unnest, Option.bind_some, prepared.ends, Option.map_some]; rfl⟩

theorem Outcome.runOne (outcome : Outcome settings fs source result after) :
    (runOne settings fs source).result = result ∧ (runOne settings fs source).fs = after := by
  have logged {loaded} (h : (settings.load fs source).1 = loaded) :
      ∃ log, settings.load fs source = (loaded, log) := ⟨_, Prod.ext h rfl⟩
  cases outcome with
  | unloaded loaded =>
    obtain ⟨log, found⟩ := logged loaded
    simp [Batch.runOne, found]
  | rootless loaded =>
    obtain ⟨log, found⟩ := logged loaded
    simp [Batch.runOne, found, Document.unnest, Document.hasRoot]
  | unrecorded loaded stops =>
    obtain ⟨log, found⟩ := logged loaded
    simp [Batch.runOne, found, Document.unnest, stops]
  | tooDeep loaded stops =>
    obtain ⟨log, found⟩ := logged loaded
    simp [Batch.runOne, found, Document.unnest, stops, Document.hasRoot]
  | unnamed loaded ends named =>
    obtain ⟨log, found⟩ := logged loaded
    simp [Batch.runOne, found, Document.unnest, ends, writeResult, Document.write, Document.outputPath, named]
  | refused prepared closed refusal =>
    obtain ⟨log, done⟩ := prepared.runOne
    simp [done, writeResult, Document.write, Document.outputPath, prepared.named, closed, refusal, rendering]
  | unusable prepared closed fatal =>
    obtain ⟨log, done⟩ := prepared.runOne
    simp [done, writeResult, Document.write, Document.outputPath, prepared.named, closed, fatal]
  | unencodable prepared opened stuck =>
    obtain ⟨log, done⟩ := prepared.runOne
    rw [rendering] at stuck
    simp [done, writeResult, Document.write, Document.outputPath, prepared.named, opened, stuck]
  | written prepared opened encoded =>
    obtain ⟨log, done⟩ := prepared.runOne
    rw [rendering] at encoded
    simp [done, writeResult, Document.write, Document.outputPath, prepared.named, opened, encoded, rendering]

theorem exists_outcome (settings : Settings) (fs : FileSystem) (source : FilePath) :
    ∃ result after, Outcome settings fs source result after := by
  rcases load_cases settings fs source with ⟨fault, loaded⟩ | loaded | ⟨root, loaded⟩
  · exact ⟨_, _, .unloaded loaded⟩
  · exact ⟨_, _, .rootless loaded⟩
  · cases ends : (settings.unnest root).fault with
    | some fault =>
      cases fault with
      | record fault => exact ⟨_, _, .unrecorded loaded ends⟩
      | tooDeep => exact ⟨_, _, .tooDeep loaded ends⟩
    | none =>
      cases named : source.withName (source.name ++ settings.ending) with
      | error fault => exact ⟨_, _, .unnamed loaded ends named⟩
      | ok path =>
        cases opened : fs.target path.text with
        | error fault =>
          cases refusal : fault.isRefusal with
          | true => exact ⟨_, _, .refused ⟨loaded, ends, named⟩ opened refusal⟩
          | false => exact ⟨_, _, .unusable ⟨loaded, ends, named⟩ opened refusal⟩
        | ok location =>
          cases encoded : Utf8.encode (rendering settings root) with
          | error fault => exact ⟨_, _, .unencodable ⟨loaded, ends, named⟩ opened encoded⟩
          | ok content => exact ⟨_, _, .written ⟨loaded, ends, named⟩ opened encoded⟩

theorem outcome_runOne (settings : Settings) (fs : FileSystem) (source : FilePath) :
    Outcome settings fs source (Batch.runOne settings fs source).result (Batch.runOne settings fs source).fs := by
  obtain ⟨result, after, outcome⟩ := exists_outcome settings fs source
  obtain ⟨rfl, rfl⟩ := outcome.runOne
  exact outcome

theorem Outcome.unavailable (outcome : Outcome settings fs source result after)
    (absent : ¬ ∃ schema, Holds settings fs source schema) :
    after = fs ∧ ∀ returned, result = .ok returned → returned.success = false := by
  have unread : ∀ {schema}, (settings.load fs source).1 ≠ .ok ⟨source, some schema⟩ :=
    fun loaded => absent ⟨_, load_eq_ok_iff.1 loaded⟩
  cases outcome with
  | unloaded => exact ⟨rfl, by rintro _ ⟨⟩⟩
  | rootless =>
    refine ⟨rfl, ?_⟩
    rintro _ ⟨⟩
    rfl
  | unrecorded loaded | tooDeep loaded | unnamed loaded => exact absurd loaded unread
  | refused prepared | unusable prepared | unencodable prepared | written prepared =>
    exact absurd prepared.loaded unread

theorem Outcome.success {result : FileResult} (outcome : Outcome settings fs source (.ok result) after)
    (succeeded : result.success = true) :
    ∃ root path location content, Prepares settings fs source root path ∧ fs.target path.text = .ok location ∧
      Utf8.encode (rendering settings root) = .ok content ∧
        result = ⟨true, source, some path, (settings.unnest root).made.length, none, some (rendering settings root)⟩ ∧
          after = fs.put location content := by
  cases outcome with
  | written prepared opened encoded => exact ⟨_, _, _, _, prepared, opened, encoded, rfl, rfl⟩
  | rootless | tooDeep | refused => cases succeeded

theorem Outcome.failure {result : FileResult} (outcome : Outcome settings fs source (.ok result) after)
    (failed : result.success = false) : after = fs := by
  cases outcome with
  | written => cases failed
  | rootless | tooDeep | refused => rfl

inductive Puts (settings : Settings) (fs : FileSystem) (source : FilePath) : FileSystem → Prop where
  | nothing : Puts settings fs source fs
  | output {path : FilePath} {location : Location}
      (named : source.withName (source.name ++ settings.ending) = .ok path)
      (opened : fs.target path.text = .ok location) (content : Bytes) :
      Puts settings fs source (fs.put location content)

theorem Outcome.puts (outcome : Outcome settings fs source result after) : Puts settings fs source after := by
  cases outcome with
  | unencodable prepared opened => exact .output prepared.named opened []
  | written prepared opened => exact .output prepared.named opened _
  | unloaded | rootless | unrecorded | tooDeep | unnamed | refused | unusable => exact .nothing

theorem Puts.alike (puts : Puts settings fs source after) : Alike fs after := by
  cases puts with
  | nothing => exact ⟨rfl, fun _ => Iff.rfl⟩
  | output named opened content => exact alike_put (target_eq_ok_iff.1 opened).2 content

theorem Puts.frame (puts : Puts settings fs source after) {location : Location}
    (changed : after.lookup location ≠ fs.lookup location) :
    ∃ path, source.withName (source.name ++ settings.ending) = .ok path ∧ fs.target path.text = .ok location := by
  cases puts with
  | nothing => exact absurd rfl changed
  | @output path place named opened content =>
    have below := ne_nil_of_target opened
    rw [lookup_put fs below] at changed
    split at changed
    · rename_i here
      exact ⟨path, named, here ▸ opened⟩
    · exact absurd rfl changed

/-- A source reads as before, also where it cannot be read. -/
theorem Puts.read_source (puts : Puts settings fs source after) (normal : source.Normal)
    (nonempty : settings.ending ≠ []) : after.read source.text = fs.read source.text := by
  have apart : ∀ location, fs.resolve source.text = .ok location → after.lookup location = fs.lookup location := by
    intro location found
    by_contra changed
    obtain ⟨path, named, opened⟩ := puts.frame changed
    exact resolve_ne_target normal nonempty named found opened rfl
  cases puts with
  | nothing => rfl
  | @output path place named opened content =>
    refine read_congr ?_ apart
    by_cases good : IsPath source.text
    · -- the output was opened, so its directory is there and the source leads somewhere
      have nameful := FilePath.name_ne_nil_of_withName named
      obtain ⟨parent, walked, directory, -⟩ := target_output normal nonempty named opened
      have found := (resolve_source_eq_ok_iff good normal nameful).2 ⟨parent, walked, directory, rfl⟩
      rw [found, (alike_put (target_eq_ok_iff.1 opened).2 content).resolve_eq_ok_iff, found]
    · exact resolve_eq_of_not_isPath fs _ good

end Outcome

end Batch

namespace Sanitizer

open Batch FileSystem

theorem sanitizeText_eq_ok_iff {s : Sanitizer} {text : Text} {root : Json} :
    (s.sanitizeText (.str text)).1 = .ok root ↔
      ∃ schema, (Schema.parse s.settings.stack.levels s.settings.maxDepth (.str text)).1 = .ok schema ∧
        (s.settings.unnest schema).fault = none ∧ (s.settings.unnest schema).root = root := by
  cases parsed : Schema.parse s.settings.stack.levels s.settings.maxDepth (.str text) with
  | mk result log =>
    cases result with
    | error fault => simp [sanitizeText, parsed]
    | ok schema => cases stops : (s.settings.unnest schema).fault <;> simp [sanitizeText, parsed, stops]

/-- A sanitizer does the work on a file, unless its meter fails; then it may have been done or not. -/
theorem work_sanitizeFile (s : Sanitizer) (readings : Readings) (fs : FileSystem) (source : FilePath) :
    ((s.sanitizeFile readings fs source).work.result = (runOne s.settings fs source).result ∧
        (s.sanitizeFile readings fs source).work.fs = (runOne s.settings fs source).fs) ∨
      (∃ fault, (s.sanitizeFile readings fs source).work.result = .error (.meter fault)) ∧
        ((s.sanitizeFile readings fs source).work.fs = fs ∨
          (s.sanitizeFile readings fs source).work.fs = (runOne s.settings fs source).fs) := by
  cases metered : s.meter with
  | none =>
    obtain ⟨report, done⟩ := sanitizeFile_unmetered metered readings fs source
    rw [done]
    exact .inl ⟨rfl, rfl⟩
  | some p =>
    obtain ⟨report, done⟩ :=
      process_eq { s with meter := some (p.start (sessionName source) (fs.size source.text) readings.start).after } fs source
    simp only [sanitizeFile, metered]
    cases (p.start (sessionName source) (fs.size source.text) readings.start).result with
    | error fault => exact .inr ⟨⟨fault, rfl⟩, .inl rfl⟩
    | ok opened =>
      simp only [done]
      cases (runOne s.settings fs source).result with
      | error fault =>
        dsimp only
        split
        · exact .inr ⟨⟨_, rfl⟩, .inr trivial⟩
        · exact .inl ⟨rfl, trivial⟩
      | ok result =>
        dsimp only
        split
        · exact .inr ⟨⟨_, rfl⟩, .inr trivial⟩
        · exact .inl ⟨rfl, trivial⟩

/-- A successful result vouches for its output: the file at the path holds the text of the result, which renders what
becomes of the schema in the source, and the fragments that were moved on the way have been counted. -/
structure Delivers (s : Sanitizer) (fs after : FileSystem) (source : FilePath) (result : FileResult) (text : Text)
    (schema : Json) (path : FilePath) : Prop where
  input : Document.readText fs source.text = .ok text
  parsed : (Schema.parse s.settings.stack.levels s.settings.maxDepth (.str text)).1 = .ok schema
  sanitized : ∃ root, (s.sanitizeText (.str text)).1 = .ok root ∧
    result.rendered = some (root.render s.settings.indent) ∧
      ∃ content, Utf8.encode (root.render s.settings.indent) = .ok content ∧ after.read path.text = .ok content
  beside : source.withName (source.name ++ s.settings.ending) = .ok path
  output : result.outputPath = some path
  extracted : result.extracted = (s.settings.unnest schema).made.length

/-- The work on a file keeps to its output file. -/
structure Confined (s : Sanitizer) (readings : Readings) (fs : FileSystem) (source : FilePath)
    (work : Work FileResult) :
    Prop where
  current : work.fs.current = fs.current
  others : ∀ location, work.fs.lookup location ≠ fs.lookup location → ∃ path,
    source.withName (source.name ++ s.settings.ending) = .ok path ∧ fs.target path.text = .ok location
  input : work.fs.read source.text = fs.read source.text
  unavailable : (¬ ∃ schema, Holds s.settings fs source schema) →
    work.fs = fs ∧ (∀ result, work.result = .ok result → result.success = false) ∧
      (IsPath source.text → (s.meter.isSome → readings.Usable) → ∃ result, work.result = .ok result)
  success : ∀ result, work.result = .ok result → result.success = true →
    ∃ text schema path, s.Delivers fs work.fs source result text schema path
  failure : ∀ result, work.result = .ok result → result.success = false → work.fs = fs
  refused : ∀ schema path fault, Prepares s.settings fs source schema path → fs.target path.text = .error fault →
    fault.isRefusal → work.fs = fs ∧
      (∀ result, work.result = .ok result → result.success = false ∧ result.outputPath = some path ∧
        result.rendered = some (rendering s.settings schema)) ∧
      ((s.meter.isSome → readings.Usable) → ∃ result, work.result = .ok result)

theorem sanitizeFile_confined (s : Sanitizer) (nonempty : s.settings.ending ≠ []) (readings : Readings)
    (fs : FileSystem) (path : Text) :
    s.Confined readings fs (.ofText path) (s.sanitizeFile readings fs (.ofText path)).work := by
  have normal := FilePath.normal_ofText path
  generalize FilePath.ofText path = source at normal ⊢
  have outcome := outcome_runOne s.settings fs source
  have worked := s.work_sanitizeFile readings fs source
  have left : (s.sanitizeFile readings fs source).work.fs = fs ∨
      (s.sanitizeFile readings fs source).work.fs = (runOne s.settings fs source).fs := by
    rcases worked with ⟨-, same⟩ | ⟨-, either⟩
    · exact .inr same
    · exact either
  have puts : Puts s.settings fs source (s.sanitizeFile readings fs source).work.fs := by
    rcases left with same | same
    · rw [same]
      exact .nothing
    · rw [same]
      exact outcome.puts
  have returned : ∀ result, (s.sanitizeFile readings fs source).work.result = .ok result →
      Outcome s.settings fs source (.ok result) (s.sanitizeFile readings fs source).work.fs := by
    intro result done
    rcases worked with ⟨same, kept⟩ | ⟨⟨fault, failed⟩, -⟩
    · rw [kept, ← done, same]
      exact outcome
    · rw [failed] at done
      cases done
  constructor
  · exact puts.alike.current
  · intro location
    exact puts.frame
  · exact puts.read_source normal nonempty
  · intro absent
    refine ⟨?_, ?_, ?_⟩
    · rcases left with same | same
      · exact same
      · rw [same, (outcome.unavailable absent).1]
    · intro result done
      exact ((returned result done).unavailable absent).2 result rfl
    · intro good usable
      rw [(work_sanitizeFile_of_usable usable fs source).1]
      obtain ⟨root, loaded⟩ := Document.load_of_isPath s.settings.stack.levels s.settings.maxDepth fs good
      cases root with
      | none => exact ⟨_, result_runOne_rootless loaded⟩
      | some root => exact absurd ⟨root, load_eq_ok_iff.1 loaded⟩ absent
  · intro result done succeeded
    obtain ⟨schema, path, location, content, prepared, opened, encoded, rfl, put⟩ :=
      (returned result done).success succeeded
    obtain ⟨text, read, parsed⟩ := load_eq_ok_iff.1 prepared.loaded
    refine ⟨text, schema, path, ?_⟩
    constructor
    · exact read
    · exact parsed
    · refine ⟨_, sanitizeText_eq_ok_iff.2 ⟨schema, parsed, prepared.ends, rfl⟩, rfl, content, encoded, ?_⟩
      rw [put]
      exact read_put opened content
    · exact prepared.named
    · rfl
    · rfl
  · intro result done failed
    exact (returned result done).failure failed
  · intro schema path fault prepared closed refusal
    obtain ⟨given, kept⟩ := (Outcome.refused prepared closed refusal).runOne
    refine ⟨?_, ?_, ?_⟩
    · rcases left with same | same
      · exact same
      · rw [same, kept]
    · intro result done
      have same := (returned result done).runOne.1
      rw [given, Except.ok.injEq] at same
      subst same
      exact ⟨rfl, rfl, rfl⟩
    · intro usable
      rw [(work_sanitizeFile_of_usable usable fs source).1]
      exact ⟨_, given⟩

theorem sanitizeFile_confined_mixedFiles :
    (fresh standard true).settings.ending ≠ [] ∧
      (∃ result, ((fresh standard true).sanitizeFile (steadyReadings 0) mixedFiles (.ofText "b.json")).work.result =
        .ok result ∧ result.success) ∧
      (fresh standard true).Confined (steadyReadings 0) mixedFiles (.ofText "b.json")
        ((fresh standard true).sanitizeFile (steadyReadings 0) mixedFiles (.ofText "b.json")).work := by
  have nonempty : (fresh standard true).settings.ending ≠ [] := by decide
  have returned : ((fresh standard true).sanitizeFile (steadyReadings 0) mixedFiles
    (.ofText "b.json")).work.result.isOk := by
    decide +kernel
  have succeeded : ((fresh standard true).sanitizeFile (steadyReadings 0) mixedFiles (.ofText "b.json")).work.result.map
      (·.success) = .ok true := by decide +kernel
  obtain ⟨result, found⟩ := exists_eq_ok returned
  rw [found] at succeeded
  exact ⟨nonempty, ⟨result, found, Except.ok.inj succeeded⟩,
    sanitizeFile_confined (fresh standard true) nonempty (steadyReadings 0) mixedFiles "b.json"⟩

end Sanitizer
end SchemaUnnest
