import SchemaUnnest.Proofs.Outputs

namespace SchemaUnnest

namespace Meter

structure Idle (p : Meter) : Prop where
  operation : p.operation = none
  startTime : p.startTime = none
  startMemory : p.startMemory = none

structure Figures where
  name : Text
  inputSize : Int
  outputSize : Int
  definitionsCreated : Int
deriving DecidableEq

def figuresOf (metrics : Metrics) : Figures :=
  ⟨metrics.name, metrics.inputSize, metrics.outputSize, metrics.definitionsCreated⟩

structure Runs (p : Meter) (name : Text) (inputSize : Int) (past : List Metrics) : Prop where
  ready : p.Ready
  operation : p.operation = some name
  inputSize : p.inputSize = inputSize
  history : p.history = past

structure Ended (p : Meter) (past : List Metrics) (figures : Figures) : Prop where
  idle : p.Idle
  entered : ∃ metrics, p.history = past ++ [metrics] ∧ figuresOf metrics = figures

variable {p : Meter} {name : Text} {size : Int} {past : List Metrics}

theorem runs_start (p : Meter) {name : Text} (named : name ≠ []) (size : Int) {reading : Reading}
    (memory : reading.memory.isSome) (clock : reading.now.isZero = false) :
    (p.start name size reading).after.Runs name size p.history := by
  have ready := (p.ready_start named size memory clock).2
  obtain ⟨used, read⟩ := Option.isSome_iff_exists.1 memory
  simp only [start, read] at ready ⊢
  exact ⟨ready, rfl, rfl, rfl⟩

/-- A sample shows in the peak and nowhere else. -/
theorem after_sample (p : Meter) (reading : Reading) : ∃ peak, (p.sample reading).after = { p with peak := peak } := by
  unfold Meter.sample
  split
  · exact ⟨p.peak, rfl⟩
  · cases reading.memory with
    | none => exact ⟨p.peak, rfl⟩
    | some memory => exact ⟨raisePeak p.peak memory, rfl⟩

theorem Runs.sample (h : p.Runs name size past) (reading : Reading) :
    (p.sample reading).after.Runs name size past := by
  have ready := h.ready.sample reading
  obtain ⟨peak, same⟩ := p.after_sample reading
  rw [same] at ready ⊢
  exact ⟨ready, h.operation, h.inputSize, h.history⟩

/-- A stop that returns enters the session with the figures it is given, and closes it. -/
theorem ended_stop {output extracted : Int} {reading : Reading} {metrics : Metrics}
    (stopped : (p.stop output extracted reading).result = .ok metrics) :
    p.operation = some metrics.name ∧
      (p.stop output extracted reading).after.Ended p.history ⟨metrics.name, p.inputSize, output, extracted⟩ := by
  unfold Meter.stop at stopped ⊢
  cases session : p.session? with
  | none => simp [session] at stopped
  | some found =>
    obtain ⟨name, start⟩ := found
    have held : p.operation = some name := by
      unfold session? at session
      split at session
      · split at session
        · cases session
          assumption
        · cases session
      · cases session
    cases memory : reading.memory.or p.startMemory with
    | none => simp [session, memory] at stopped
    | some used =>
      simp only [session, memory, Except.ok.injEq] at stopped ⊢
      subst stopped
      exact ⟨held, ⟨rfl, rfl, rfl⟩, _, rfl, rfl⟩

theorem Runs.stop (h : p.Runs name size past) (output extracted : Int) (reading : Reading) :
    (p.stop output extracted reading).after.Ended past ⟨name, size, output, extracted⟩ := by
  obtain ⟨metrics, stopped⟩ := (h.ready.stop output extracted reading).1
  obtain ⟨named, ended⟩ := ended_stop stopped
  rw [h.operation, Option.some.injEq] at named
  rwa [← named, h.inputSize, h.history] at ended

theorem Runs.leave (h : p.Runs name size past) (reading : Reading) :
    (p.leave reading).after.Ended past ⟨name, size, 0, 0⟩ := by
  have filled : p.isOpen := by
    obtain ⟨name, start, memory, operation, named, -⟩ := h.ready
    simp [isOpen, operation, named]
  simpa only [Meter.leave, filled, if_true] using h.stop 0 0 reading

theorem Ended.leave {figures : Figures} (h : p.Ended past figures) (reading : Reading) :
    (p.leave reading).after.Ended past figures := by
  have closed : p.isOpen = false := by simp [isOpen, h.idle.operation]
  simpa only [Meter.leave, closed, Bool.false_eq_true, if_false] using h

end Meter

namespace Batch

open Meter

def octets (result : FileResult) : Nat :=
  match Utf8.encode (result.rendered.getD []) with
  | .ok content => content.length
  | .error _ => 0

def credited (result : FileResult) : Nat := if result.success then result.extracted else 0

def delivered (result : FileResult) : Nat := if result.success then octets result else 0

def figures (fs : FileSystem) (source : FilePath) (result : FileResult) : Figures :=
  ⟨sessionName source, fs.size source.text, delivered result, credited result⟩

theorem octets_of_encode {result : FileResult} {text : Text} {content : Bytes} (rendered : result.rendered = some text)
    (encoded : Utf8.encode text = .ok content) : octets result = content.length ∧
      outputSize result = content.length := by
  refine ⟨by simp [octets, rendered, encoded], ?_⟩
  unfold Utf8.encode at encoded
  split at encoded
  · cases encoded
  · cases encoded
    simp [outputSize, rendered]

theorem encodes_of_success {settings : Settings} {fs : FileSystem} {source : FilePath} {result : FileResult}
    (done : (runOne settings fs source).result = .ok result) (succeeded : result.success) :
    ∃ text content, result.rendered = some text ∧ Utf8.encode text = .ok content := by
  have outcome := outcome_runOne settings fs source
  rw [done] at outcome
  obtain ⟨root, path, location, content, -, -, encoded, rfl, -⟩ := outcome.success succeeded
  exact ⟨_, content, rfl, encoded⟩

theorem ended_finish {p : Meter} {name : Text} {size : Int} {past : List Metrics} (h : p.Runs name size past)
    (readings : Readings) (result : FileResult) :
    (finish readings p result).after.Ended past
      ⟨name, size, if result.success then outputSize result else 0, credited result⟩ := by
  have sampled := h.sample readings.sample
  cases succeeded : result.success with
  | true =>
    simp only [finish, credited, succeeded, if_true]
    exact (sampled.stop (outputSize result) result.extracted readings.stop).leave readings.stop
  | false =>
    simp only [finish, credited, succeeded, Bool.false_eq_true, if_false]
    exact sampled.leave readings.stop

def ledger (settings : Settings) (fs : FileSystem) : List FilePath → List FileResult → List Figures
  | source :: rest, result :: others => figures fs source result :: ledger settings
    (runOne settings fs source).fs rest others
  | _, _ => []

theorem getElem?_ledger (settings : Settings) (fs : FileSystem) {sources : List FilePath} {results : List FileResult}
    {place : Nat} {source : FilePath} {result : FileResult} (found : sources[place]? = some source)
    (given : results[place]? = some result) :
    (ledger settings fs sources results)[place]? =
      some (figures (stage settings fs (sources.take place)) source result) := by
  induction sources generalizing fs results place with
  | nil => cases found
  | cons first rest ih =>
    cases results with
    | nil => cases given
    | cons one others =>
      cases place with
      | zero =>
        cases found
        cases given
        rfl
      | succ place => exact ih _ found given

theorem columns_ledger (settings : Settings) (fs : FileSystem) {sources : List FilePath} {results : List FileResult}
    (length : results.length = sources.length) :
    (ledger settings fs sources results).map (·.inputSize) =
        (sources.mapIdx fun place source => ((stage settings fs (sources.take place)).size source.text : Int)) ∧
      (ledger settings fs sources results).map (·.outputSize) = results.map (fun result => (delivered result : Int)) ∧
      (ledger settings fs sources results).map (·.definitionsCreated) =
        results.map (fun result => (credited result : Int)) := by
  induction sources generalizing fs results with
  | nil =>
    cases results with
    | nil => exact ⟨rfl, rfl, rfl⟩
    | cons one others => cases length
  | cons first rest ih =>
    cases results with
    | nil => cases length
    | cons one others =>
      obtain ⟨input, output, created⟩ := ih (runOne settings fs first).fs (Nat.succ.inj length)
      simp only [ledger, List.map_cons, List.mapIdx_cons, input, output, created, figures, and_true]
      rfl

end Batch

namespace Meter

theorem summary_eq (p : Meter) :
    p.summary.inputSize = ((p.history.map figuresOf).map (·.inputSize)).sum ∧
      p.summary.outputSize = ((p.history.map figuresOf).map (·.outputSize)).sum ∧
      p.summary.definitionsCreated = ((p.history.map figuresOf).map (·.definitionsCreated)).sum := by
  simp only [summary, List.sum_eq_foldl, List.foldl_map, figuresOf, and_self]

end Meter

namespace Sanitizer

open Batch Meter

/-- The session of a file is closed once, whether the work went well or not. -/
theorem ended_sanitizeFile {s : Sanitizer} {p : Meter} (metered : s.meter = some p) {readings : Readings}
    (usable : readings.Usable) {fs : FileSystem} {source : FilePath} {result : FileResult}
    (done : (runOne s.settings fs source).result = .ok result) :
    ∃ left, (s.sanitizeFile readings fs source).after.meter = some left ∧
      left.Ended p.history (figures fs source result) := by
  have named : sessionName source ≠ [] := by simp [sessionName, Text.ofString]
  have runs := p.runs_start named (fs.size source.text) usable.1 usable.2
  have ended := ended_finish runs readings result
  have size : (if result.success then outputSize result else 0) = delivered result := by
    unfold delivered
    split
    · rename_i succeeded
      obtain ⟨text, content, rendered, encoded⟩ := encodes_of_success done succeeded
      obtain ⟨own, measured⟩ := octets_of_encode rendered encoded
      rw [own, measured]
    · rfl
  obtain ⟨-, -, -, meter⟩ := sanitizeFile_metered metered usable fs source
  refine ⟨_, meter, ?_⟩
  simpa only [done, figures, ← size, Nat.cast_ite, Nat.cast_zero] using ended

theorem ledger_sanitizeEach {s : Sanitizer} {p : Meter} (metered : s.meter = some p) {readings : Nat → Readings}
    (usable : ∀ place, (readings place).Usable) (place : Nat) {fs : FileSystem} {sources : List FilePath}
    {results : List FileResult} (idle : p.Idle) (returned : (runEach s.settings fs sources).result = .ok results) :
    ∃ left, (s.sanitizeEach readings place fs sources).after.meter = some left ∧ left.Idle ∧
      left.history.map figuresOf = p.history.map figuresOf ++ ledger s.settings fs sources results := by
  induction sources generalizing s p place fs results with
  | nil =>
    cases returned
    exact ⟨p, metered, idle, by simp [ledger]⟩
  | cons source rest ih =>
    obtain ⟨same, moved, settings, -⟩ := sanitizeFile_metered metered (usable place) fs source
    rw [runEach] at returned
    cases here : (runOne s.settings fs source).result with
    | error fault => simp [here] at returned
    | ok result =>
      cases later : (runEach s.settings (runOne s.settings fs source).fs rest).result with
      | error fault => simp [here, later, Except.map] at returned
      | ok others =>
        simp only [here, later, Except.map, Except.ok.injEq] at returned
        subst returned
        obtain ⟨between, held, ended⟩ := ended_sanitizeFile metered (usable place) here
        obtain ⟨metrics, entered, own⟩ := ended.entered
        have behind : (runEach (s.sanitizeFile (readings place) fs source).after.settings
            (runOne s.settings fs source).fs rest).result = .ok others := by rwa [settings]
        obtain ⟨left, kept, closed, history⟩ := ih held (place + 1) ended.idle behind
        refine ⟨left, ?_, closed, ?_⟩
        · rw [sanitizeEach]
          simpa only [same, here, moved] using kept
        · rw [history, entered, List.map_append, List.map_singleton, own, List.append_assoc, List.singleton_append,
            settings]
          rfl

/-- The meter has told of a batch what its results tell: one operation for each file, in their order, with the size the
file had when its turn came; and the sums. -/
structure Accounts (s : Sanitizer) (readings : Nat → Readings) (fs : FileSystem) (sources : List FilePath)
    (results : List FileResult) (p : Meter) : Prop where
  idle : p.Idle
  count : p.summary.operations.length = sources.length
  each : ∀ place source, sources[place]? = some source → ∃ result metrics, results[place]? = some result ∧
    p.summary.operations[place]? = some metrics ∧
      figuresOf metrics = figures (s.sanitizeFiles readings fs (sources.take place)).work.fs source result
  encoded : ∀ result ∈ results, result.success → ∃ text content, result.rendered = some text ∧
    Utf8.encode text = .ok content ∧ octets result = content.length
  definitionsCreated : p.summary.definitionsCreated = (results.map fun result => (credited result : Int)).sum
  outputSize : p.summary.outputSize = (results.map fun result => (delivered result : Int)).sum
  inputSize : p.summary.inputSize = (sources.mapIdx fun place source =>
    ((s.sanitizeFiles readings fs (sources.take place)).work.fs.size source.text : Int)).sum

theorem summary_accounts_for_results {settings : Settings} {readings : Nat → Readings}
    (usable : ∀ place, (readings place).Usable) {fs : FileSystem} {sources : List FilePath} {results : List FileResult}
    (returned : ((fresh settings true).sanitizeFiles readings fs sources).work.result = .ok results) :
    ∃ p, ((fresh settings true).sanitizeFiles readings fs sources).after.meter = some p ∧
      (fresh settings true).Accounts readings fs sources results p := by
  have metered : (fresh settings true).meter = some .fresh := rfl
  have same : ∀ part, ((fresh settings true).sanitizeFiles readings fs part).work.result =
    (runEach settings fs part).result ∧
      ((fresh settings true).sanitizeFiles readings fs part).work.fs = (runEach settings fs part).fs :=
    work_sanitizeFiles (fun _ => usable) fs
  rw [(same sources).1] at returned
  have told := reports_runEach returned
  have length : results.length = sources.length := by rw [← told.inOrder, List.length_map]
  -- the files before each of the sources are as the batch of the sources before it leaves them
  have staged : ∀ place, ((fresh settings true).sanitizeFiles readings fs (sources.take place)).work.fs =
      stage settings fs (sources.take place) := by
    intro place
    obtain ⟨first, done⟩ := returns_take returned place
    rw [(same _).2]
    exact fs_runEach done
  obtain ⟨left, kept, idle, entered⟩ := ledger_sanitizeEach metered usable 0 ⟨rfl, rfl, rfl⟩ returned
  change left.history.map figuresOf = ledger settings fs sources results at entered
  obtain ⟨inputs, outputs, created⟩ := columns_ledger settings fs length
  obtain ⟨input, output, definitions⟩ := left.summary_eq
  refine ⟨left, kept, idle, ?_, ?_, ?_, ?_, ?_, ?_⟩
  · have lengths := congrArg List.length inputs
    rwa [← entered, List.length_map, List.length_map, List.length_mapIdx] at lengths
  · intro place source found
    obtain ⟨result, given, -⟩ := told.at_place found
    have own := getElem?_ledger settings fs found given
    rw [← entered, List.getElem?_map] at own
    obtain ⟨metrics, held, same⟩ := Option.map_eq_some_iff.1 own
    exact ⟨result, metrics, given, held, by rw [same, staged]⟩
  · intro result member succeeded
    obtain ⟨place, given⟩ := List.getElem?_of_mem member
    obtain ⟨inside, -⟩ := List.getElem?_eq_some_iff.1 given
    obtain ⟨other, same, done⟩ := told.at_place (List.getElem?_eq_getElem (length ▸ inside))
    rw [given, Option.some.injEq] at same
    subst same
    obtain ⟨text, content, rendered, encoded⟩ := encodes_of_success done succeeded
    exact ⟨text, content, rendered, encoded, (octets_of_encode rendered encoded).1⟩
  · rw [definitions, entered, created]
  · rw [output, entered, outputs]
  · rw [input, entered, inputs]
    simp only [staged]

def blockedFiles : FileSystem :=
  ⟨[([Text.ofString "a.json"], fileOf "\x7b\"properties\":\x7b\"p\":\x7b\"properties\":\x7b\x7d\x7d\x7d\x7d"),
    ([Text.ofString "b.json"], fileOf "\x7b\"properties\":\x7b\"p\":\x7b\"properties\":\x7b\x7d\x7d\x7d\x7d"),
    ([Text.ofString "b.json.san"], .directory), ([Text.ofString "c.json"], fileOf "[]")], []⟩

def blockedSources : List FilePath :=
  [.ofText "a.json", .ofText "b.json", .ofText "c.json", .ofText "d.json", .ofText "a.json.san"]

theorem summary_accounts_for_results_blockedSources :
    (∀ place, (steadyReadings place).Usable) ∧
      ∃ results p, ((fresh standard true).sanitizeFiles steadyReadings blockedFiles blockedSources).work.result
        = .ok results ∧
        results.map (·.success) = [true, false, false, false, true] ∧ results.map (·.extracted) = [1, 1, 0, 0, 0] ∧
        ((fresh standard true).sanitizeFiles steadyReadings blockedFiles blockedSources).after.meter = some p ∧
        (fresh standard true).Accounts steadyReadings blockedFiles blockedSources results p := by
  have told : ((fresh standard true).sanitizeFiles steadyReadings blockedFiles blockedSources).work.result.map
      (fun results => (results.map (·.success), results.map (·.extracted))) =
        .ok ([true, false, false, false, true], [1, 1, 0, 0, 0]) := by decide +kernel
  obtain ⟨results, returned, shown⟩ := Json.ok_of_map told
  obtain ⟨success, extracted⟩ := Prod.mk.inj shown
  obtain ⟨p, kept, accounts⟩ := summary_accounts_for_results usable_steadyReadings returned
  exact ⟨usable_steadyReadings, results, p, returned, success, extracted, kept, accounts⟩

end Sanitizer
end SchemaUnnest
