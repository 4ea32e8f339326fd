import SchemaUnnest.Proofs.Batches

namespace SchemaUnnest.Sanitizer

open Batch

def alone (settings : Settings) (readings : Readings) (fs : FileSystem) (source : FilePath) : Work FileResult :=
  ((fresh settings false).sanitizeFile readings fs source).work

def chain (settings : Settings) (readings : Readings) (fs : FileSystem) (sources : List FilePath) : FileSystem :=
  sources.foldl (fun fs source => (alone settings readings fs source).fs) fs

theorem alone_eq (settings : Settings) (readings : Readings) (fs : FileSystem) (source : FilePath) :
    alone settings readings fs source = runOne settings fs source := by
  have unmetered : (fresh settings false).meter = none := rfl
  obtain ⟨report, done⟩ := sanitizeFile_unmetered unmetered readings fs source
  rw [alone, done]
  rfl

theorem chain_eq (settings : Settings) (readings : Readings) (fs : FileSystem) (sources : List FilePath) :
    chain settings readings fs sources = stage settings fs sources := by
  simp only [chain, stage, alone_eq]

theorem fs_runEach {settings : Settings} {fs : FileSystem} {sources : List FilePath} {results : List FileResult}
    (returned : (runEach settings fs sources).result = .ok results) :
    (runEach settings fs sources).fs = stage settings fs sources := by
  induction sources generalizing fs results with
  | nil => rfl
  | cons source rest ih =>
    rw [runEach] at returned ⊢
    cases here : (runOne settings fs source).result with
    | error fault => simp [here] at returned
    | ok result =>
      cases later : (runEach settings (runOne settings fs source).fs rest).result with
      | error fault => simp [here, later, Except.map] at returned
      | ok others =>
        dsimp only
        rw [ih later]
        rfl

theorem returns_take {settings : Settings} {fs : FileSystem} {sources : List FilePath} {results : List FileResult}
    (returned : (runEach settings fs sources).result = .ok results) (count : Nat) :
    ∃ first, (runEach settings fs (sources.take count)).result = .ok first := by
  have all := runEach_isOk_iff.1 ⟨results, returned⟩
  apply runEach_isOk_iff.2
  intro before source after split
  apply all before source (after ++ sources.drop count)
  rw [← List.cons_append, ← List.append_assoc, ← split, List.take_append_drop]

/-- What a batch has done, told file by file: a sanitizer made for the file alone gives the same result on the files
that the files before leave, and these are left so. With another meter or none the batch does the same. -/
structure IsChain (s : Sanitizer) (readings : Nat → Readings) (fs : FileSystem) (sources : List FilePath)
    (results : List FileResult) : Prop where
  length : results.length = sources.length
  each : ∀ (idle : Readings) place source, sources[place]? = some source → ∃ result, results[place]? = some result ∧
    (alone s.settings idle (chain s.settings idle fs (sources.take place)) source).result = .ok result
  stages : ∀ (idle : Readings) place,
    (s.sanitizeFiles readings fs (sources.take place)).work.fs = chain s.settings idle fs (sources.take place)
  left : ∀ idle : Readings, (s.sanitizeFiles readings fs sources).work.fs = chain s.settings idle fs sources
  others : ∀ (other : Sanitizer) (others : Nat → Readings), other.settings = s.settings →
    (other.meter.isSome → ∀ place, (others place).Usable) →
      (other.sanitizeFiles others fs sources).work.result = .ok results ∧
        (other.sanitizeFiles others fs sources).work.fs = (s.sanitizeFiles readings fs sources).work.fs

theorem batch_is_chain {s : Sanitizer} {readings : Nat → Readings}
    (usable : s.meter.isSome → ∀ place, (readings place).Usable) {fs : FileSystem} {sources : List FilePath}
    {results : List FileResult} (returned : (s.sanitizeFiles readings fs sources).work.result = .ok results) :
    s.IsChain readings fs sources results := by
  have same := work_sanitizeFiles usable fs
  rw [(same sources).1] at returned
  have told := reports_runEach returned
  constructor
  · rw [← told.inOrder, List.length_map]
  · intro idle place source found
    have split : sources = sources.take place ++ source :: sources.drop (place + 1) := by
      obtain ⟨inside, here⟩ := List.getElem?_eq_some_iff.1 found
      rw [← here, List.getElem_cons_drop, List.take_append_drop]
    obtain ⟨inside, -⟩ := List.getElem?_eq_some_iff.1 found
    obtain ⟨result, given, done⟩ := told.each _ source _ split
    have length : (sources.take place).length = place := List.length_take_of_le (Nat.le_of_lt inside)
    rw [length] at given
    exact ⟨result, given, by rw [alone_eq, chain_eq, done]⟩
  · intro idle place
    obtain ⟨first, done⟩ := returns_take returned place
    rw [(same _).2, chain_eq, fs_runEach done]
  · intro idle
    rw [(same _).2, chain_eq, fs_runEach returned]
  · intro other others settings usable'
    obtain ⟨result, left⟩ := work_sanitizeFiles usable' fs sources
    rw [result, left, settings, returned, (same _).2]
    exact ⟨rfl, rfl⟩

def linkedSources : List FilePath := [.ofText "b.json", .ofText "b.json.san", .ofText "c.json", .ofText "a.json"]

theorem batch_is_chain_linkedSources :
    ((fresh standard true).meter.isSome → ∀ place, (steadyReadings place).Usable) ∧
      ∃ results, ((fresh standard true).sanitizeFiles steadyReadings mixedFiles linkedSources).work.result =
          .ok results ∧
        (fresh standard true).IsChain steadyReadings mixedFiles linkedSources results := by
  have usable : (fresh standard true).meter.isSome → ∀ place, (steadyReadings place).Usable :=
    fun _ => usable_steadyReadings
  have returned : ((fresh standard true).sanitizeFiles steadyReadings mixedFiles linkedSources).work.result.isOk := by
    decide +kernel
  obtain ⟨results, found⟩ := exists_eq_ok returned
  exact ⟨usable, results, found, batch_is_chain usable found⟩

end SchemaUnnest.Sanitizer
