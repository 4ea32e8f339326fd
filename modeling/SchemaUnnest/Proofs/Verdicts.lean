import SchemaUnnest.Proofs.Digits
import SchemaUnnest.Proofs.Scans
import SchemaUnnest.Schema.Validation

namespace SchemaUnnest

namespace Json

theorem visible_of_isDigit {c : CodePoint} (digit : c.isDigit) : c.isBlank = false := by
  have range := CodePoint.isDigit_iff.1 digit
  simp only [CodePoint.isBlank, List.any_cons, List.any_nil, Bool.or_eq_false_iff, Bool.and_eq_false_iff,
    decide_eq_false_iff_not, and_true]
  omega

theorem isBlank_of_visible {text : Text} {c : CodePoint} (member : c ∈ text) (visible : c.isBlank = false) :
    text.isBlank = false := by
  rw [Text.isBlank, List.all_eq_false]
  exact ⟨c, member, by simpa using visible⟩

theorem HoldsLongRun.isBlank {text : Text} {digits : Nat} (h : HoldsLongRun text digits) : text.isBlank = false := by
  obtain ⟨long, run, length, each, held⟩ := h
  cases run with
  | nil =>
    rw [List.length_nil] at length
    omega
  | cons c run =>
    have first : c ∈ c :: run := List.mem_cons_self
    exact isBlank_of_visible (held.subset first) (visible_of_isDigit (each c first))

theorem isBlank_of_readScalar {text rest : Text} {value : Json} (h : readScalar text = .ok (value, rest)) :
    text.isBlank = false := by
  have visible : ∀ entry ∈ named, ∃ c ∈ entry.1, c.isBlank = false := by decide
  rcases readScalar_cases h with ⟨name, member, rfl⟩ | ⟨numeral, taken, -⟩
  · obtain ⟨c, inside, shown⟩ := visible _ member
    exact isBlank_of_visible (List.mem_append_left rest inside) shown
  · obtain ⟨some, each⟩ := whole_of_takeNumeral taken
    obtain ⟨after, -, held⟩ := takeNumeral_suffix taken
    obtain ⟨c, inside⟩ := List.exists_mem_of_ne_nil _ some
    exact isBlank_of_visible (held.subset (List.mem_append_left after inside)) (visible_of_isDigit (each c inside))

theorem isBlank_of_readNode {inner : Option (Text → Scan Json)} {text rest : Text} {value : Json}
    (h : readNode inner text = .ok (value, rest)) : text.isBlank = false := by
  cases readNode_eq_ok_iff.1 h with
  | str | noItems | items | noFields | fields => exact isBlank_of_visible List.mem_cons_self (by decide)
  | scalar _ _ _ read => exact isBlank_of_readScalar read

theorem isBlank_of_readValue {levels : Nat} {text rest : Text} {value : Json}
    (h : readValue levels text = .ok (value, rest)) : text.isBlank = false := by
  cases levels with
  | zero => exact isBlank_of_readNode h
  | succ levels => exact isBlank_of_readNode h

theorem isBlank_of_suffix {text rest : Text} (inner : rest <:+ text) (visible : rest.isBlank = false) :
    text.isBlank = false := by
  obtain ⟨c, member, shown⟩ := List.all_eq_false.1 visible
  exact isBlank_of_visible (inner.subset member) (by simpa using shown)

theorem isBlank_of_read {levels : Nat} {text : Text} {root : Json} (h : read levels text = .ok root) :
    text.isBlank = false := by
  unfold read at h
  split at h
  · cases h
  · split at h
    · cases h
    · rename_i found
      exact isBlank_of_suffix (skipSpace_suffix text) (isBlank_of_readValue found)

end Json

namespace Schema

def Accepts (levels : Nat) (limit : Int) (text : Text) (root : Json) : Prop :=
  Json.read levels text = .ok root ∧ root.isObject ∧ root.depth ≤ limit

inductive Answer (levels : Nat) (limit : Int) (text : Text) : Except LongNumber (Verdict × Option Json) → Prop
  | unread {digits : Nat} (read : Json.read levels text = .error (.tooManyDigits digits)) :
    Answer levels limit text (.error ⟨digits⟩)
  | refused {problem : Problem} (readable : ∀ digits, Json.read levels text ≠ .error (.tooManyDigits digits))
    (unfit : ∀ root, ¬ Accepts levels limit text root) : Answer levels limit text (.ok (.refuse problem, none))
  | accepted {root : Json} (fit : Accepts levels limit text root) :
    Answer levels limit text (.ok (checkRoot limit root, some root))

theorem checkRoot_of_unfit {limit : Int} {root : Json} (unfit : ¬(root.isObject ∧ root.depth ≤ limit)) :
    ∃ problem, checkRoot limit root = .refuse problem := by
  unfold checkRoot
  split
  · exact ⟨_, rfl⟩
  · rename_i object
    have tall : limit < root.depth := by
      by_contra low
      exact unfit ⟨by simpa using object, by omega⟩
    exact ⟨.nestsTooDeep root.depth limit, if_pos tall⟩

theorem answer_of_ok {levels : Nat} {limit : Int} {text : Text} {root : Json}
    (read : Json.read levels text = .ok root) :
    Answer levels limit text (check levels limit (.str text)) := by
  have visible := Json.isBlank_of_read read
  have checked : check levels limit (.str text) = .ok (checkRoot limit root,
      if (checkRoot limit root).isValid then some root else none) := by simp [check, checkText, visible, read]
  rw [checked]
  by_cases fit : root.isObject ∧ root.depth ≤ limit
  · rw [if_pos (isValid_checkRoot.2 fit)]
    exact .accepted ⟨read, fit⟩
  · have readable : ∀ digits, Json.read levels text ≠ .error (.tooManyDigits digits) := by simp [read]
    have unfit : ∀ other, ¬ Accepts levels limit text other := by
      rintro other ⟨same, object, shallow⟩
      cases read.symm.trans same
      exact fit ⟨object, shallow⟩
    obtain ⟨problem, refused⟩ := checkRoot_of_unfit fit
    rw [if_neg (mt isValid_checkRoot.1 fit), refused]
    exact .refused readable unfit

/-- A blank text is told of before it is read, but reading it would fail as well, and not for a number. -/
theorem answer_of_isBlank {levels : Nat} {limit : Int} {text : Text} (blank : text.isBlank) :
    Answer levels limit text (check levels limit (.str text)) := by
  have readable : ∀ digits, Json.read levels text ≠ .error (.tooManyDigits digits) := by
    intro digits long
    rw [(Json.run_read long).isBlank] at blank
    cases blank
  have unfit : ∀ root, ¬ Accepts levels limit text root := by
    rintro root ⟨found, -⟩
    rw [Json.isBlank_of_read found] at blank
    cases blank
  have checked : check levels limit (.str text) = .ok (.refuse .blank, none) := by simp [check, checkText, blank]
  rw [checked]
  exact .refused readable unfit

theorem answer_of_error {levels : Nat} {limit : Int} {text : Text} {fault : Json.ReadFault}
    (visible : text.isBlank = false)
    (read : Json.read levels text = .error fault) : Answer levels limit text (check levels limit (.str text)) := by
  have unfit : ∀ root, ¬ Accepts levels limit text root := by
    rintro root ⟨found, -⟩
    rw [read] at found
    cases found
  cases fault with
  | malformed fault remaining =>
    have checked : check levels limit (.str text) = .ok (.refuse (.malformed fault (Json.lineAndColumn text remaining).1
        (Json.lineAndColumn text remaining).2), none) := by simp [check, checkText, visible, read]
    rw [checked]
    exact .refused (by simp [read]) unfit
  | tooManyDigits digits =>
    have checked : check levels limit (.str text) = .error ⟨digits⟩ := by simp [check, checkText, visible, read]
    rw [checked]
    exact .unread read
  | tooDeep container =>
    have checked : check levels limit (.str text) = .ok (.refuse (.unreadable container), none) := by
      simp [check, checkText, visible, read]
    rw [checked]
    exact .refused (by simp [read]) unfit

theorem answer_check (levels : Nat) (limit : Int) (text : Text) :
    Answer levels limit text (check levels limit (.str text)) := by
  cases blank : text.isBlank with
  | true => exact answer_of_isBlank blank
  | false =>
    cases read : Json.read levels text with
    | ok root => exact answer_of_ok read
    | error fault => exact answer_of_error blank read

/-- What a verdict on a text promises of the text, and of parsing it. -/
structure Vouches (levels : Nat) (limit : Int) (text : Text) (verdict : Verdict) : Prop where
  valid_iff : verdict.isValid ↔ ∃ root, Accepts levels limit text root
  parsed_iff : ∀ root, (parse levels limit (.str text)).1 = .ok root ↔ verdict.isValid ∧
    Json.read levels text = .ok root
  refused : verdict.isValid = false → ∃ problem fault, verdict.problems = [problem] ∧ verdict.warnings = [] ∧
    (∀ line ∈ verdict.log, line.level ≠ .warning) ∧ (parse levels limit (.str text)).1 = .error fault ∧
    fault.message = "Invalid JSON input: " ++ problem.message

theorem parse_eq_ok_iff_accepts {levels : Nat} {limit : Int} {text : Text} {root : Json} :
    (parse levels limit (.str text)).1 = .ok root ↔ Accepts levels limit text root := by
  rw [parse_eq_ok_iff]
  constructor
  · rintro ⟨-, fit⟩
    exact fit
  · intro fit
    exact ⟨Json.isBlank_of_read fit.1, fit⟩

theorem parsed_iff_of_valid_iff {levels : Nat} {limit : Int} {text : Text} {verdict : Verdict}
    (valid : verdict.isValid ↔ ∃ root, Accepts levels limit text root) (root : Json) :
    (parse levels limit (.str text)).1 = .ok root ↔ verdict.isValid ∧ Json.read levels text = .ok root := by
  rw [parse_eq_ok_iff_accepts, valid]
  constructor
  · intro fit
    exact ⟨⟨root, fit⟩, fit.1⟩
  · rintro ⟨⟨other, fit⟩, read⟩
    cases fit.1.symm.trans read
    exact fit

theorem level_of_mem_log_refuse {problem : Problem} {line : LogLine} (member : line ∈ (Verdict.refuse problem).log) :
    line.level = .error := by
  rw [Verdict.log, Verdict.refuse, List.map_nil, List.append_nil] at member
  obtain ⟨other, -, said⟩ := List.mem_filterMap.1 member
  obtain ⟨detail, -, rfl⟩ := Option.map_eq_some_iff.1 said
  rfl

theorem vouches_refused {levels : Nat} {limit : Int} {text : Text} {problem : Problem}
    (unfit : ∀ root, ¬ Accepts levels limit text root)
    (checked : check levels limit (.str text) = .ok (.refuse problem, none)) :
    Vouches levels limit text (.refuse problem) := by
  have valid : (Verdict.refuse problem).isValid ↔ ∃ root, Accepts levels limit text root := by
    simp [Verdict.refuse, Verdict.isValid, unfit]
  have parsed : (parse levels limit (.str text)).1 = .error (.invalid [problem]) := by
    simp [parse, checked, Verdict.refuse]
  have unwarned : ∀ line ∈ (Verdict.refuse problem).log, line.level ≠ .warning := by
    intro line member
    rw [level_of_mem_log_refuse member]
    decide
  exact ⟨valid, parsed_iff_of_valid_iff valid, fun _ => ⟨problem, _, rfl, rfl, unwarned, parsed, rfl⟩⟩

theorem vouches_accepted {levels : Nat} {limit : Int} {text : Text} {root : Json}
    (fit : Accepts levels limit text root) :
    Vouches levels limit text (checkRoot limit root) := by
  have sound : (checkRoot limit root).isValid := isValid_checkRoot.2 fit.2
  have valid : (checkRoot limit root).isValid ↔ ∃ root, Accepts levels limit text root := iff_of_true sound ⟨root, fit⟩
  refine ⟨valid, parsed_iff_of_valid_iff valid, ?_⟩
  intro invalid
  rw [sound] at invalid
  cases invalid

/-- There is a verdict on every text but one with a whole number in it that is too long to be read; then parsing fails
for that number. A verdict vouches for what it says. -/
theorem verdicts_agree_with_parse (levels : Nat) (limit : Int) (text : Text) :
    ((∃ answer, check levels limit (.str text) = .ok answer) ↔
      ∀ digits, Json.read levels text ≠ .error (.tooManyDigits digits)) ∧
      (∀ number, check levels limit (.str text) = .error number →
        Json.read levels text = .error (.tooManyDigits number.digits) ∧
        Json.HoldsLongRun text number.digits ∧ (parse levels limit (.str text)).1 = .error (.longNumber number)) ∧
      ∀ verdict accepted, check levels limit (.str text) = .ok (verdict, accepted) →
        Vouches levels limit text verdict := by
  have answer := answer_check levels limit text
  generalize checked : check levels limit (.str text) = found at answer
  cases answer with
  | @unread digits read =>
    refine ⟨by simp [read], ?_, by simp⟩
    intro number same
    cases same
    exact ⟨read, Json.run_read read, by simp [parse, checked]⟩
  | refused readable unfit =>
    refine ⟨iff_of_true ⟨_, rfl⟩ readable, by simp, ?_⟩
    intro verdict accepted same
    cases same
    exact vouches_refused unfit checked
  | accepted fit =>
    refine ⟨by simp [fit.1], by simp, ?_⟩
    intro verdict accepted same
    cases same
    exact vouches_accepted fit

theorem verdicts_agree_with_parse_brackets :
    (check 1000 maxDepth (.str ("[]" : Text)) = .ok (.refuse (.rootNoObject "list"), none) ∧
      Vouches 1000 maxDepth "[]" (.refuse (.rootNoObject "list"))) ∧
    check 1000 maxDepth (.str ("\x7b\x7d" : Text)) = .ok (⟨[], [.noDefinitions]⟩, some (.obj [])) ∧
      Vouches 1000 maxDepth "\x7b\x7d" ⟨[], [.noDefinitions]⟩ := by
  have array : check 1000 maxDepth (.str ("[]" : Text)) = .ok (.refuse (.rootNoObject "list"), none) := by
    decide +kernel
  have object : check 1000 maxDepth (.str ("\x7b\x7d" : Text)) = .ok (⟨[], [.noDefinitions]⟩, some (.obj [])) := by
    decide +kernel
  exact ⟨⟨array, (verdicts_agree_with_parse 1000 maxDepth _).2.2 _ _ array⟩, object,
    (verdicts_agree_with_parse 1000 maxDepth _).2.2 _ _ object⟩

def longDigits : Text := List.replicate 4301 '1'

/-- There is no verdict on them, and parsing does not say that the input is invalid. -/
theorem check_longDigits :
    check 1000 maxDepth (.str longDigits) = .error ⟨4301⟩ ∧
      (parse 1000 maxDepth (.str longDigits)).1 = .error (.longNumber ⟨4301⟩) := by
  have read : Json.read 1000 longDigits = .error (.tooManyDigits 4301) := by decide +kernel
  have visible : longDigits.isBlank = false := by decide +kernel
  have checked : check 1000 maxDepth (.str longDigits) = .error ⟨4301⟩ := by simp [check, checkText, visible, read]
  exact ⟨checked, by simp [parse, checked]⟩

end Schema
end SchemaUnnest
