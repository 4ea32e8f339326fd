import SchemaUnnest.Json.Depth
import SchemaUnnest.Json.Reader
import SchemaUnnest.Log
import SchemaUnnest.Problem
import SchemaUnnest.Schema.Keyword
import SchemaUnnest.Text.Blank

namespace SchemaUnnest

inductive Problem where
  | blank
  | malformed (fault : Json.SyntaxFault) (line column : Nat)
  | rootNoObject (typeName : Text)
  | nestsTooDeep (depth limit : Int)
  | noText (typeName : Text)
  | unreadable (container : Json.Container)
deriving DecidableEq

def Json.Container.message (container : Json.Container) : Text :=
  let kind : Text := match container with
    | .array => "array"
    | .object => "object"
  "maximum recursion depth exceeded while decoding a JSON " ++ kind ++ " from a unicode string"

namespace Problem

def kind : Problem → ProblemKind
  | .blank | .malformed .. | .noText _ | .unreadable _ => .text
  | .rootNoObject _ | .nestsTooDeep .. => .shape

def unexpected : Problem → Option Text
  | .noText typeName => some ("'" ++ typeName ++ "' object has no attribute 'strip'")
  | .unreadable container => some container.message
  | _ => none

def message : Problem → Text
  | .blank => "JSON string is empty"
  | .malformed fault _ _ => "Invalid JSON syntax: " ++ fault.message
  | .rootNoObject typeName => "Schema root must be an object, got " ++ typeName
  | .nestsTooDeep depth limit =>
    "Schema nesting too deep (depth: " ++ Text.ofInt depth ++ ", limit: " ++ Text.ofInt limit ++ ")"
  | other => "Validation failed with unexpected error: " ++ other.unexpected.getD []

def location : Problem → Text
  | .malformed _ line column => "line " ++ Text.ofNat line ++ ", column " ++ Text.ofNat column
  | .rootNoObject _ | .nestsTooDeep .. => "root"
  | .blank | .noText _ | .unreadable _ => "input"

end Problem

inductive Warning where
  | deepNesting (depth : Int)
  | noDefinitions
  | definitionsNoObject
  | propertiesNoObject
deriving DecidableEq

def Warning.message : Warning → Text
  | .deepNesting depth =>
    "Deep nesting detected (depth: " ++ Text.ofInt depth ++ "). This may impact performance."
  | .noDefinitions => "Schema has no 'definitions' node; an empty one will be created."
  | .definitionsNoObject => "Schema 'definitions' node is not an object and will be left unchanged."
  | .propertiesNoObject => "Schema 'properties' node is not an object; nothing will be externalized."

structure Verdict where
  problems : List Problem
  warnings : List Warning
deriving DecidableEq

namespace Verdict

def isValid (verdict : Verdict) : Bool := verdict.problems.isEmpty

def refuse (problem : Problem) : Verdict := ⟨[problem], []⟩

def log (verdict : Verdict) : Log :=
  (verdict.problems.filterMap fun problem => problem.unexpected.map fun detail =>
    ⟨.error, "Unexpected error during input validation: " ++ detail⟩) ++
  verdict.warnings.map fun warning => ⟨.warning, warning.message⟩

end Verdict

namespace Schema

def deepNesting : Int := 64

def maxDepth : Int := 200

def definitionsWarnings (root : Json) : List Warning :=
  match root.get? Keyword.definitions with
  | none => [.noDefinitions]
  | some (.obj _) => []
  | some _ => [.definitionsNoObject]

def propertiesWarnings (root : Json) : List Warning :=
  match root.get? Keyword.properties with
  | none | some (.obj _) => []
  | some _ => [.propertiesNoObject]

def checkRoot (limit : Int) (root : Json) : Verdict :=
  if !root.isObject then .refuse (.rootNoObject root.typeName)
  else
    let depth := root.depth
    if limit < depth then .refuse (.nestsTooDeep depth limit)
    else
      { problems := []
        warnings := (if deepNesting < depth then [.deepNesting depth] else []) ++
          definitionsWarnings root ++ propertiesWarnings root }

/-- A whole number in the text is too long to be read, which leaves the text without a verdict. -/
structure LongNumber where
  digits : Nat
deriving DecidableEq

def LongNumber.message (number : LongNumber) : Text :=
  "Exceeds the limit (4300 digits) for integer string conversion: value has " ++ Text.ofNat number.digits ++
    " digits; use sys.set_int_max_str_digits() to increase the limit"

def checkText (levels : Nat) (limit : Int) (text : Text) : Except LongNumber (Verdict × Option Json) :=
  if text.isBlank then .ok (.refuse .blank, none)
  else
    match Json.read levels text with
    | .error (.malformed fault remaining) =>
      let (line, column) := Json.lineAndColumn text remaining
      .ok (.refuse (.malformed fault line column), none)
    | .error (.tooManyDigits digits) => .error ⟨digits⟩
    | .error (.tooDeep container) => .ok (.refuse (.unreadable container), none)
    | .ok root =>
      let verdict := checkRoot limit root
      .ok (verdict, if verdict.isValid then some root else none)

def check (levels : Nat) (limit : Int) : Json → Except LongNumber (Verdict × Option Json)
  | .str text => checkText levels limit text
  | other => .ok (.refuse (.noText other.typeName), none)

inductive ParseFault where
  | invalid (problems : List Problem)
  | longNumber (number : LongNumber)
deriving DecidableEq

def ParseFault.message : ParseFault → Text
  | .invalid problems => "Invalid JSON input: " ++ Text.join "; " (problems.map (·.message))
  | .longNumber number => number.message

def parse (levels : Nat) (limit : Int) (input : Json) : Except ParseFault Json × Log :=
  match check levels limit input with
  | .error number => (.error (.longNumber number), [])
  | .ok (verdict, none) => (.error (.invalid verdict.problems), verdict.log)
  | .ok (verdict, some root) =>
    let size := match root with
      | .obj fields => fields.length
      | _ => 0
    (.ok root, verdict.log ++ [⟨.debug, "Parsed schema with " ++ Text.ofNat size ++ " top-level keys"⟩])

theorem isValid_checkRoot {limit : Int} {root : Json} :
    (checkRoot limit root).isValid ↔ root.isObject ∧ root.depth ≤ limit := by
  unfold checkRoot
  split
  · rename_i other
    simp [Verdict.refuse, Verdict.isValid, Bool.not_eq_true' _ ▸ other]
  · rename_i object
    have object : root.isObject := by simpa using object
    dsimp only
    split
    · rename_i deep
      have tall : ¬ root.depth ≤ limit := by omega
      simp [Verdict.refuse, Verdict.isValid, tall]
    · rename_i shallow
      have low : root.depth ≤ limit := by omega
      simp [Verdict.isValid, object, low]

theorem accepts_checkText {levels : Nat} {limit : Int} {text : Text} {root : Json} :
    (∃ verdict, checkText levels limit text = .ok (verdict, some root)) ↔
      text.isBlank = false ∧ Json.read levels text = .ok root ∧ root.isObject ∧ root.depth ≤ limit := by
  cases blank : text.isBlank with
  | true => simp [checkText, blank]
  | false =>
    cases found : Json.read levels text with
    | error fault => cases fault <;> simp [checkText, blank, found]
    | ok value =>
      have checked : checkText levels limit text = .ok (checkRoot limit value,
          if (checkRoot limit value).isValid then some value else none) := by simp [checkText, blank, found]
      rw [checked, ← isValid_checkRoot]
      constructor
      · rintro ⟨verdict, same⟩
        obtain ⟨-, accepted⟩ := Prod.mk.inj (Except.ok.inj same)
        split at accepted
        · rename_i valid
          cases accepted
          exact ⟨rfl, rfl, valid⟩
        · cases accepted
      · rintro ⟨-, same, valid⟩
        cases same
        exact ⟨checkRoot limit root, by simp [valid]⟩

/-- The schemas that are accepted: objects that the text holds and that nest no deeper than the limit. -/
theorem parse_eq_ok_iff {levels : Nat} {limit : Int} {text : Text} {root : Json} :
    (parse levels limit (.str text)).1 = .ok root ↔
      text.isBlank = false ∧ Json.read levels text = .ok root ∧ root.isObject ∧ root.depth ≤ limit := by
  rw [← accepts_checkText]
  cases checked : checkText levels limit text with
  | error number => simp [parse, check, checked]
  | ok answer =>
    obtain ⟨verdict, accepted⟩ := answer
    cases accepted <;> simp [parse, check, checked]

end Schema
end SchemaUnnest
