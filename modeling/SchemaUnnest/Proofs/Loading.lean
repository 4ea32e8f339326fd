import SchemaUnnest.Proofs.Batches
import SchemaUnnest.Proofs.LineBreaks
import SchemaUnnest.Proofs.Verdicts

namespace SchemaUnnest

theorem Schema.parse_unifyNewlines {levels : Nat} {limit : Int} {text : Text} {root : Json} :
    (parse levels limit (.str (Document.unifyNewlines text))).1 = .ok root ↔
      (parse levels limit (.str text)).1 = .ok root := by
  rw [parse_eq_ok_iff_accepts, parse_eq_ok_iff_accepts, Accepts, Accepts, Json.read_unifyNewlines]

namespace Document

open FileSystem

theorem readText_eq_ok_iff {fs : FileSystem} {path text : Text} :
    readText fs path = .ok text ↔
      ∃ content decoded, fs.find path = .ok (.file content) ∧ Utf8.decode content = .ok decoded ∧
        unifyNewlines decoded = text := by
  cases found : fs.find path with
  | error fault => simp [readText, FileSystem.read, found]
  | ok entry =>
    cases entry with
    | directory => simp [readText, FileSystem.read, found]
    | file content =>
      cases decoded : Utf8.decode content with
      | error fault => simp [readText, FileSystem.read, found, decoded]
      | ok decoded => simp [readText, FileSystem.read, found, decoded]

/-- Whatever stands at a path, a document is returned. It has a root exactly if a file stands there whose octets are the
UTF-8 of a text that is accepted as it is, and then the root is what that text holds. -/
theorem load_agrees_with_parse (levels : Nat) (limit : Int) (fs : FileSystem) {source : FilePath}
    (good : IsPath source.text) :
    (∃ root, (load levels limit fs source).1 = .ok ⟨source, root⟩ ∧
      ∀ found, root = some found ↔
        ∃ content text, fs.find source.text = .ok (.file content) ∧ Utf8.decode content = .ok text ∧
          (Schema.parse levels limit (.str text)).1 = .ok found) ∧
    ∀ text found, (Schema.parse levels limit (.str (unifyNewlines text))).1 = .ok found ↔
      (Schema.parse levels limit (.str text)).1 = .ok found := by
  refine ⟨?_, fun text found => Schema.parse_unifyNewlines⟩
  obtain ⟨root, loaded⟩ := load_of_isPath levels limit fs good
  refine ⟨root, loaded, ?_⟩
  intro found
  have rooted : root = some found ↔ (load levels limit fs source).1 = .ok ⟨source, some found⟩ := by
    rw [loaded]
    simp
  rw [rooted, load_eq_ok_iff]
  constructor
  · rintro ⟨text, read, parsed⟩
    obtain ⟨content, decoded, stands, decodes, rfl⟩ := readText_eq_ok_iff.1 read
    exact ⟨content, decoded, stands, decodes, Schema.parse_unifyNewlines.1 parsed⟩
  · rintro ⟨content, decoded, stands, decodes, parsed⟩
    exact ⟨_, readText_eq_ok_iff.2 ⟨content, decoded, stands, decodes, rfl⟩, Schema.parse_unifyNewlines.2 parsed⟩

def brokenText : Text := "\x7b\r\n\"a\"\r:\n\r1\x7d"

def brokenFiles : FileSystem := ⟨[(["a.json"], .file (brokenText.flatMap Utf8.encodeOne))], []⟩

theorem load_agrees_with_parse_brokenFiles :
    IsPath (FilePath.ofText "a.json").text ∧
      ∃ root, (load 1000 Schema.maxDepth brokenFiles (.ofText "a.json")).1 = .ok ⟨.ofText "a.json", root⟩ ∧
        root = some (.obj [("a", .int 1)]) := by
  have good : IsPath (FilePath.ofText "a.json").text := by decide
  have decodes : Utf8.decode (brokenText.flatMap Utf8.encodeOne) = .ok brokenText := by decide +kernel
  have parsed : (Schema.parse 1000 Schema.maxDepth (.str brokenText)).1 = .ok (.obj [("a", .int 1)]) := by
    decide +kernel
  obtain ⟨⟨root, loaded, rooted⟩, -⟩ := load_agrees_with_parse 1000 Schema.maxDepth brokenFiles good
  exact ⟨good, root, loaded, (rooted _).2 ⟨_, brokenText, by rfl, decodes, parsed⟩⟩

end Document
end SchemaUnnest
