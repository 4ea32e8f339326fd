import SchemaUnnest.Binary64.Decimal
import SchemaUnnest.Json

namespace SchemaUnnest.Json

def layout : Binary64.Layout := ⟨-4, 16, 2, "NaN", "Infinity"⟩

def escape (c : CodePoint) : Text :=
  if c = '"' then "\\\""
  else if c = '\\' then "\\\\"
  else if c = '\n' then "\\n"
  else if c = '\r' then "\\r"
  else if c = '\t' then "\\t"
  else if c.value = 0x0C then "\\f"
  else if c.value = 0x08 then "\\b"
  else if c.value < 0x20 then "\\u" ++ Text.hex 4 c.value
  else [c]

def writeString (text : Text) (tail : Text) : Text := "\"" ++ (text.flatMap escape ++ ("\"" ++ tail))

def newLine (indent : Int) (level : Nat) (tail : Text) : Text :=
  "\n" ++ (List.replicate (indent.toNat * level) (CodePoint.ofChar ' ') ++ tail)

mutual

def write (indent : Int) (level : Nat) (tail : Text) : Json → Text
  | .null => "null" ++ tail
  | .bool true => "true" ++ tail
  | .bool false => "false" ++ tail
  | .int n => Text.ofInt n ++ tail
  | .float x => x.text layout ++ tail
  | .str text => writeString text tail
  | .arr [] => "[]" ++ tail
  | .arr (item :: rest) =>
    let closing := newLine indent level ("]" ++ tail)
    "[" ++ newLine indent (level + 1)
      (write indent (level + 1) (writeItems indent (level + 1) closing rest) item)
  | .obj [] => "\x7b\x7d" ++ tail
  | .obj ((key, value) :: rest) =>
    let closing := newLine indent level ("\x7d" ++ tail)
    "\x7b" ++ newLine indent (level + 1) (writeString key
      (": " ++ write indent (level + 1) (writeFields indent (level + 1) closing rest) value))

def writeItems (indent : Int) (level : Nat) (tail : Text) : List Json → Text
  | [] => tail
  | item :: rest =>
    "," ++ newLine indent level (write indent level (writeItems indent level tail rest) item)

def writeFields (indent : Int) (level : Nat) (tail : Text) : List (Text × Json) → Text
  | [] => tail
  | (key, value) :: rest =>
    "," ++ newLine indent level (writeString key
      (": " ++ write indent level (writeFields indent level tail rest) value))

end

def render (indent : Int) (value : Json) : Text := write indent 0 [] value

end SchemaUnnest.Json
