import SchemaUnnest.Binary64.Decimal
import SchemaUnnest.Json

namespace SchemaUnnest.Json

inductive SyntaxFault where
  | byteOrderMark
  | extraData
  | expectingValue
  | expectingName
  | expectingColon
  | expectingComma
  | unterminatedString
  | controlCharacter
  | escape
  | unicodeEscape
deriving DecidableEq

inductive Container where
  | array
  | object
deriving DecidableEq

inductive ReadFault where
  | malformed (fault : SyntaxFault) (remaining : Nat)
  | tooManyDigits (digits : Nat)
  | tooDeep (container : Container)
deriving DecidableEq

def SyntaxFault.message : SyntaxFault → Text
  | .byteOrderMark => "Unexpected UTF-8 BOM (decode using utf-8-sig)"
  | .extraData => "Extra data"
  | .expectingValue => "Expecting value"
  | .expectingName => "Expecting property name enclosed in double quotes"
  | .expectingColon => "Expecting ':' delimiter"
  | .expectingComma => "Expecting ',' delimiter"
  | .unterminatedString => "Unterminated string starting at"
  | .controlCharacter => "Invalid control character at"
  | .escape => "Invalid \\escape"
  | .unicodeEscape => "Invalid \\uXXXX escape"

abbrev Scan (α : Type) := Except ReadFault (α × Text)

def malformed {α : Type} (fault : SyntaxFault) (rest : Text) : Except ReadFault α :=
  .error (.malformed fault rest.length)

def isSpace (c : CodePoint) : Bool := c = ' ' || c = '\t' || c = '\n' || c = '\r'

def skipSpace (text : Text) : Text := text.dropWhile isSpace

def hex4? (a b c d : CodePoint) : Option Nat :=
  match a.hexDigit?, b.hexDigit?, c.hexDigit?, d.hexDigit? with
  | some a, some b, some c, some d => some (((a * 16 + b) * 16 + c) * 16 + d)
  | _, _, _, _ => none

def unescape? (c : CodePoint) : Option CodePoint :=
  if c = '"' || c = '\\' || c = '/' then some c
  else if c = 'b' then some (.ofNat 0x08)
  else if c = 'f' then some (.ofNat 0x0C)
  else if c = 'n' then some '\n'
  else if c = 'r' then some '\r'
  else if c = 't' then some '\t'
  else none

/-- The inside of a string up to its closing quote. `opening` is the text from the opening quote on, `high`
a high surrogate whose escape has just been read, and `read` what came before it, last first. -/
def readChars (opening : Text) (high : Option CodePoint) (read : Text) : Text → Scan Text
  | [] => malformed .unterminatedString opening
  | c :: rest =>
    if c = '"' then .ok ((high.toList ++ read).reverse, rest)
    else if c = '\\' then
      match rest with
      | [] => malformed .unterminatedString opening
      | e :: rest' =>
        if e = 'u' then
          match rest' with
          | h1 :: h2 :: h3 :: h4 :: next :: rest'' =>
            match hex4? h1 h2 h3 h4 with
            | none => malformed .unicodeEscape rest
            | some n =>
              let unit := CodePoint.ofNat n
              match high with
              | some first =>
                if unit.isLowSurrogate then
                  readChars opening none (CodePoint.ofSurrogates first unit :: read) (next :: rest'')
                else if unit.isHighSurrogate then
                  readChars opening (some unit) (first :: read) (next :: rest'')
                else readChars opening none (unit :: first :: read) (next :: rest'')
              | none =>
                if unit.isHighSurrogate then readChars opening (some unit) read (next :: rest'')
                else readChars opening none (unit :: read) (next :: rest'')
          | _ => malformed .unicodeEscape rest
        else
          match unescape? e with
          | some meant => readChars opening none (meant :: (high.toList ++ read)) rest'
          | none => malformed .escape (c :: rest)
    else if c.value < 0x20 then malformed .controlCharacter (c :: rest)
    else readChars opening none (c :: (high.toList ++ read)) rest

structure Numeral where
  negative : Bool
  whole : Text
  fraction : Text
  exponent : Option (Bool × Text)
deriving DecidableEq

def takeDigits (text : Text) : Text × Text := text.span CodePoint.isDigit

def takeFraction (text : Text) : Text × Text :=
  match text with
  | c :: rest =>
    if c = '.' then
      match takeDigits rest with
      | ([], _) => ([], text)
      | found => found
    else ([], text)
  | [] => ([], text)

def takeExponent (text : Text) : Option (Bool × Text) × Text :=
  match text with
  | c :: rest =>
    if c = 'e' || c = 'E' then
      let (negative, body) := match rest with
        | s :: rest' => if s = '-' then (true, rest') else if s = '+' then (false, rest') else (false, rest)
        | [] => (false, [])
      match takeDigits body with
      | ([], _) => (none, text)
      | (digits, after) => (some (negative, digits), after)
    else (none, text)
  | [] => (none, text)

def takeNumeral (text : Text) : Option (Numeral × Text) :=
  let (negative, unsigned) := match text with
    | c :: rest => if c = '-' then (true, rest) else (false, text)
    | [] => (false, [])
  let whole := match unsigned with
    | c :: rest =>
      if c = '0' then some ([c], rest)
      else match takeDigits unsigned with
        | ([], _) => none
        | found => some found
    | [] => none
  whole.map fun (whole, afterWhole) =>
    let (fraction, afterFraction) := takeFraction afterWhole
    let (exponent, after) := takeExponent afterFraction
    (⟨negative, whole, fraction, exponent⟩, after)

def maxDigits : Nat := 4300

def Numeral.value (n : Numeral) : Except ReadFault Json :=
  match n.fraction, n.exponent with
  | [], none =>
    if maxDigits < n.whole.length then .error (.tooManyDigits n.whole.length)
    else .ok (.int (if n.negative then -(n.whole.toNat : Int) else n.whole.toNat))
  | fraction, exponent =>
    let power : Int := match exponent with
      | some (true, digits) => -(digits.toNat : Int)
      | some (false, digits) => digits.toNat
      | none => 0
    .ok (.float (.ofDecimal n.negative (Text.toNat (n.whole ++ fraction)) (power - fraction.length)))

def named : List (Text × Json) :=
  [("null", .null), ("true", .bool true), ("false", .bool false), ("NaN", .float .nan),
    ("Infinity", .float (.infinite false)), ("-Infinity", .float (.infinite true))]

def readScalar (text : Text) : Scan Json :=
  match named.findSome? fun (name, value) => (Text.dropStart? name text).map (value, ·) with
  | some found => .ok found
  | none =>
    match takeNumeral text with
    | some (numeral, rest) => numeral.value.map (·, rest)
    | none => malformed .expectingValue text

def readItems (value : Text → Scan Json) : Nat → List Json → Text → Scan (List Json)
  | 0, _, text => malformed .expectingComma text
  | fuel + 1, read, text =>
    match value text with
    | .error fault => .error fault
    | .ok (item, rest) =>
      match skipSpace rest with
      | c :: rest' =>
        if c = ']' then .ok ((item :: read).reverse, rest')
        else if c = ',' then readItems value fuel (item :: read) (skipSpace rest')
        else malformed .expectingComma (c :: rest')
      | [] => malformed .expectingComma []

def readKey (text : Text) : Scan Text :=
  match text with
  | [] => malformed .expectingName []
  | c :: rest =>
    if c = '"' then
      match readChars text none [] rest with
      | .error fault => .error fault
      | .ok (key, rest') =>
        match skipSpace rest' with
        | d :: rest'' =>
          if d = ':' then .ok (key, skipSpace rest'') else malformed .expectingColon (d :: rest'')
        | [] => malformed .expectingColon []
    else malformed .expectingName text

def readFields (value : Text → Scan Json) : Nat → Fields → Text → Scan Fields
  | 0, _, text => malformed .expectingComma text
  | fuel + 1, read, text =>
    match readKey text with
    | .error fault => .error fault
    | .ok (key, rest) =>
      match value rest with
      | .error fault => .error fault
      | .ok (member, rest') =>
        let read := Entries.set key member read
        match skipSpace rest' with
        | c :: rest'' =>
          if c = '\x7d' then .ok (read, rest'')
          else if c = ',' then readFields value fuel read (skipSpace rest'')
          else malformed .expectingComma (c :: rest'')
        | [] => malformed .expectingComma []

/-- A value at the start of a text; `inner` reads what stands in an array or object, if nesting is allowed
to go on. Every element takes up text, so its length bounds their number. -/
def readNode (inner : Option (Text → Scan Json)) (text : Text) : Scan Json :=
  match text with
  | [] => malformed .expectingValue text
  | c :: rest =>
    if c = '"' then (readChars text none [] rest).map fun (read, after) => (.str read, after)
    else if c = '[' then
      match inner with
      | none => .error (.tooDeep .array)
      | some value =>
        match skipSpace rest with
        | d :: rest' =>
          if d = ']' then .ok (.arr [], rest')
          else (readItems value rest.length [] (d :: rest')).map fun (items, after) => (.arr items, after)
        | [] => malformed .expectingValue []
    else if c = '\x7b' then
      match inner with
      | none => .error (.tooDeep .object)
      | some value =>
        match skipSpace rest with
        | d :: rest' =>
          if d = '\x7d' then .ok (.obj [], rest')
          else (readFields value rest.length [] (d :: rest')).map fun (fields, after) => (.obj fields, after)
        | [] => malformed .expectingName []
    else readScalar text

def readValue : (levels : Nat) → Text → Scan Json
  | 0 => readNode none
  | levels + 1 => readNode (some (readValue levels))

def read (levels : Nat) (text : Text) : Except ReadFault Json :=
  if text.head? = some (CodePoint.ofNat 0xFEFF) then malformed .byteOrderMark text
  else
    match readValue levels (skipSpace text) with
    | .error fault => .error fault
    | .ok (value, rest) =>
      match skipSpace rest with
      | [] => .ok value
      | after => malformed .extraData after

def lineAndColumn (text : Text) (remaining : Nat) : Nat × Nat :=
  let before := text.take (text.length - remaining)
  let lines := Text.splitOn '\n' before
  (lines.length, (lines.getLast?.getD []).length + 1)

end SchemaUnnest.Json
