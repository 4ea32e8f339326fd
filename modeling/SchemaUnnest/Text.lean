namespace SchemaUnnest

/-- A number that Unicode assigns to a character or reserves as a surrogate. -/
structure CodePoint where
  value : Nat
  inRange : value < 0x110000
deriving DecidableEq

namespace CodePoint

def ofNat (n : Nat) : CodePoint := if h : n < 0x110000 then ⟨n, h⟩ else ⟨0xFFFD, by decide⟩

def ofChar (c : Char) : CodePoint :=
  ⟨c.toNat, by
    rcases c.valid with h | h
    · exact Nat.lt_trans h (by decide)
    · exact h.2⟩

instance : Coe Char CodePoint := ⟨ofChar⟩

instance : Inhabited CodePoint := ⟨'?'⟩

def isHighSurrogate (c : CodePoint) : Bool := 0xD800 ≤ c.value && c.value < 0xDC00

def isLowSurrogate (c : CodePoint) : Bool := 0xDC00 ≤ c.value && c.value < 0xE000

def isSurrogate (c : CodePoint) : Bool := 0xD800 ≤ c.value && c.value < 0xE000

def ofSurrogates (high low : CodePoint) : CodePoint :=
  ofNat (0x10000 + (high.value - 0xD800) * 0x400 + (low.value - 0xDC00))

def digit? (c : CodePoint) : Option Nat :=
  if 0x30 ≤ c.value ∧ c.value ≤ 0x39 then some (c.value - 0x30) else none

def isDigit (c : CodePoint) : Bool := c.digit?.isSome

def hexDigit? (c : CodePoint) : Option Nat :=
  if 0x30 ≤ c.value ∧ c.value ≤ 0x39 then some (c.value - 0x30)
  else if 0x41 ≤ c.value ∧ c.value ≤ 0x46 then some (c.value - 0x41 + 10)
  else if 0x61 ≤ c.value ∧ c.value ≤ 0x66 then some (c.value - 0x61 + 10)
  else none

def ofDigit (d : Nat) : CodePoint := ofNat (0x30 + d)

def ofHexDigit (d : Nat) : CodePoint := if d < 10 then ofNat (0x30 + d) else ofNat (0x61 + (d - 10))

end CodePoint

abbrev Text := List CodePoint

namespace Text

def ofString (s : String) : Text := s.toList.map CodePoint.ofChar

instance : Coe String Text := ⟨ofString⟩

instance : LawfulBEq Text := inferInstance

def digitsOnto : Nat → Nat → Text → Text
  | 0, _, tail => tail
  | places + 1, n, tail =>
    let tail := CodePoint.ofDigit (n % 10) :: tail
    if n < 10 then tail else digitsOnto places (n / 10) tail

def ofNat (n : Nat) : Text := digitsOnto (n + 1) n []

def ofInt : Int → Text
  | .ofNat n => ofNat n
  | .negSucc n => '-' :: ofNat (n + 1)

def toNat (digits : Text) : Nat := digits.foldl (fun n c => 10 * n + (c.value - 0x30)) 0

def hex : Nat → Nat → Text
  | 0, _ => []
  | width + 1, n => hex width (n / 16) ++ [CodePoint.ofHexDigit (n % 16)]

def join (separator : Text) : List Text → Text
  | [] => []
  | [piece] => piece
  | piece :: rest => piece ++ separator ++ join separator rest

def splitOn (separator : CodePoint) : Text → List Text
  | [] => [[]]
  | c :: rest =>
    if c = separator then [] :: splitOn separator rest
    else match splitOn separator rest with
      | [] => [[c]]
      | piece :: pieces => (c :: piece) :: pieces

def dropStart? : Text → Text → Option Text
  | [], text => some text
  | _ :: _, [] => none
  | c :: start, d :: text => if c = d then dropStart? start text else none

def hasPart (part : Text) : Text → Bool
  | [] => part.isEmpty
  | c :: rest => (dropStart? part (c :: rest)).isSome || hasPart part rest

end Text
end SchemaUnnest
