import SchemaUnnest.Text

namespace SchemaUnnest

abbrev Bytes := List UInt8

namespace Utf8

inductive DecodeReason where
  | start
  | continuation
  | ending
deriving DecidableEq

structure DecodeFault where
  position : Nat
  length : Nat
  first : UInt8
  reason : DecodeReason
deriving DecidableEq

/-- A sequence that has begun: octets still owed, the range of the next one, and what was read. -/
structure Partial where
  owed : Nat
  low : Nat
  high : Nat
  value : Nat
  length : Nat
  first : UInt8

def lead? (b : UInt8) : Option Partial :=
  let n := b.toNat
  if 0xC2 ≤ n ∧ n ≤ 0xDF then some ⟨1, 0x80, 0xBF, n - 0xC0, 1, b⟩
  else if n = 0xE0 then some ⟨2, 0xA0, 0xBF, 0, 1, b⟩
  else if n = 0xED then some ⟨2, 0x80, 0x9F, 0xD, 1, b⟩
  else if 0xE1 ≤ n ∧ n ≤ 0xEF then some ⟨2, 0x80, 0xBF, n - 0xE0, 1, b⟩
  else if n = 0xF0 then some ⟨3, 0x90, 0xBF, 0, 1, b⟩
  else if 0xF1 ≤ n ∧ n ≤ 0xF3 then some ⟨3, 0x80, 0xBF, n - 0xF0, 1, b⟩
  else if n = 0xF4 then some ⟨3, 0x80, 0x8F, 4, 1, b⟩
  else none

def decodeFrom (position : Nat) (state : Option Partial) (read : Text) : Bytes → Except DecodeFault Text
  | [] =>
    match state with
    | none => .ok read.reverse
    | some p => .error ⟨position - p.length, p.length, p.first, .ending⟩
  | b :: rest =>
    match state with
    | none =>
      if b.toNat < 0x80 then decodeFrom (position + 1) none (CodePoint.ofNat b.toNat :: read) rest
      else match lead? b with
        | some p => decodeFrom (position + 1) (some p) read rest
        | none => .error ⟨position, 1, b, .start⟩
    | some p =>
      if p.low ≤ b.toNat ∧ b.toNat ≤ p.high then
        let value := p.value * 0x40 + (b.toNat - 0x80)
        if p.owed ≤ 1 then decodeFrom (position + 1) none (CodePoint.ofNat value :: read) rest
        else decodeFrom (position + 1) (some ⟨p.owed - 1, 0x80, 0xBF, value, p.length + 1, p.first⟩) read rest
      else .error ⟨position - p.length, p.length, p.first, .continuation⟩

def decode (bytes : Bytes) : Except DecodeFault Text := decodeFrom 0 none [] bytes

structure EncodeFault where
  position : Nat
  length : Nat
  first : CodePoint
deriving DecidableEq

def encodeOne (c : CodePoint) : Bytes :=
  let n := c.value
  if n < 0x80 then [.ofNat n]
  else if n < 0x800 then [.ofNat (0xC0 + n / 0x40), .ofNat (0x80 + n % 0x40)]
  else if n < 0x10000 then
    [.ofNat (0xE0 + n / 0x1000), .ofNat (0x80 + n / 0x40 % 0x40), .ofNat (0x80 + n % 0x40)]
  else
    [.ofNat (0xF0 + n / 0x40000), .ofNat (0x80 + n / 0x1000 % 0x40), .ofNat (0x80 + n / 0x40 % 0x40),
      .ofNat (0x80 + n % 0x40)]

def surrogates? (text : Text) : Option EncodeFault :=
  let before := text.takeWhile (!·.isSurrogate)
  match text.dropWhile (!·.isSurrogate) with
  | [] => none
  | c :: rest => some ⟨before.length, 1 + (rest.takeWhile (·.isSurrogate)).length, c⟩

def encode (text : Text) : Except EncodeFault Bytes :=
  match surrogates? text with
  | some fault => .error fault
  | none => .ok (text.flatMap encodeOne)

def place (position length : Nat) : Text :=
  Text.ofNat position ++ if 1 < length then "-" ++ Text.ofNat (position + length - 1) else []

def DecodeFault.message (fault : DecodeFault) : Text :=
  let what : Text :=
    if 1 < fault.length then "bytes" else "byte 0x" ++ Text.hex 2 fault.first.toNat
  let why : Text := match fault.reason with
    | .start => "invalid start byte"
    | .continuation => "invalid continuation byte"
    | .ending => "unexpected end of data"
  "'utf-8' codec can't decode " ++ what ++ " in position " ++ place fault.position fault.length ++ ": " ++ why

def EncodeFault.message (fault : EncodeFault) : Text :=
  let what : Text :=
    if 1 < fault.length then "characters" else "character '\\u" ++ Text.hex 4 fault.first.value ++ "'"
  "'utf-8' codec can't encode " ++ what ++ " in position " ++ place fault.position fault.length ++
    ": surrogates not allowed"

end Utf8
end SchemaUnnest
