import SchemaUnnest.Binary64
import SchemaUnnest.Text

namespace SchemaUnnest.Binary64

/-- The number nearest to `digits * 10 ^ exponent`. Far beyond both ends of the range nothing is computed:
what is below half the least number is zero, and what is above the greatest is infinite. -/
def ofDecimal (negative : Bool) (digits : Nat) (exponent : Int) : Binary64 :=
  let length : Int := (Text.ofNat digits).length
  if digits = 0 ∨ length + exponent < -400 then .finite negative .zero
  else if 400 < length + exponent then .infinite negative
  else
    match exponent with
    | .ofNat e => ofQuotient negative (digits * Nat.pow 10 e * unitsOfOne) 1
    | .negSucc e => ofQuotient negative (digits * unitsOfOne) (Nat.pow 10 (e + 1))

structure Decimal where
  digits : Nat
  exponent : Int
deriving DecidableEq

def leadingExponent (size : Magnitude) : Int :=
  (Text.ofNat (size.units * Nat.pow 10 400 / unitsOfOne)).length - 401

def neighbours (size : Magnitude) (exponent : Int) : List Nat :=
  let (num, den) : Nat × Nat := match exponent with
    | .ofNat e => (size.units, unitsOfOne * Nat.pow 10 e)
    | .negSucc e => (size.units * Nat.pow 10 (e + 1), unitsOfOne)
  let below := num / den
  if 2 * (num % den) < den ∨ (2 * (num % den) = den ∧ below % 2 = 0) then [below, below + 1]
  else [below + 1, below]

/-- The nearest decimal with as many digits as `places` that reads back to the magnitude; `leading` is the
exponent of its first digit. -/
def readable? (size : Magnitude) (leading : Int) (places : Nat) : Option Decimal :=
  let exponent := leading - places + 1
  ((neighbours size exponent).find? fun digits =>
    ofDecimal false digits exponent = .finite false size).map (⟨·, exponent⟩)

def exact (size : Magnitude) : Decimal := ⟨size.units * Nat.pow 5 1074, -1074⟩

def shortest (size : Magnitude) : Decimal :=
  if size.mantissa = 0 then ⟨0, 0⟩
  else
    let leading := leadingExponent size
    ((List.range 17).findSome? fun n => readable? size leading (n + 1)).getD (exact size)

structure Layout where
  positionalFrom : Int
  positionalBelow : Int
  exponentDigits : Nat
  nan : Text
  infinity : Text

def point : CodePoint := '.'

def zeroDigit : CodePoint := CodePoint.ofDigit 0

def positional (digits : Text) (exponent : Int) : Text :=
  match exponent with
  | .ofNat e =>
    let whole := digits.take (e + 1) ++ List.replicate (e + 1 - digits.length) zeroDigit
    let fraction := digits.drop (e + 1)
    whole ++ [point] ++ if fraction.isEmpty then [zeroDigit] else fraction
  | .negSucc e => [zeroDigit, point] ++ List.replicate e zeroDigit ++ digits

def scientific (digits : Text) (exponent : Int) (exponentDigits : Nat) : Text :=
  let power := Text.ofNat exponent.natAbs
  let sign : CodePoint := if exponent < 0 then '-' else '+'
  digits.take 1 ++ (if digits.length ≤ 1 then [] else point :: digits.drop 1) ++ "e" ++ [sign] ++
    List.replicate (exponentDigits - power.length) zeroDigit ++ power

def Decimal.text (layout : Layout) (decimal : Decimal) : Text :=
  let all := Text.ofNat decimal.digits
  let exponent := decimal.exponent + all.length - 1
  let digits := match (all.reverse.dropWhile (· = zeroDigit)).reverse with
    | [] => [zeroDigit]
    | kept => kept
  if layout.positionalFrom ≤ exponent ∧ exponent < layout.positionalBelow then positional digits exponent
  else scientific digits exponent layout.exponentDigits

def signText (negative : Bool) : Text := if negative then "-" else []

def text (layout : Layout) : Binary64 → Text
  | .nan => layout.nan
  | .infinite negative => signText negative ++ layout.infinity
  | .finite negative size => signText negative ++ (shortest size).text layout

def Layout.plain : Layout := ⟨-4, 16, 2, "nan", "inf"⟩

def fixed (places : Nat) : Binary64 → Text
  | .nan => Layout.plain.nan
  | .infinite negative => signText negative ++ Layout.plain.infinity
  | .finite negative size =>
    let scaled := Magnitude.roundQuotient (size.units * Nat.pow 10 places) unitsOfOne
    let fraction := Text.ofNat (scaled % Nat.pow 10 places)
    signText negative ++ Text.ofNat (scaled / Nat.pow 10 places) ++ [point] ++
      List.replicate (places - fraction.length) zeroDigit ++ fraction

end SchemaUnnest.Binary64
