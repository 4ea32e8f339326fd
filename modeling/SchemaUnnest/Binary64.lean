namespace SchemaUnnest

def Magnitude.mantissaBound : Nat := Nat.pow 2 53

def Magnitude.fullMantissa : Nat := Nat.pow 2 52

def Magnitude.maxExponent : Nat := 2045

/-- The size of a finite number: `mantissa * 2 ^ exponent` units, the exponent as small as it can be. -/
structure Magnitude where
  mantissa : Nat
  exponent : Nat
  mantissa_lt : mantissa < Magnitude.mantissaBound
  exponent_le : exponent ≤ Magnitude.maxExponent
  normal : exponent = 0 ∨ Magnitude.fullMantissa ≤ mantissa
deriving DecidableEq

/-- A binary64 number; there is one value that is no number. -/
inductive Binary64 where
  | nan
  | infinite (negative : Bool)
  | finite (negative : Bool) (size : Magnitude)
deriving DecidableEq

namespace Magnitude

def zero : Magnitude := ⟨0, 0, by decide, by decide, .inl rfl⟩

def units (m : Magnitude) : Nat := m.mantissa * Nat.pow 2 m.exponent

def roundQuotient (num den : Nat) : Nat :=
  let quotient := num / den
  let twice := 2 * (num % den)
  if twice < den then quotient
  else if den < twice then quotient + 1
  else quotient + quotient % 2

def exponentFor (units : Nat) : Nat := if units = 0 then 0 else units.log2 - 52

def ofParts? (mantissa exponent : Nat) : Option Magnitude :=
  if mantissa = mantissaBound then
    if h : exponent + 1 ≤ maxExponent then
      some ⟨fullMantissa, exponent + 1, by decide, h, .inr (Nat.le_refl _)⟩
    else none
  else if h : mantissa < mantissaBound ∧ exponent ≤ maxExponent ∧ (exponent = 0 ∨ fullMantissa ≤ mantissa) then
    some ⟨mantissa, exponent, h.1, h.2.1, h.2.2⟩
  else none

def ofQuotient? (num den : Nat) : Option Magnitude :=
  let exponent := exponentFor (num / den)
  ofParts? (roundQuotient num (den * Nat.pow 2 exponent)) exponent

end Magnitude

namespace Binary64

def zero : Binary64 := .finite false .zero

instance : Inhabited Binary64 := ⟨zero⟩

def unitsOfOne : Nat := Nat.pow 2 1074

def ofQuotient (negative : Bool) (num den : Nat) : Binary64 :=
  match Magnitude.ofQuotient? num den with
  | some size => .finite negative size
  | none => .infinite negative

def ofUnits (zeroSign : Bool) (units : Int) (den : Nat) : Binary64 :=
  if units = 0 then .finite zeroSign .zero else ofQuotient (units < 0) units.natAbs den

def ofInt (n : Int) : Binary64 := ofUnits false (n * unitsOfOne) 1

def signedUnits (negative : Bool) (size : Magnitude) : Int :=
  if negative then -(size.units : Int) else size.units

def isZero : Binary64 → Bool
  | .finite _ size => size.mantissa = 0
  | _ => false

def neg : Binary64 → Binary64
  | .nan => .nan
  | .infinite negative => .infinite !negative
  | .finite negative size => .finite (!negative) size

def add : Binary64 → Binary64 → Binary64
  | .nan, _ | _, .nan => .nan
  | .infinite a, .infinite b => if a = b then .infinite a else .nan
  | .infinite a, .finite _ _ => .infinite a
  | .finite _ _, .infinite b => .infinite b
  | .finite a x, .finite b y => ofUnits (a && b) (signedUnits a x + signedUnits b y) 1

def sub (x y : Binary64) : Binary64 := add x (neg y)

def mul : Binary64 → Binary64 → Binary64
  | .nan, _ | _, .nan => .nan
  | .infinite a, .infinite b => .infinite (a ^^ b)
  | .infinite a, .finite b y => if y.mantissa = 0 then .nan else .infinite (a ^^ b)
  | .finite a x, .infinite b => if x.mantissa = 0 then .nan else .infinite (a ^^ b)
  | .finite a x, .finite b y => ofUnits (a ^^ b) (signedUnits a x * signedUnits b y) unitsOfOne

def greater : Binary64 → Binary64 → Bool
  | .nan, _ | _, .nan => false
  | .infinite a, .infinite b => !a && b
  | .infinite a, .finite _ _ => !a
  | .finite _ _, .infinite b => b
  | .finite a x, .finite b y => signedUnits b y < signedUnits a x

end Binary64
end SchemaUnnest
