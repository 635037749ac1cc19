import FeatureServing.Text.Digits

/-!
# Decimal numbers as text

A `Decimal` is `± coefficient * 10 ^ exponent`. `plain` writes it without an exponent, `scientific`
with one digit in front of the point; `Layout` says which of the two a format takes.
-/

namespace FeatureServing

structure Decimal where
  negative : Bool
  coefficient : Nat
  exponent : Int
deriving DecidableEq

namespace Decimal

/-- Removes up to `fuel` zeros from the end of a coefficient. -/
def dropZeros : Nat → Nat → Int → Nat × Int
  | 0, c, e => (c, e)
  | fuel + 1, c, e => if c != 0 && c % 10 == 0 then dropZeros fuel (c / 10) (e + 1) else (c, e)

/-- The same number with a coefficient that does not end in a zero. -/
def reduced (d : Decimal) : Decimal :=
  let (c, e) := dropZeros d.coefficient d.coefficient d.exponent
  ⟨d.negative, c, e⟩

def sign (d : Decimal) : List Char :=
  if d.negative then ['-'] else []

/-- How many digits stand in front of the point; zero or less for a number below one tenth. -/
def point (d : Decimal) : Int :=
  (Text.decimalDigits d.coefficient).length + d.exponent

/-- Positional text, missing digits filled up with zeros. `whole` follows a number without a
fractional part. -/
def plain (whole : List Char) (d : Decimal) : List Char :=
  let ds := Text.decimalDigits d.coefficient
  let p := d.point
  d.sign ++
    if 0 ≤ d.exponent then ds ++ List.replicate d.exponent.toNat '0' ++ whole
    else if 0 < p then ds.take p.toNat ++ '.' :: ds.drop p.toNat
    else '0' :: '.' :: (List.replicate (-p).toNat '0' ++ ds)

/-- Text with one digit in front of the point and a power of ten. -/
def scientific (plus : List Char) (d : Decimal) : List Char :=
  let ds := Text.decimalDigits d.coefficient
  let e := d.point - 1
  d.sign ++ ds.take 1 ++ (if ds.length ≤ 1 then [] else '.' :: ds.drop 1) ++
    'e' :: (if e < 0 then ['-'] else plus) ++ Text.decimalDigits e.natAbs

/-- The decisions of a format for decimal numbers. -/
structure Layout where
  /-- The power of ten of the leading digit lies here for a number written by position. -/
  positional : Int → Bool
  /-- Written behind a number without a fractional part. -/
  whole : List Char
  /-- Written in front of a power of ten that is not negative. -/
  plus : List Char

def write (l : Layout) (d : Decimal) : List Char :=
  if l.positional (d.point - 1) then d.plain l.whole else d.scientific l.plus

end Decimal

end FeatureServing
