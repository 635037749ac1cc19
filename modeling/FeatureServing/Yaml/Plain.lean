import FeatureServing.Json
import FeatureServing.Text.Float
import FeatureServing.Word

/-!
# What plain scalars say

A plain scalar may be null, a boolean, an integer (decimal, or with the marks `0x`, `0o` and `0b`;
a leading zero makes a decimal one a text) or a float. `plainJson?` is the JSON value that it
stands for where any value will do.
-/

namespace FeatureServing.Yaml

def isNullWord (s : String) : Bool :=
  s = "null" || s = "Null" || s = "NULL" || s = "~"

def boolOf? (s : String) : Option Bool :=
  if s = "true" || s = "True" || s = "TRUE" then some true
  else if s = "false" || s = "False" || s = "FALSE" then some false
  else none

/-- Whether a text is digits behind a zero. -/
def hasLeadingZero (cs : List Char) : Bool :=
  match (Text.takeSign cs).2 with
  | '0' :: d :: rest => (d :: rest).all Text.isDigit
  | _ => false

/-- The base that a mark in front of digits names, and the digits. -/
def based : List Char → Nat × List Char
  | '0' :: 'x' :: rest => (16, rest)
  | '0' :: 'o' :: rest => (8, rest)
  | '0' :: 'b' :: rest => (2, rest)
  | cs => (10, cs)

/-- The magnitude of a plain scalar that is an integer, and whether it has a minus in front. -/
def magnitudeOf? (s : String) : Option (Bool × Nat) :=
  let cs := s.toList
  if hasLeadingZero cs then none
  else
    let (negative, unsigned) := Text.takeSign cs
    let (base, digits) := based unsigned
    (Text.numberIn? base digits).map fun n => (negative, n)

/-- The integer of a plain scalar. -/
def integerOf? (s : String) : Option Int :=
  (magnitudeOf? s).map fun (negative, n) => if negative then -(n : Int) else n

/-- The natural number of a plain scalar without a minus. -/
def naturalOf? (s : String) : Option Nat :=
  match magnitudeOf? s with
  | some (false, n) => some n
  | _ => none

/-- The digits of a plain scalar that is a float, and whether it is negative. -/
def floatOf? (s : String) : Option (Bool × Text.DecimalText) :=
  let cs := s.toList
  let (negative, digits) := Text.takeSign cs
  if hasLeadingZero cs then none
  else
    match Text.readDecimal? digits with
    | some d => if (d.toBinary64 negative).isFinite then some (negative, d) else none
    | none => none

/-- Whether a plain scalar is an infinity or NaN. -/
def isUnbounded (s : String) : Bool :=
  [".inf", ".Inf", ".INF", "+.inf", "+.Inf", "+.INF", "-.inf", "-.Inf", "-.INF", ".nan", ".NaN",
   ".NAN"].contains s

/-- The numeral of a float. -/
def numeralOf (negative : Bool) (d : Text.DecimalText) : Numeral :=
  ⟨negative, if d.whole.isEmpty then ['0'] else d.whole, d.fraction, some d.power⟩

/-- The JSON value of a plain scalar. An integer that 64 bits do not hold has none unless 128 bits
do not hold it either, and what has no number is null. -/
def plainJson? (s : String) : Option Json :=
  if s.isEmpty || isNullWord s then some .null
  else
    match boolOf? s with
    | some b => some (.bool b)
    | none =>
      match integerOf? s with
      | some i =>
        if Word.holdsSigned 64 i || (Word.unsigned? 64 i).isSome then some (.ofInt i)
        else if Word.holdsSigned 128 i || (Word.unsigned? 128 i).isSome then none
        else beyond s
      | none => beyond s
where
  /-- The value of a scalar that is no integer. -/
  beyond (s : String) : Option Json :=
    match floatOf? s with
    | some (negative, d) => some (.number (numeralOf negative d))
    | none => if isUnbounded s then some .null else some (.ofString s)

end FeatureServing.Yaml
