import FeatureServing.Binary64.Rounding
import FeatureServing.Text.Digits

/-!
# Floating-point numbers in texts

`readDecimal?` reads digits with an optional point and an optional power of ten; on one side of the
point the digits may be missing. `readFloat?` also knows signs and the words for infinity and NaN.
-/

namespace FeatureServing.Text

/-- The parts of a decimal number without a sign. -/
structure DecimalText where
  whole : List Char
  fraction : List Char
  power : Int

namespace DecimalText

/-- The nearest double. -/
def toBinary64 (d : DecimalText) (negative : Bool) : Binary64 :=
  .ofDecimal negative (numberOf (d.whole ++ d.fraction)) (d.power - d.fraction.length)

end DecimalText

/-- Takes the sign in front of a number; tells whether it is a minus. -/
def takeSign : List Char → Bool × List Char
  | '-' :: rest => (true, rest)
  | '+' :: rest => (false, rest)
  | cs => (false, cs)

/-- Reads the power of ten at the end of a number. -/
def readPower? : List Char → Option Int
  | [] => some 0
  | c :: rest =>
    if c = 'e' || c = 'E' then
      let (negative, ds) := takeSign rest
      if !ds.isEmpty && ds.all isDigit then
        let n : Int := numberOf ds
        some (if negative then -n else n)
      else none
    else none

def readDecimal? (cs : List Char) : Option DecimalText :=
  let whole := cs.takeWhile isDigit
  let (fraction, rest) :=
    match cs.dropWhile isDigit with
    | '.' :: rest => (rest.takeWhile isDigit, rest.dropWhile isDigit)
    | rest => ([], rest)
  if whole.isEmpty && fraction.isEmpty then none
  else (readPower? rest).map fun power => ⟨whole, fraction, power⟩

/-- Reads a number, or the word for infinity or NaN in any case. -/
def readFloat? (cs : List Char) : Option Binary64 :=
  let (negative, digits) := takeSign cs
  match readDecimal? digits with
  | some d => some (d.toBinary64 negative)
  | none =>
    match (String.ofList digits).toLower with
    | "inf" | "infinity" => some (.infinity negative)
    | "nan" => some .nan
    | _ => none

end FeatureServing.Text
