/-!
# Numbers as digits

* `decimal n`, `hex n` : the digits of a number without leading zeros;
* `padded w n` : at least `w` decimal digits;
* `numberOf` : the number that decimal digits spell; `hexDigit?`, `hexOf?` read hexadecimal ones.
-/

namespace FeatureServing.Text

def decimalDigits (n : Nat) : List Char :=
  Nat.toDigits 10 n

def decimal (n : Nat) : String :=
  String.ofList (decimalDigits n)

/-- Decimal text of an integer, the sign only in front of a negative one. -/
def signed (i : Int) : String :=
  if i < 0 then "-" ++ decimal i.natAbs else decimal i.natAbs

/-- At least `width` decimal digits, filled up with zeros in front. -/
def padded (width n : Nat) : List Char :=
  let ds := decimalDigits n
  List.replicate (width - ds.length) '0' ++ ds

/-- Lower-case hexadecimal digits. -/
def hexDigits (n : Nat) : List Char :=
  Nat.toDigits 16 n

/-- At least `width` hexadecimal digits, filled up with zeros in front. -/
def hexPadded (width n : Nat) : List Char :=
  let ds := hexDigits n
  List.replicate (width - ds.length) '0' ++ ds

/-- ASCII decimal digits only. -/
def isDigit (c : Char) : Bool :=
  '0' ≤ c && c ≤ '9'

def digitValue (c : Char) : Nat :=
  c.toNat - '0'.toNat

/-- The number spelled by decimal digits. -/
def numberOf (cs : List Char) : Nat :=
  cs.foldl (fun n c => 10 * n + digitValue c) 0

/-- The weight of a decimal digit with so many digits behind it. -/
def placeValue (places : Nat) : Nat :=
  Nat.pow 10 places

/-- The value of a hexadecimal digit of either case. -/
def hexDigit? (c : Char) : Option Nat :=
  if isDigit c then some (digitValue c)
  else if 'a' ≤ c && c ≤ 'f' then some (c.toNat - 'a'.toNat + 10)
  else if 'A' ≤ c && c ≤ 'F' then some (c.toNat - 'A'.toNat + 10)
  else none

/-- The value of one digit of a base up to sixteen. -/
def digitIn? (base : Nat) (c : Char) : Option Nat :=
  (hexDigit? c).bind fun d => if d < base then some d else none

/-- The number spelled by one or more digits of a base up to sixteen. -/
def numberIn? (base : Nat) : List Char → Option Nat
  | [] => none
  | cs => (cs.mapM (digitIn? base)).map fun ds => ds.foldl (fun n d => base * n + d) 0

def hexOf? (cs : List Char) : Option Nat :=
  numberIn? 16 cs

theorem isDigit_of_mem_decimalDigits {n : Nat} {c : Char} (h : c ∈ decimalDigits n) :
    isDigit c = true := by
  have hdigit : c.isDigit = true := Nat.isDigit_of_mem_toDigits (by decide) (by decide) h
  exact hdigit

theorem decimalDigits_ne_nil (n : Nat) : decimalDigits n ≠ [] :=
  Nat.toDigits_ne_nil

/-- The digits of a number spell it. -/
@[simp] theorem numberOf_decimalDigits (n : Nat) : numberOf (decimalDigits n) = n :=
  Nat.ofDigitChars_ten_toDigits

end FeatureServing.Text
