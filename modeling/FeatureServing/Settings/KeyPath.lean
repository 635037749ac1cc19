import FeatureServing.Text.Digits
import FeatureServing.Text.Lowercase
import FeatureServing.Word

/-!
# Paths to nested settings

A key of a source may be a path: a name, then more names, each behind a point, and indices in
brackets. `KeyPath.ofKey` is the path that a key stands for, all names in lower case; a key that is
no path is one name as a whole.
-/

namespace FeatureServing

namespace KeyPath

/-- One step into nested settings. -/
inductive Step
  | member (name : String)
  /-- An item of a list; a negative index counts from its end. -/
  | item (index : Int)
deriving DecidableEq

end KeyPath

abbrev KeyPath := List KeyPath.Step

namespace KeyPath

/-- The characters of a name in a path. -/
def isNameChar (c : Char) : Bool :=
  c.isAlphanum || c = ' ' || c = '_' || c = '-'

/-- The step to a name in any case. -/
def Step.named (name : String) : Step :=
  .member (Text.lowercase name)

/-- A name at the start of a text, and what follows it. -/
def takeName? (cs : List Char) : Option (String × List Char) :=
  let name := cs.takeWhile isNameChar
  if name.isEmpty then none else some (String.ofList name, cs.dropWhile isNameChar)

def dropBlanks (cs : List Char) : List Char :=
  cs.dropWhile fun c => c = ' ' || c = '\t'

/-- An index of 64 bits behind an opening bracket, and what follows the closing one. -/
def takeIndex? (cs : List Char) : Option (Int × List Char) :=
  let (negative, unsigned) := match dropBlanks cs with
    | '-' :: rest => (true, rest)
    | rest => (false, rest)
  match dropBlanks (unsigned.dropWhile Text.isDigit) with
  | ']' :: rest => do
    let n ← Text.numberIn? 10 (unsigned.takeWhile Text.isDigit)
    let i ← Word.int64? (if negative then -(n : Int) else n)
    some (i.toInt, rest)
  | _ => none

/-- The steps behind the first name; the fuel is for their number. -/
def readSteps? : Nat → List Char → Option KeyPath
  | _, [] => some []
  | fuel + 1, '.' :: rest => do
    let (name, rest) ← takeName? rest
    let steps ← readSteps? fuel rest
    some (.named name :: steps)
  | fuel + 1, '[' :: rest => do
    let (index, rest) ← takeIndex? rest
    let steps ← readSteps? fuel rest
    some (.item index :: steps)
  | _, _ => none

/-- Reads a path. -/
def read? (key : String) : Option KeyPath := do
  let (name, rest) ← takeName? key.toList
  let steps ← readSteps? rest.length rest
  some (.named name :: steps)

def ofKey (key : String) : KeyPath :=
  (read? key).getD [.named key]

end KeyPath

end FeatureServing
