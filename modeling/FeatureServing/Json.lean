import FeatureServing.SortedMap
import FeatureServing.Text.Digits

/-!
# JSON trees

`Json` is what a JSON text says before anything is made of it: a number is its digits, an object
its members in the order they stand in, repeated names included, and a text may be one that no
string holds (`none`), because an escape in it names half of a surrogate pair.

* `Json.ofNat`, `Json.ofInt`, `Json.ofString`, `Json.record`, … build trees;
* `Json.field?` reads a member, the last one of a name;
* `Json.settle?` (`FeatureServing.Json.Settled`) is the tree of a value read for good: every text is
  a string, every number has a magnitude and no name is repeated.
-/

namespace FeatureServing

/-- A number as it stands in a text. -/
structure Numeral where
  negative : Bool
  /-- The digits in front of the point, at least one. -/
  whole : List Char
  /-- The digits behind the point; none without a point. -/
  fraction : List Char
  /-- The power of ten, if one is written. -/
  power : Option Int
deriving DecidableEq

namespace Numeral

def ofInt (i : Int) : Numeral :=
  ⟨i < 0, Text.decimalDigits i.natAbs, [], none⟩

/-- Whether the number is written without a point and without a power of ten. -/
def isIntegral (n : Numeral) : Bool :=
  n.fraction.isEmpty && n.power.isNone

end Numeral

inductive Json
  | null
  | bool (b : Bool)
  | number (n : Numeral)
  | text (t : Option String)
  | list (items : List Json)
  | object (members : List (Option String × Json))

namespace Json

instance : Inhabited Json := ⟨null⟩

def ofInt (i : Int) : Json :=
  number (.ofInt i)

def ofNat (n : Nat) : Json :=
  ofInt n

def ofString (s : String) : Json :=
  text (some s)

/-- The object of named members. -/
def record (members : List (String × Json)) : Json :=
  object (members.map fun m => (some m.1, m.2))

/-- A value that may be absent, written as null. -/
def ofOption {α : Type} (f : α → Json) : Option α → Json
  | none => null
  | some a => f a

def ofList {α : Type} (f : α → Json) (as : List α) : Json :=
  list (as.map f)

def isNull : Json → Bool
  | null => true
  | _ => false

def isList : Json → Bool
  | list _ => true
  | _ => false

/-- The last member of a name in an object. -/
def field? (j : Json) (name : String) : Option Json :=
  match j with
  | object members => members.foldl (fun found m => if m.1 = some name then some m.2 else found) none
  | _ => none

end Json

end FeatureServing
