import FeatureServing.Json.Settled
import FeatureServing.Value

/-!
# Values from JSON

`Json.value?` reads a value: an integer is an int when 64 bits with a sign hold it, every other
number a float, and a text is always a text. The last member of a name wins. `Json.toValue?` reads a
value out of a text, where `room` is the number of levels of nesting that are allowed.
-/

namespace FeatureServing

namespace Numeral

/-- The value of a number. -/
def Number.toValue : Number → Value
  | .unsigned n => ((Word.int64? n).map Value.int).getD (.float (.ofNat n))
  | .negative i => .int (Int64.ofInt i)
  | .float x => .float x

end Numeral

namespace Json

mutual

def value? : Json → Option Value
  | null => some .null
  | bool b => some (.bool b)
  | number n => n.number?.map (·.toValue)
  | text t => t.map .text
  | list items => (values? items).map .list
  | object members => (memberValues? members).map .ofMembers

def values? : List Json → Option (List Value)
  | [] => some []
  | j :: rest => do
    let v ← value? j
    let vs ← values? rest
    some (v :: vs)

def memberValues? : List (Option String × Json) → Option (List (String × Value))
  | [] => some []
  | (none, _) :: _ => none
  | (some name, j) :: rest => do
    let v ← value? j
    let ms ← memberValues? rest
    some ((name, v) :: ms)

end

mutual

/-- Whether a tree nests no deeper than is allowed. -/
def fits (room : Nat) : Json → Bool
  | list items =>
    match room with
    | 0 => false
    | room + 1 => itemsFit room items
  | object members =>
    match room with
    | 0 => false
    | room + 1 => membersFit room members
  | _ => true

def itemsFit (room : Nat) : List Json → Bool
  | [] => true
  | j :: rest => fits room j && itemsFit room rest

def membersFit (room : Nat) : List (Option String × Json) → Bool
  | [] => true
  | (_, j) :: rest => fits room j && membersFit room rest

end

def toValue? (room : Nat) (j : Json) : Option Value :=
  if j.fits room then j.value? else none

end Json

end FeatureServing
