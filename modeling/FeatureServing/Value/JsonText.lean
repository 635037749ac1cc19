import FeatureServing.Binary64.Shortest
import FeatureServing.Json.Writing
import FeatureServing.Value

/-!
# Values as compact JSON

`Value.writeJson` writes a value without white space. Floats have the fewest digits that read back
and always a point or a power of ten (`jsonLayout`); a float that is no number is null.
-/

namespace FeatureServing.Value

/-- Leading digits from `10 ^ -5` to `10 ^ 15` are written by position, a whole number ends in
`.0`, and a power of ten has a sign. -/
def jsonLayout : Decimal.Layout where
  positional p := -5 ≤ p && p ≤ 15
  whole := ['.', '0']
  plus := ['+']

/-- A float in a JSON text; two equally near decimals give the one with the even last digit. -/
def writeJsonFloat (x : Binary64) : List Char :=
  if x.isFinite then (x.shortest .even).write jsonLayout else ['n', 'u', 'l', 'l']

mutual

def writeJson : Value → List Char
  | null => ['n', 'u', 'l', 'l']
  | bool true => ['t', 'r', 'u', 'e']
  | bool false => ['f', 'a', 'l', 's', 'e']
  | int i => (Text.signed i.toInt).toList
  | float x => writeJsonFloat x
  | text s => Json.writeText s
  | timestamp t => Json.writeText (t.write 'T')
  | list [] => ['[', ']']
  | list (v :: rest) => '[' :: (writeJson v ++ writeJsonItems rest)
  | object [] => ['\x7b', '\x7d']
  | object ((name, v) :: rest) =>
    '\x7b' :: (Json.writeText name ++ ':' :: (writeJson v ++ writeJsonMembers rest))

/-- The items behind the first one, and the closing bracket. -/
def writeJsonItems : List Value → List Char
  | [] => [']']
  | v :: rest => ',' :: (writeJson v ++ writeJsonItems rest)

/-- The members behind the first one, and the closing brace. -/
def writeJsonMembers : List (String × Value) → List Char
  | [] => ['\x7d']
  | (name, v) :: rest =>
    ',' :: (Json.writeText name ++ ':' :: (writeJson v ++ writeJsonMembers rest))

end

end FeatureServing.Value
