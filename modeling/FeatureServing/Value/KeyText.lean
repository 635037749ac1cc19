import FeatureServing.Text.Quoted
import FeatureServing.Value.JsonText
import FeatureServing.Word

/-!
# The text that compares keys

`Value.keyText` is the canonical text of a key value. A float that is a 64-bit integer has the text
of that integer, so `1.0` from a caller meets `1` in a key column; texts are quoted, so `"1"` does
not; a timestamp has a mark of its own.
-/

namespace FeatureServing.Value

/-- Positional digits of a float; two equally near decimals give the upper one. -/
def writeFloat (x : Binary64) : String :=
  if x.isNaN then "NaN"
  else if x.isFinite then String.ofList ((x.shortest .up).plain [])
  else if x.negative then "-inf"
  else "inf"

/-- The key text of a float: the integer that it equals within `± 2 ^ 63`, its digits otherwise. -/
def floatKeyText (x : Binary64) : String :=
  match x.toInt? with
  | some i => if i.natAbs < Word.capacity 63 then Text.signed i else writeFloat x
  | none => writeFloat x

def keyText : Value → String
  | null => "null"
  | bool true => "true"
  | bool false => "false"
  | int i => Text.signed i.toInt
  | float x => floatKeyText x
  | text s => Text.quote s
  | timestamp t => "ts:" ++ t.write ' '
  | v => String.ofList (writeJson v)

end FeatureServing.Value
