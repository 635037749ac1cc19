import FeatureServing.Binary64
import FeatureServing.SortedMap
import FeatureServing.Time.Instant

/-!
# Values of keys and features

`Value` is what a store can hold for a feature and what a caller can pass for a key. Integers and
floats stay apart: timestamps are decoded from integers only. Entries, rows and feature vectors are
maps from names to values (`Entry`, `Row`, `FeatureVector`).
-/

namespace FeatureServing

inductive Value
  | null
  | bool (b : Bool)
  | int (i : Int64)
  | float (x : Binary64)
  | text (s : String)
  | timestamp (t : Instant)
  | list (items : List Value)
  /-- The members in the order of their names, each name once. -/
  | object (members : List (String × Value))

namespace Value

instance : Inhabited Value := ⟨null⟩

/-- The object of a list of members; the last one of a name wins. -/
def ofMembers (members : List (String × Value)) : Value :=
  object (SortedMap.ofList members).entries

def isNull : Value → Bool
  | null => true
  | _ => false

def isList : Value → Bool
  | list _ => true
  | _ => false

/-- What error texts call the kind of a value. -/
def typeName : Value → String
  | null => "null"
  | bool _ => "bool"
  | int _ => "int"
  | float _ => "float"
  | text _ => "string"
  | timestamp _ => "timestamp"
  | list _ => "array"
  | object _ => "object"

/-- Whether the value is neither a list nor an object. -/
def isScalar : Value → Bool
  | list _ | object _ => false
  | _ => true

theorem isNull_iff {v : Value} : v.isNull = true ↔ v = null := by
  cases v <;> simp [isNull]

end Value

/-- What a caller knows about one thing to serve: key names with their values. -/
abbrev Entry := SortedMap String Value

/-- One result row: column names with their values. -/
abbrev Row := SortedMap String Value

/-- A served vector: feature names with their values. -/
abbrev FeatureVector := SortedMap String Value

/-- The rows of one lookup; `none` is the store's sign for a row that could not be read. -/
abbrev RowSet := List (Option Row)

end FeatureServing
