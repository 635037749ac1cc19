import FeatureServing.Error
import FeatureServing.Feature
import FeatureServing.Value.OfJson

/-!
# The columns of a vector

A `Schema` is the ordered features of a vector. It decodes the timestamps among the values of a
vector (`Schema.coerce`) or of a row of values (`Schema.convertRow`) and leaves all else alone.
-/

namespace FeatureServing

/-- Decodes a timestamp: an integer counts milliseconds, a text is a relational timestamp, a null
stays one. -/
def coerceTimestamp : Value → Except DataCause Value
  | .null => .ok .null
  | .timestamp t => .ok (.timestamp t)
  | .int i =>
    match Instant.ofEpochMillis? i.toInt with
    | some t => .ok (.timestamp t)
    | none => .error (.millisRange i)
  | .text s => ((readTimestamp s).map Value.timestamp).mapError (.timestampText s)
  | v => .error (.timestampType v.typeName)

/-- The features of a vector, in their order. -/
structure Schema where
  features : List Feature

namespace Schema

/-- The served features that belong to no skipped group. -/
def ofServed (features : List Feature) (skip : SortedSet GroupId) : Schema :=
  ⟨(features.filter Feature.isServed).filter (Feature.isRetained skip)⟩

/-- The inference helper columns that belong to no skipped group. -/
def ofHelpers (features : List Feature) (skip : SortedSet GroupId) : Schema :=
  ⟨(features.filter Feature.inferenceHelper).filter (Feature.isRetained skip)⟩

/-- The names and types, in order. -/
def columns (s : Schema) : List (String × FeatureType) :=
  s.features.map fun f => (f.name, f.type)

def size (s : Schema) : Nat :=
  s.features.length

def isEmpty (s : Schema) : Bool :=
  s.features.isEmpty

/-- The type of a name, as its last declaration says. -/
def typeOf? (s : Schema) (name : String) : Option FeatureType :=
  s.features.foldl (fun found f => if f.name = name then some f.type else found) none

/-- The names that are read from a position. -/
def namesAt (s : Schema) (p : Position) : List String :=
  (s.features.filter fun f => f.position = p).map (·.name)

/-- The vector of nulls. -/
def nullVector (s : Schema) : FeatureVector :=
  SortedMap.ofList (s.features.map fun f => (f.name, .null))

/-- Decodes one value of a vector if its name is declared a timestamp. -/
def coerceValue (s : Schema) (name : String) (v : Value) : Except ServingError Value :=
  match s.typeOf? name with
  | some .timestamp => (coerceTimestamp v).mapError fun c => .data (.feature name c)
  | _ => .ok v

/-- Decodes the timestamps of a vector. -/
def coerce (s : Schema) (v : FeatureVector) : Except ServingError FeatureVector :=
  v.traverse s.coerceValue

/-- Decodes one value of a row by the type of its column. -/
def convertValue (f : Feature) (v : Value) : Except ServingError (String × Value) :=
  if f.type.isTimestamp then ((coerceTimestamp v).mapError .data).map fun w => (f.name, w)
  else .ok (f.name, v)

/-- The vector of a row of values in the order of the columns; no row gives nulls. What is beyond
the shorter of the two is dropped. -/
def convertRow (s : Schema) : Option (List Value) → Except ServingError FeatureVector
  | none => .ok s.nullVector
  | some values =>
    ((s.features.zip values).mapM fun e => convertValue e.1 e.2).map SortedMap.ofList

/-- The vector of one row of a response: null, or a list of values. -/
def convertJsonRow (s : Schema) (j : Json) : Except ServingError FeatureVector :=
  match j with
  | .null => s.convertRow none
  | .list items =>
    match items.mapM Json.value? with
    | some values => s.convertRow (some values)
    | none => .error (.data .malformedRow)
  | _ => .error (.data .malformedRow)

/-- The vectors of the rows that a response lists under `features`. -/
def convertResponse (s : Schema) (response : Json) : Except ServingError (List FeatureVector) :=
  match response.field? "features" with
  | some (.list rows) => rows.mapM s.convertJsonRow
  | _ => .error (.data .noFeatures)

end Schema

end FeatureServing
