import FeatureServing.Assembly
import FeatureServing.Json.Node

/-!
# What callers ask for

A `VectorRequest` asks for the vector of one entry, a `BatchRequest` for those of many. Passed
features are written over what was looked up. `entriesOfColumns` turns key columns into entries.
-/

namespace FeatureServing

structure VectorRequest where
  entry : Entry
  /-- Values of the caller, which win over those of the store. -/
  passed : FeatureVector := ∅

structure BatchRequest where
  entries : List Entry
  /-- Empty, or one vector per entry. -/
  passed : List FeatureVector := []

/-- Writes the features of a caller over those of a vector. -/
def applyPassed (v passed : FeatureVector) : FeatureVector :=
  v.overlay passed

namespace BatchRequest

/-- Refuses passed features that do not line up with the entries. -/
def validate (r : BatchRequest) : Except ClientError Unit :=
  if r.passed.isEmpty || r.passed.length = r.entries.length then .ok ()
  else .error (.serving (.validation (.passedLength r.passed.length r.entries.length)))

/-- Writes the passed features over the vectors, in order. -/
def applyTo (r : BatchRequest) (vectors : List FeatureVector) : List FeatureVector :=
  vectors.mapIdx fun i v => applyPassed v ((r.passed[i]?).getD ∅)

end BatchRequest

/-! ## Reading -/

/-- Reads a map from names to values; the last one of a name wins. -/
def readValues? (n : Json.Node) : Option (SortedMap String Value) :=
  Readable.dictionary? (fun m : Json.Node => m.tree.toValue? m.room) n

def VectorRequest.read? (n : Json.Node) : Option VectorRequest := do
  let fs ← Readable.fields? ["entry", "passed_features"] n
  let entry ← fs.required "entry" readValues?
  let passed ← fs.defaulted "passed_features" ∅ readValues?
  some ⟨entry, passed⟩

def BatchRequest.read? (n : Json.Node) : Option BatchRequest := do
  let fs ← Readable.fields? ["entries", "passed_features"] n
  let entries ← fs.required "entries" (Readable.list? readValues?)
  let passed ← fs.defaulted "passed_features" [] (Readable.list? readValues?)
  some ⟨entries, passed⟩

/-! ## Columns -/

/-- How error texts show the length of a column. -/
def columnLabel (c : String × Nat) : String :=
  c.1 ++ "=" ++ Text.decimal c.2

/-- The entry of one row of key columns. -/
def rowOfColumns (columns : SortedMap String (List Value)) (i : Nat) : Entry :=
  columns.filterMap fun _ values => values[i]?

/-- The entries of key columns, one per row; all columns have to be of one length. -/
def entriesOfColumns (columns : SortedMap String (List Value)) :
    Except ClientError (List Entry) :=
  let lengths := columns.entries.map fun c => (c.1, c.2.length)
  let rows := (lengths.head?.map (·.2)).getD 0
  if lengths.all fun c => c.2 = rows then .ok ((List.range rows).map (rowOfColumns columns))
  else
    let shown := lengths.mergeSort fun a b => (compare (columnLabel a) (columnLabel b)).isLE
    .error (.serving (.validation (.unevenColumns shown)))

end FeatureServing
