import FeatureServing.Resolution
import FeatureServing.Schema

/-!
# Vectors from rows

`Schema.assemble` writes all rows of all positions into one vector, in the order of the positions;
the last write of a name stays. `Schema.assembleBatch` makes a vector for every entry, position by
position: the rows of a position are filed under their key texts, and every entry takes the row
under its own. The order of the rows does not tell which entry they belong to.
-/

namespace FeatureServing

/-- The vectors of a batch, one per entry in their order, and the serving keys that took part. -/
structure BatchVectors where
  vectors : List FeatureVector
  servingKeys : List ServingKey

namespace Schema

/-- Writes a row of a position into a vector. A row that could not be read makes the features of
its position null. -/
def writeRow (s : Schema) (p : Position) (v : FeatureVector) : Option Row → FeatureVector
  | some row => v.overlay row
  | none => v.insertMany ((s.namesAt p).map fun name => (name, .null))

/-- Writes all rows, by ascending position. -/
def writeRows (s : Schema) (results : SortedMap Position RowSet) : FeatureVector :=
  results.entries.foldl (fun v e => e.2.foldl (s.writeRow e.1) v) ∅

/-- The vector of one entry. -/
def assemble (s : Schema) (results : SortedMap Position RowSet) :
    Except ServingError FeatureVector :=
  s.coerce (s.writeRows results)

end Schema

/-! ## Batches -/

/-- Files a row of a position under its key texts, in the place of an earlier row with the same
ones. A row that could not be read, or that lacks a key column, is not filed. -/
def fileRow (x : KeyIndex) (p : Position) (filed : SortedMap KeyTexts Row) :
    Option Row → SortedMap KeyTexts Row
  | none => filed
  | some row =>
    match x.rowKey? row p with
    | some key => filed.insert key row
    | none => filed

/-- The rows of a position by their key texts. -/
def fileRows (x : KeyIndex) (p : Position) (rows : RowSet) : SortedMap KeyTexts Row :=
  rows.foldl (fileRow x p) ∅

/-- Writes the row that is filed under the key texts of an entry, if there is one. -/
def writeMatch (x : KeyIndex) (p : Position) (filed : SortedMap KeyTexts Row) (v : FeatureVector)
    (e : Entry) : FeatureVector :=
  match (x.entryKey? e p).bind filed.get? with
  | some row => v.overlay row
  | none => v

/-- Writes the rows of one position into the vectors of all entries. A position without serving
keys is left out. -/
def stitchPosition (x : KeyIndex) (entries : List Entry) (results : SortedMap Position RowSet)
    (done : BatchVectors) (p : Position) : BatchVectors :=
  match x.keysAt? p with
  | none => done
  | some keys =>
    let filed := fileRows x p ((results.get? p).getD [])
    ⟨List.zipWith (writeMatch x p filed) done.vectors entries, done.servingKeys ++ keys⟩

/-- Writes the rows of all positions of lookups, in ascending order. -/
def stitch (x : KeyIndex) (entries : List Entry) (lookups : SortedMap Position Lookup)
    (results : SortedMap Position RowSet) : BatchVectors :=
  lookups.keys.foldl (stitchPosition x entries results) ⟨entries.map fun _ => ∅, []⟩

namespace Schema

/-- The vectors of many entries. -/
def assembleBatch (s : Schema) (x : KeyIndex) (entries : List Entry)
    (lookups : SortedMap Position Lookup) (results : SortedMap Position RowSet) :
    Except ServingError BatchVectors := do
  let stitched := stitch x entries lookups results
  let vectors ← stitched.vectors.mapM s.coerce
  .ok { stitched with vectors }

end Schema

end FeatureServing
