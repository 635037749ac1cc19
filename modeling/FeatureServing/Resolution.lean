import FeatureServing.KeyIndex
import FeatureServing.Lookup
import FeatureServing.Value.KeyText

/-!
# Entries and the keys of positions

`keyValue?` finds the value that an entry holds for a serving key: under the required name first,
under the bare one second, a null counting as missing. Everything else walks over the keys of a
position in their order:

* `KeyIndex.collect` : the named values of an entry, up to the first missing key;
* `KeyIndex.tuple?` : the values of all keys, if none is missing;
* `KeyIndex.resolve`, `KeyIndex.resolveBatch` : the binds of the positions that an entry, or at
  least one of many entries, has all keys for;
* `KeyIndex.entryKey?`, `KeyIndex.rowKey?` : the key texts that match rows with entries.

`KeyIndex.validateEntry` and `checkSingleShape` are what an entry has to pass before any query.
-/

namespace FeatureServing

/-- The value under a name, unless it is null. -/
def Entry.present? (e : Entry) (name : String) : Option Value :=
  (e.get? name).filter fun v => !v.isNull

/-- The value of a serving key. -/
def keyValue? (e : Entry) (k : ServingKey) : Option Value :=
  (Entry.present? e k.required).or (Entry.present? e k.featureName)

/-- Refuses an entry that holds lists only; an empty one passes. -/
def checkSingleShape (e : Entry) : Except ServingError Unit :=
  if !e.isEmpty && e.values.all Value.isList then .error (.validation .listShaped) else .ok ()

/-- The texts of the key values of one position. -/
abbrev KeyTexts := List String

namespace KeyIndex

/-- Refuses an entry with a name that is no key; the smallest such name is reported. -/
def validateEntry (x : KeyIndex) (e : Entry) : Except ServingError Unit :=
  match e.keys.find? fun name => !x.isValid name with
  | some name => .error (.validation (.unknownName name x.validNames.toList))
  | none => .ok ()

/-- Adds the named values of keys up to the first one that is missing; tells whether none is. -/
def collectFrom (e : Entry) (found : SortedMap String Value) :
    List ServingKey → Bool × SortedMap String Value
  | [] => (true, found)
  | k :: rest =>
    match keyValue? e k with
    | some v => collectFrom e (found.insert k.featureName v) rest
    | none => (false, found)

/-- The named values of one position, and whether they are complete. -/
def collect (x : KeyIndex) (e : Entry) (p : Position) : Bool × SortedMap String Value :=
  match x.keysAt? p with
  | some keys => collectFrom e ∅ keys
  | none => (false, ∅)

/-- The values of all keys of a position. -/
def tuple? (keys : List ServingKey) (e : Entry) : Option (List Value) :=
  keys.mapM (keyValue? e)

/-- Named binds for every position that the entry has all keys for. -/
def resolve (x : KeyIndex) (e : Entry) (lookups : SortedMap Position Lookup) :
    SortedMap Position Binds :=
  lookups.filterMap fun p _ =>
    match x.collect e p with
    | (true, values) => some (.named values)
    | (false, _) => none

/-- For every position the tuples of the entries that have all its keys, in the order of the
entries; no binds where there is none. -/
def resolveBatch (x : KeyIndex) (es : List Entry) (lookups : SortedMap Position Lookup) :
    SortedMap Position Binds :=
  lookups.filterMap fun p _ =>
    match x.keysAt? p with
    | none => none
    | some keys =>
      match es.filterMap (tuple? keys) with
      | [] => none
      | tuples => some (.expanding tuples)

/-- The key texts of an entry at a position. -/
def entryKey? (x : KeyIndex) (e : Entry) (p : Position) : Option KeyTexts :=
  (x.keysAt? p).bind fun keys => (tuple? keys e).map fun vs => vs.map Value.keyText

/-- The column that holds a key of a position. -/
def column (x : KeyIndex) (p : Position) (k : ServingKey) : String :=
  (x.prefixAt? p).getD "" ++ k.featureName

/-- The key texts of a row at a position; a null column has one, a missing column has none. -/
def rowKey? (x : KeyIndex) (row : Row) (p : Position) : Option KeyTexts :=
  (x.keysAt? p).bind fun keys =>
    (keys.mapM fun k => row.get? (x.column p k)).map fun vs => vs.map Value.keyText

end KeyIndex

end FeatureServing
