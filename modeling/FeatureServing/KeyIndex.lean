import FeatureServing.PreparedStatement
import FeatureServing.ServingKey

/-!
# Serving keys by position

A `KeyIndex` files the serving keys under their positions, each position's keys in the order of the
statement's parameters. Bind tuples and the keys of result rows are both made in this order.
`KeyIndex.build` takes the keys as given or derives one per parameter of the statements.
-/

namespace FeatureServing

structure KeyIndex where
  /-- The keys of a position, in the order of its parameters. -/
  keys : SortedMap Position (List ServingKey)
  /-- The prefix of the statement of a position. -/
  prefixes : SortedMap Position (Option String)
  /-- The names that an entry may hold: required names and bare ones. -/
  validNames : SortedSet String

namespace KeyIndex

/-- The index that the parameters of a statement declare for a name, the last one if there are
several, zero if there is none. -/
def indexIn (parameters : List Parameter) (name : String) : UInt64 :=
  parameters.foldl (fun found p => if p.name = name then p.index else found) 0

/-- The last statement of a position. -/
def statementAt? (statements : List PreparedStatement) (p : Position) : Option PreparedStatement :=
  statements.foldl (fun found s => if s.position = p then some s else found) none

/-- The place of a key among those of its position. -/
def order (statements : List PreparedStatement) (p : Position) (name : String) : UInt64 :=
  match statementAt? statements p with
  | some s => indexIn s.parameters name
  | none => 0

/-- One key per parameter of the statements. Callers use the bare names of such keys. -/
def derived (statements : List PreparedStatement) : List ServingKey :=
  statements.flatMap fun s =>
    s.sortedParameters.map fun p => .of p.name s.position s.keyPrefix true none

/-- Files a key behind the others of its position. -/
def file (filed : SortedMap Position (List ServingKey)) (k : ServingKey) :
    SortedMap Position (List ServingKey) :=
  filed.insert k.position ((filed.get? k.position).getD [] ++ [k])

/-- The keys in the order of their indices, equal ones in the order they were given. -/
def sorted (index : String → UInt64) (keys : List ServingKey) : List ServingKey :=
  keys.mergeSort fun a b => index a.featureName ≤ index b.featureName

/-- The index of keys over statements that are all valid. -/
def ofKeys (statements : List PreparedStatement) (keys : List ServingKey) : KeyIndex :=
  let filed := keys.foldl file SortedMap.empty
  { keys :=
      ⟨filed.entries.map fun e => (e.1, sorted (order statements e.1) e.2), by
        rw [List.pairwise_map]
        exact filed.sorted⟩
    prefixes := SortedMap.ofList (statements.map fun s => (s.position, s.keyPrefix))
    validNames := SortedSet.ofList (keys.flatMap fun k => [k.featureName, k.required]) }

/-- Builds the index over the statements of the groups that are not skipped. Without keys of its
own every parameter gets one. -/
def build (statements : List PreparedStatement) (supplied : Option (List ServingKey))
    (skip : SortedSet GroupId) : Except ServingError KeyIndex := do
  let statements := PreparedStatement.retained skip statements
  statements.forM fun s => s.validate.mapError ServingError.ofModel
  .ok (ofKeys statements (supplied.getD (derived statements)))

/-- The ordered keys of a position. -/
def keysAt? (x : KeyIndex) (p : Position) : Option (List ServingKey) :=
  x.keys.get? p

/-- The prefix in front of the columns of a position. -/
def prefixAt? (x : KeyIndex) (p : Position) : Option String :=
  (x.prefixes.get? p).join

def isValid (x : KeyIndex) (name : String) : Bool :=
  x.validNames.contains name

/-- All keys, by ascending position. -/
def servingKeys (x : KeyIndex) : List ServingKey :=
  x.keys.values.flatten

end KeyIndex

end FeatureServing
