import FeatureServing.Error
import FeatureServing.Json.Node
import FeatureServing.Text.Blank

/-!
# Prepared statements

A `PreparedStatement` is the query of one position with its placeholders, and the parameters that
fill them, each with the ordinal of its placeholder. `PreparedStatement.validate` refuses one whose
parameters have no definite order or whose query is blank. `PreparedStatement.listOfJson?` reads a
list of statements, bare or in an envelope with a count.
-/

namespace FeatureServing

structure Parameter where
  name : String
  /-- The ordinal of the placeholder that the parameter fills. -/
  index : UInt64
deriving DecidableEq

structure PreparedStatement where
  group : Option GroupId
  position : Position
  parameters : List Parameter
  query : String
  keyPrefix : Option String
deriving DecidableEq

namespace Parameter

section

open Readable

def read? {τ : Type} [Readable τ] (t : τ) : Option Parameter := do
  let fs ← fields? ["name", "index"] t
  let name ← fs.required "name" text?
  let index ← fs.required "index" uint64?
  some ⟨name, index⟩

end

def toJson (p : Parameter) : Json :=
  .record [("name", .ofString p.name), ("index", .ofNat p.index.toNat)]

end Parameter

namespace PreparedStatement

/-- The parameters by ascending index, equal ones in the order they are declared in. -/
def sortedParameters (s : PreparedStatement) : List Parameter :=
  s.parameters.mergeSort fun p q => p.index ≤ q.index

/-- The names of the parameters, in the order of their placeholders. -/
def primaryKeyNames (s : PreparedStatement) : List String :=
  s.sortedParameters.map (·.name)

/-- The first index of a list that stands in an earlier place of it as well. -/
def firstRepeated? (seen : List UInt64) : List UInt64 → Option UInt64
  | [] => none
  | i :: rest => if seen.contains i then some i else firstRepeated? (i :: seen) rest

/-- Refuses parameters without a definite order, then a blank query. -/
def validate (s : PreparedStatement) : Except ModelError Unit :=
  match firstRepeated? [] (s.parameters.map (·.index)) with
  | some i => .error (.invalidMetadata (.repeatedIndex s.position i))
  | none =>
    if Text.isBlankText s.query then .error (.invalidMetadata (.blankQuery s.position))
    else .ok ()

/-- Whether the statement belongs to none of a set of groups. -/
def isRetained (skip : SortedSet GroupId) (s : PreparedStatement) : Bool :=
  match s.group with
  | none => true
  | some g => !skip.contains g

/-- The statements that belong to none of a set of groups. -/
def retained (skip : SortedSet GroupId) (statements : List PreparedStatement) :
    List PreparedStatement :=
  statements.filter (isRetained skip)

def fieldNames : List String :=
  ["featureGroupId", "preparedStatementIndex", "preparedStatementParameters", "queryOnline",
   "prefix"]

section

open Readable

def read? {τ : Type} [Readable τ] (t : τ) : Option PreparedStatement := do
  let fs ← fields? fieldNames t
  let group ← fs.optional "featureGroupId" signed?
  let position ← fs.required "preparedStatementIndex" uint64?
  let parameters ← fs.defaulted "preparedStatementParameters" [] (list? Parameter.read?)
  let query ← fs.required "queryOnline" text?
  let keyPrefix ← fs.optional "prefix" text?
  some ⟨group, position, parameters, query, keyPrefix⟩

/-- Reads the envelope of a list. A count of zero makes the list empty; any other count is not
compared with the items. -/
def readEnvelope? {τ : Type} [Readable τ] (t : τ) : Option (List PreparedStatement) := do
  let fs ← fields? ["count", "items"] t
  let count ← fs.required "count" uint64?
  let items ← fs.defaulted "items" [] (list? read?)
  some (if count = 0 then [] else items)

/-- Reads a list of statements, bare or in its envelope. -/
def listOfJson? (j : Json) : Option (List PreparedStatement) :=
  if j.isList then list? read? (Json.Node.root j) else readEnvelope? (Json.Node.root j)

end

def toJson (s : PreparedStatement) : Json :=
  .record
    [("featureGroupId", .ofOption (fun g => .ofInt g.toInt) s.group),
     ("preparedStatementIndex", .ofNat s.position.toNat),
     ("preparedStatementParameters", .ofList Parameter.toJson s.parameters),
     ("queryOnline", .ofString s.query),
     ("prefix", .ofOption .ofString s.keyPrefix)]

end PreparedStatement

end FeatureServing
