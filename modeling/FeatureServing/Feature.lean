import FeatureServing.Json
import FeatureServing.Position
import FeatureServing.Readable

/-!
# Features

A `Feature` is one column of an entity: its name in the served vector, its declared type, the
position it is read from and what it is for. A label or a helper column is not served.
-/

namespace FeatureServing

/-- The declared type of a feature. Only timestamps are decoded. -/
inductive FeatureType
  | timestamp
  | date
  | boolean
  | int
  | bigint
  | float
  | double
  | string
  /-- A type that nobody interprets, by its name. -/
  | other (name : String)
deriving DecidableEq

namespace FeatureType

/-- The type of a name, in any case. -/
def ofName (name : String) : FeatureType :=
  match name.toLower with
  | "timestamp" => timestamp
  | "date" => date
  | "boolean" | "bool" => boolean
  | "int" | "integer" => int
  | "bigint" => bigint
  | "float" => float
  | "double" => double
  | "string" => string
  | _ => other name

def name : FeatureType → String
  | timestamp => "timestamp"
  | date => "date"
  | boolean => "boolean"
  | int => "int"
  | bigint => "bigint"
  | float => "float"
  | double => "double"
  | string => "string"
  | other name => name

def isTimestamp : FeatureType → Bool
  | timestamp => true
  | _ => false

def isOther : FeatureType → Bool
  | other _ => true
  | _ => false

end FeatureType

structure Feature where
  name : String
  type : FeatureType
  label : Bool := false
  inferenceHelper : Bool := false
  trainingHelper : Bool := false
  position : Position := 0
  group : Option GroupId := none
deriving DecidableEq

namespace Feature

/-- Whether the feature is part of the served vector. -/
def isServed (f : Feature) : Bool :=
  !(f.label || f.inferenceHelper || f.trainingHelper)

/-- Whether the feature belongs to none of a set of groups. -/
def isRetained (skip : SortedSet GroupId) (f : Feature) : Bool :=
  match f.group with
  | none => true
  | some g => !skip.contains g

def fieldNames : List String :=
  ["name", "type", "label", "inferenceHelperColumn", "trainingHelperColumn", "joinIndex",
   "featureGroupId"]

section

open Readable

variable {τ : Type} [Readable τ]

def read? (t : τ) : Option Feature := do
  let fs ← fields? fieldNames t
  let name ← fs.required "name" text?
  let type ← fs.required "type" text?
  let label ← fs.defaulted "label" false flag?
  let inferenceHelper ← fs.defaulted "inferenceHelperColumn" false flag?
  let trainingHelper ← fs.defaulted "trainingHelperColumn" false flag?
  let position ← fs.defaulted "joinIndex" 0 uint64?
  let group ← fs.optional "featureGroupId" signed?
  some ⟨name, .ofName type, label, inferenceHelper, trainingHelper, position, group⟩

end

def toJson (f : Feature) : Json :=
  .record
    [("name", .ofString f.name),
     ("type", .ofString f.type.name),
     ("label", .bool f.label),
     ("inferenceHelperColumn", .bool f.inferenceHelper),
     ("trainingHelperColumn", .bool f.trainingHelper),
     ("joinIndex", .ofNat f.position.toNat),
     ("featureGroupId", .ofOption (fun g => .ofInt g.toInt) f.group)]

end Feature

end FeatureServing
