import FeatureServing.Feature
import FeatureServing.ServingKey

/-!
# Entities

An `Entity` is what a client serves: a feature view or a training dataset, with its features, the
serving keys if the metadata name them, and the groups that another store serves.
-/

namespace FeatureServing

inductive EntityKind
  | featureView
  | trainingDataset
  /-- Anything else; it is never served. -/
  | unsupported
deriving DecidableEq

namespace EntityKind

def text : EntityKind → String
  | featureView => "feature_view"
  | trainingDataset => "training_dataset"
  | unsupported => "unsupported"

def ofText : String → EntityKind
  | "feature_view" => featureView
  | "training_dataset" => trainingDataset
  | _ => unsupported

@[simp] theorem ofText_text (k : EntityKind) : ofText k.text = k := by
  cases k <;> rfl

end EntityKind

structure Entity where
  kind : EntityKind
  name : String
  version : UInt32
  features : List Feature := []
  /-- The serving keys; none means that they follow from the statements. -/
  servingKeys : Option (List ServingKey) := none
  /-- The groups that another store serves. -/
  skip : SortedSet GroupId := ∅

namespace Entity

/-- What error texts call an entity. -/
def label (e : Entity) : String :=
  e.kind.text ++ " " ++ e.name ++ " version " ++ Text.decimal e.version.toNat

def fieldNames : List String :=
  ["kind", "name", "version", "features", "servingKeys", "skipFeatureGroupIds"]

section

open Readable

variable {τ : Type} [Readable τ]

def readKind? (t : τ) : Option EntityKind :=
  (choice? ["feature_view", "training_dataset"] t).map EntityKind.ofText

def read? (t : τ) : Option Entity := do
  let fs ← fields? fieldNames t
  let kind ← fs.required "kind" readKind?
  let name ← fs.required "name" text?
  let version ← fs.required "version" uint32?
  let features ← fs.defaulted "features" [] (list? Feature.read?)
  let servingKeys ← fs.optional "servingKeys" (list? ServingKey.read?)
  let skip ← fs.defaulted "skipFeatureGroupIds" [] (list? signed?)
  some ⟨kind, name, version, features, servingKeys, SortedSet.ofList skip⟩

end

def toJson (e : Entity) : Json :=
  .record
    [("kind", .ofString e.kind.text),
     ("name", .ofString e.name),
     ("version", .ofNat e.version.toNat),
     ("features", .ofList Feature.toJson e.features),
     ("servingKeys", .ofOption (.ofList ServingKey.toJson) e.servingKeys),
     ("skipFeatureGroupIds", .ofList (fun g => .ofInt g.toInt) e.skip.toList)]

end Entity

end FeatureServing
