import FeatureServing.Json
import FeatureServing.Position
import FeatureServing.Readable

/-!
# Serving keys

A `ServingKey` is a primary key column of one position, and the name under which a caller passes
its value: the column name behind the prefix of the joined group (`ServingKey.derivedName`), unless
the prefix is ignored or the metadata give a name of its own.
-/

namespace FeatureServing

structure ServingKey where
  featureName : String
  position : Position
  keyPrefix : Option String
  /-- Whether callers use the bare column name. -/
  ignorePrefix : Bool
  /-- The name that callers use. -/
  required : String
deriving DecidableEq

namespace ServingKey

/-- The caller's name of a key that has no name of its own. -/
def derivedName (featureName : String) (keyPrefix : Option String) (ignorePrefix : Bool) : String :=
  match keyPrefix, ignorePrefix with
  | some p, false => p ++ featureName
  | _, _ => featureName

/-- The key with the derived name, or with a given one. -/
def of (featureName : String) (position : Position) (keyPrefix : Option String)
    (ignorePrefix : Bool) (required : Option String) : ServingKey :=
  ⟨featureName, position, keyPrefix, ignorePrefix,
    required.getD (derivedName featureName keyPrefix ignorePrefix)⟩

def fieldNames : List String :=
  ["featureName", "joinIndex", "prefix", "ignorePrefix", "requiredServingKey"]

section

open Readable

variable {τ : Type} [Readable τ]

def read? (t : τ) : Option ServingKey := do
  let fs ← fields? fieldNames t
  let featureName ← fs.required "featureName" text?
  let position ← fs.defaulted "joinIndex" 0 uint64?
  let keyPrefix ← fs.optional "prefix" text?
  let ignorePrefix ← fs.defaulted "ignorePrefix" false flag?
  let required ← fs.optional "requiredServingKey" text?
  some (of featureName position keyPrefix ignorePrefix required)

end

def toJson (k : ServingKey) : Json :=
  .record
    [("featureName", .ofString k.featureName),
     ("joinIndex", .ofNat k.position.toNat),
     ("prefix", .ofOption .ofString k.keyPrefix),
     ("ignorePrefix", .bool k.ignorePrefix),
     ("requiredServingKey", .ofString k.required)]

end ServingKey

end FeatureServing
