import FeatureServing.PoolOptions
import FeatureServing.StoreConfig

/-!
# Client configuration

`ClientConfig` is all that a client is set up from; every field may be missing.
-/

namespace FeatureServing

structure ClientConfig where
  store : Option StoreConfig := none
  pool : PoolOptions := {}
  /-- Whether to connect from outside the cluster. -/
  external : Bool := false
  /-- Whether to set up the inference helper columns as well. -/
  helpers : Bool := false
  /-- The path of the metadata document. -/
  metadataFile : Option String := none
  logLevel : String := "info"

namespace ClientConfig

def fieldNames : List String :=
  ["store", "pool", "external", "inference_helper_columns", "metadata_file", "log_level"]

section

open Readable

def read? {τ : Type} [Readable τ] (t : τ) : Option ClientConfig := do
  let fs ← fields? fieldNames t
  let store ← fs.optional "store" StoreConfig.read?
  let pool ← fs.defaulted "pool" {} PoolOptions.read?
  let external ← fs.defaulted "external" false flag?
  let helpers ← fs.defaulted "inference_helper_columns" false flag?
  let metadataFile ← fs.optional "metadata_file" text?
  let logLevel ← fs.defaulted "log_level" "info" text?
  some ⟨store, pool, external, helpers, metadataFile, logLevel⟩

end

def toJson (c : ClientConfig) : Json :=
  .record
    [("store", .ofOption StoreConfig.toJson c.store),
     ("pool", c.pool.toJson),
     ("external", .bool c.external),
     ("inference_helper_columns", .bool c.helpers),
     ("metadata_file", .ofOption .ofString c.metadataFile),
     ("log_level", .ofString c.logLevel)]

end ClientConfig

end FeatureServing
