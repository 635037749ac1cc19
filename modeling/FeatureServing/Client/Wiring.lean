import FeatureServing.ClientConfig
import FeatureServing.MetadataFile

/-!
# What a client is put together from

A client needs a source of metadata and a connector to a store. Both may be given; otherwise the
configuration has to name a metadata file and a store.
-/

namespace FeatureServing

/-- Where the metadata of a client come from. -/
inductive MetadataSource
  | document (d : Document)
  | file (f : MetadataFile)

structure Wiring where
  config : ClientConfig := {}
  /-- A document that is used in the place of the configured file. -/
  document : Option Document := none
  /-- Whether a connector is given. -/
  connector : Bool := false

namespace Wiring

/-- The source of the metadata. -/
def metadata (w : Wiring) : Except ClientError MetadataSource :=
  match w.document, w.config.metadataFile with
  | some d, _ => .ok (.document d)
  | none, some path => (MetadataFile.ofPath path).map .file
  | none, none => .error (.configuration .noMetadata)

/-- Refuses a client without a connector. No connector for a configured store is built in. -/
def checkStore (w : Wiring) : Except ClientError Unit :=
  if w.connector then .ok ()
  else
    match w.config.store with
    | some s => .error (.configuration (.storeNotBuiltIn s.provider.label))
    | none => .error (.configuration .noStore)

/-- The source of the metadata of a client that can be put together. -/
def build (w : Wiring) : Except ClientError MetadataSource := do
  let source ← w.metadata
  w.checkStore
  .ok source

end Wiring

end FeatureServing
