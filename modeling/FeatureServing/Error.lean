import FeatureServing.Position
import FeatureServing.Time.Reading

/-!
# What can go wrong

Errors are causes; their wording is in one function each.

* `ModelError` : a value or a piece of metadata that makes no sense by itself;
* `ServingError` : a failed compilation, validation, lookup or decoding, in four kinds;
* `ClientError` : a failed call of the client, with the five kinds that callers tell apart.

Every kind has a case `reported` for a failure that another component puts into its own words.
-/

namespace FeatureServing

/-! ## The model -/

inductive MetadataCause
  /-- Two parameters of a statement claim the same placeholder. -/
  | repeatedIndex (position : Position) (index : UInt64)
  | blankQuery (position : Position)
  | reported (text : String)
deriving DecidableEq

inductive ModelError
  | invalidValue (text : String)
  | invalidMetadata (cause : MetadataCause)
  /-- A piece of JSON that does not have the shape asked for. -/
  | serialization
deriving DecidableEq

namespace MetadataCause

def message : MetadataCause → String
  | repeatedIndex p i =>
    "prepared statement " ++ p.text ++ " declares parameter index " ++ Text.decimal i.toNat ++ " twice"
  | blankQuery p => "prepared statement " ++ p.text ++ " has an empty query"
  | reported t => t

end MetadataCause

namespace ModelError

def message : ModelError → String
  | invalidValue t => "Invalid value: " ++ t
  | invalidMetadata c => "Invalid metadata: " ++ c.message
  | serialization => "Serialization error"

end ModelError

/-! ## Serving -/

/-- Metadata or a set-up that cannot be served from. -/
inductive ConfigurationCause
  | model (e : ModelError)
  | morePlaceholders (position : Position) (parameters : Nat)
  | fewerPlaceholders (position : Position) (parameters : Nat)
  | batchPlaceholders (position : Position) (found : Nat)
  | noKeyFilter (position : Position)
  | unboundParameter (position : Position) (name : String)
  /-- Named binds for an expanding lookup, or the other way round. -/
  | bindShape (form : LookupForm) (position : Position) (named : Bool)
  | repeatedPosition (position : Position)
  | noBatchStatements
  | reported (text : String)
deriving DecidableEq

/-- Input of a caller that is refused before any query. -/
inductive ValidationCause
  | unknownName (name : String) (valid : List String)
  | listShaped
  | noTuples (position : Position)
  | passedLength (passed entries : Nat)
  | unevenColumns (lengths : List (String × Nat))
  | reported (text : String)
deriving DecidableEq

/-- A store that could not be reached or a query that failed. -/
inductive BackendCause
  | closed
  | failed (position : Position)
  | timedOut (lookups millis : Nat)
  | refused
  | reported (text : String)
deriving DecidableEq

/-- A value from the store that cannot be decoded. -/
inductive DataCause
  | millisRange (millis : Int64)
  | timestampText (text : String) (fault : TimestampFault)
  | timestampType (typeName : String)
  | feature (name : String) (cause : DataCause)
  | noFeatures
  | malformedRow
  | reported (text : String)
deriving DecidableEq

inductive ServingError
  | configuration (cause : ConfigurationCause)
  | validation (cause : ValidationCause)
  | backend (cause : BackendCause)
  | data (cause : DataCause)
deriving DecidableEq

namespace ConfigurationCause

def message : ConfigurationCause → String
  | model e => e.message
  | morePlaceholders p n =>
    "query for join position " ++ p.text ++ " has more placeholders than its " ++ Text.decimal n ++
      " primary key parameters"
  | fewerPlaceholders p n =>
    "query for join position " ++ p.text ++ " has fewer placeholders than its " ++ Text.decimal n ++
      " primary key parameters"
  | batchPlaceholders p n =>
    "batch statement for join position " ++ p.text ++
      " must contain exactly one placeholder, found " ++ Text.decimal n
  | noKeyFilter p =>
    "statement for join position " ++ p.text ++ " has no WHERE clause ahead of its parameters"
  | unboundParameter p name =>
    "statement for join position " ++ p.text ++ " expects parameter '" ++ name ++
      "' but no value was bound"
  | bindShape form p named =>
    form.text ++ " statement for join position " ++ p.text ++ " cannot take " ++
      (if named then "named" else "expanding") ++ " bind parameters"
  | repeatedPosition p =>
    "join position " ++ p.text ++ " has more than one prepared statement"
  | noBatchStatements => "no batch statements were compiled for this client"
  | reported t => t

end ConfigurationCause

namespace ValidationCause

def message : ValidationCause → String
  | unknownName name valid =>
    "'" ++ name ++ "' is not a correct serving key. Expect one of the followings: [" ++
      ", ".intercalate valid ++ "]"
  | listShaped =>
    "Entry is expected to be single value per primary key. If you have already initialised " ++
      "prepared statements for single vector and now want to retrieve batch vector please " ++
      "reinitialise the client for batch serving"
  | noTuples p => "no key tuples bound for join position " ++ p.text
  | passedLength passed entries =>
    "Length of passed features does not match the length of the entries (" ++
      Text.decimal passed ++ " != " ++ Text.decimal entries ++ ")"
  | unevenColumns lengths =>
    "serving key columns have different lengths: " ++
      ", ".intercalate (lengths.map fun c => c.1 ++ "=" ++ Text.decimal c.2)
  | reported t => t

end ValidationCause

namespace BackendCause

def message : BackendCause → String
  | closed => "memory store connection is closed"
  | failed p => "query for join position " ++ p.text ++ " failed"
  | timedOut n ms =>
    "lookup of " ++ Text.decimal n ++ " join positions timed out after " ++ Text.decimal ms ++ "ms"
  | refused => "connect refused"
  | reported t => t

end BackendCause

namespace DataCause

def message : DataCause → String
  | millisRange m => "timestamp " ++ Text.signed m.toInt ++ " ms is out of range"
  | timestampText s fault =>
    "cannot parse timestamp '" ++ s ++ "' with format " ++ Timestamp.layout ++ ": " ++ fault.message
  | timestampType name => "Timestamp value of unexpected type " ++ name
  | feature name cause => "feature '" ++ name ++ "': " ++ cause.message
  | noFeatures => "response has no 'features' array"
  | malformedRow => "malformed feature row"
  | reported t => t

end DataCause

namespace ServingError

def message : ServingError → String
  | configuration c => "Configuration error: " ++ c.message
  | validation c => "Validation error: " ++ c.message
  | backend c => "Backend error: " ++ c.message
  | data c => "Data error: " ++ c.message

/-- A model error met while serving is a fault of the set-up. -/
def ofModel (e : ModelError) : ServingError :=
  configuration (.model e)

end ServingError

/-! ## The client -/

/-- A set-up that the client refuses, or configuration that cannot be read. -/
inductive SetUpCause
  | unsupportedKind (entityName : String)
  | helpersNotAvailable (entity : String)
  | statementsMissing (helper batch : Bool) (entity : String)
  | helpersNotSetUp (entity : String)
  | unknownFileFormat (path : String)
  | noMetadata
  | noStore
  | storeNotBuiltIn (provider : String)
  | unparsable
  | unreadable
  | undecodable
  | loggerInstalled
  | reported (text : String)
deriving DecidableEq

inductive DocumentCause
  | otherEntity (asked described : String)
  | invalidYaml
  | invalidJson
  | model (e : ModelError)
  | reported (text : String)
deriving DecidableEq

inductive ClientError
  | configuration (cause : SetUpCause)
  | document (cause : DocumentCause)
  | serving (e : ServingError)
  | io (text : String)
  | notReady
deriving DecidableEq

/-- The kinds of failure that a caller tells apart. -/
inductive ErrorKind
  | configuration
  | validation
  | backend
  | data
  | io
deriving DecidableEq

namespace SetUpCause

def message : SetUpCause → String
  | unsupportedKind name => "Object type of " ++ name ++ " is not supported for online serving"
  | helpersNotAvailable entity =>
    "Inference helper columns are only available for feature views, not " ++ entity
  | statementsMissing helper batch entity =>
    (if helper then "inference helper " else "") ++ (if batch then "batch" else "single") ++
      " prepared statements are not available for " ++ entity
  | helpersNotSetUp entity => "inference helper columns were not initialised for " ++ entity
  | unknownFileFormat path => "Unsupported metadata file format: " ++ path
  | noMetadata => "no metadata provider or metadata_file configured"
  | noStore => "no online store configured"
  | storeNotBuiltIn provider => provider ++ " online store requires the 'sqlx' feature"
  | unparsable => "Failed to parse config"
  | unreadable => "Failed to read config"
  | undecodable => "Failed to deserialize config"
  | loggerInstalled => "Failed to initialize tracing"
  | reported t => t

end SetUpCause

namespace DocumentCause

def message : DocumentCause → String
  | otherEntity asked described => "no metadata for " ++ asked ++ ", document describes " ++ described
  | invalidYaml => "Invalid YAML document"
  | invalidJson => "Invalid JSON document"
  | model e => e.message
  | reported t => t

end DocumentCause

namespace ServingError

def kind : ServingError → ErrorKind
  | configuration _ => .configuration
  | validation _ => .validation
  | backend _ => .backend
  | data _ => .data

end ServingError

namespace ClientError

def message : ClientError → String
  | configuration c => "Configuration error: " ++ c.message
  | document c => "Metadata error: " ++ c.message
  | serving e => "Runtime error: " ++ e.message
  | io t => "I/O error: " ++ t
  | notReady => "Client not initialized"

def kind : ClientError → ErrorKind
  | configuration _ | document _ | notReady => .configuration
  | serving e => e.kind
  | io _ => .io

/-- A model error met while metadata is read. -/
def ofModel (e : ModelError) : ClientError :=
  document (.model e)

end ClientError

end FeatureServing
