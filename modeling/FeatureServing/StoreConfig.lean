import FeatureServing.Json
import FeatureServing.Readable

/-!
# Where the online store is

A `StoreConfig` names the kind of database and how to reach it, from inside the cluster and, if
that differs, from outside.
-/

namespace FeatureServing

inductive StoreProvider
  | mysql
  | postgresql
  | sqlite
deriving DecidableEq

namespace StoreProvider

def text : StoreProvider → String
  | mysql => "mysql"
  | postgresql => "postgresql"
  | sqlite => "sqlite"

def ofText? : String → Option StoreProvider
  | "mysql" => some mysql
  | "postgresql" => some postgresql
  | "sqlite" => some sqlite
  | _ => none

/-- The name that error texts use. -/
def label : StoreProvider → String
  | mysql => "MySQL"
  | postgresql => "PostgreSQL"
  | sqlite => "SQLite"

@[simp] theorem ofText?_text (p : StoreProvider) : ofText? p.text = some p := by
  cases p <;> rfl

end StoreProvider

structure StoreConfig where
  provider : StoreProvider
  connection : String
  externalConnection : Option String := none
  database : String := ""
  options : SortedMap String String := ∅

namespace StoreConfig

/-- The connection string of a mode; the internal one if there is none for outside. -/
def url (c : StoreConfig) (external : Bool) : String :=
  if external then c.externalConnection.getD c.connection else c.connection

def fieldNames : List String :=
  ["provider", "connection_string", "external_connection_string", "database", "options"]

section

open Readable

variable {τ : Type} [Readable τ]

def readProvider? (t : τ) : Option StoreProvider :=
  (choice? ["mysql", "postgresql", "sqlite"] t).bind StoreProvider.ofText?

def read? (t : τ) : Option StoreConfig := do
  let fs ← fields? fieldNames t
  let provider ← fs.required "provider" readProvider?
  let connection ← fs.required "connection_string" text?
  let externalConnection ← fs.optional "external_connection_string" text?
  let database ← fs.defaulted "database" "" text?
  let options ← fs.defaulted "options" ∅ (dictionary? text?)
  some ⟨provider, connection, externalConnection, database, options⟩

end

def toJson (c : StoreConfig) : Json :=
  .record
    [("provider", .ofString c.provider.text),
     ("connection_string", .ofString c.connection),
     ("external_connection_string", .ofOption .ofString c.externalConnection),
     ("database", .ofString c.database),
     ("options", .record (c.options.map Json.ofString).entries)]

end StoreConfig

end FeatureServing
