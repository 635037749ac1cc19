import FeatureServing.Entity
import FeatureServing.PreparedStatement

/-!
# Metadata documents

A `Document` describes one entity and the statements that serve it: a set for single entries, one
for batches, and the same two for the helper columns if there are any. `Document.source` answers
for the entity that the document describes and refuses any other.
-/

namespace FeatureServing

structure StatementSets where
  single : List PreparedStatement := []
  batch : List PreparedStatement := []
  helperSingle : Option (List PreparedStatement) := none
  helperBatch : Option (List PreparedStatement) := none
deriving DecidableEq

namespace StatementSets

/-- One of the four sets. -/
def select (s : StatementSets) (batch helper : Bool) : Option (List PreparedStatement) :=
  match batch, helper with
  | false, false => some s.single
  | true, false => some s.batch
  | false, true => s.helperSingle
  | true, true => s.helperBatch

def fieldNames : List String :=
  ["single", "batch", "helper_single", "helper_batch"]

section

open Readable

variable {τ : Type} [Readable τ] [Json.View τ]

/-- Reads a set of statements. -/
def readSet? (t : τ) : Option (List PreparedStatement) :=
  (Json.View.json? t).bind PreparedStatement.listOfJson?

def read? (t : τ) : Option StatementSets := do
  let fs ← fields? fieldNames t
  let single ← fs.defaulted "single" [] readSet?
  let batch ← fs.defaulted "batch" [] readSet?
  let helperSingle ← fs.optional "helper_single" readSet?
  let helperBatch ← fs.optional "helper_batch" readSet?
  some ⟨single, batch, helperSingle, helperBatch⟩

end

def toJson (s : StatementSets) : Json :=
  .record
    [("single", .ofList PreparedStatement.toJson s.single),
     ("batch", .ofList PreparedStatement.toJson s.batch),
     ("helper_single", .ofOption (.ofList PreparedStatement.toJson) s.helperSingle),
     ("helper_batch", .ofOption (.ofList PreparedStatement.toJson) s.helperBatch)]

end StatementSets

structure Document where
  entity : Entity
  statements : StatementSets := {}

namespace Document

section

open Readable

def read? {τ : Type} [Readable τ] [Json.View τ] (t : τ) : Option Document := do
  let fs ← fields? ["entity", "statements"] t
  let entity ← fs.required "entity" Entity.read?
  let statements ← fs.defaulted "statements" {} StatementSets.read?
  some ⟨entity, statements⟩

end

def toJson (d : Document) : Json :=
  .record [("entity", d.entity.toJson), ("statements", d.statements.toJson)]

/-- A set of statements of an entity, by name and version; none if the document lacks the set. -/
def source (d : Document) (asked : Entity) (batch helper : Bool) :
    Except ClientError (Option (List PreparedStatement)) :=
  if asked.name = d.entity.name ∧ asked.version = d.entity.version then
    .ok (d.statements.select batch helper)
  else .error (.document (.otherEntity asked.label d.entity.label))

end Document

end FeatureServing
