import FeatureServing.Binds
import FeatureServing.PreparedStatement
import FeatureServing.Query.Token

/-!
# Lookups

A `Lookup` is a prepared statement made ready for binding: its query in segments.

* `Lookup.single` : every placeholder is a named parameter, from left to right in the order of the
  parameters' indices;
* `Lookup.batch` : the only placeholder is a list of key tuples;
* `Lookup.preview` : the query up to its key filter, limited to some rows.
-/

namespace FeatureServing

/-- A piece of a lookup's text. -/
inductive Segment
  | text (s : String)
  | parameter (name : String)
  /-- A parameter that stands for a list of key tuples. -/
  | expanding (name : String)
deriving DecidableEq

structure Lookup where
  position : Position
  group : Option GroupId
  keyPrefix : Option String
  form : LookupForm
  segments : List Segment
  /-- The names of the parameters, in the order of their placeholders. -/
  parameters : List String
deriving DecidableEq

namespace Segment

/-- The text of a segment, a parameter behind a colon. -/
def template : Segment → String
  | text s => s
  | parameter name | expanding name => ":" ++ name

end Segment

namespace Lookup

/-- The text with its parameters by name. -/
def template (l : Lookup) : String :=
  String.join (l.segments.map (·.template))

/-! ## Single lookups -/

/-- Gives the placeholders their names, from left to right. -/
def parametrize (position : Position) (count : Nat) :
    List Token → List String → Except ConfigurationCause (List Segment)
  | [], [] => .ok []
  | [], _ :: _ => .error (.fewerPlaceholders position count)
  | .text s :: rest, names => do
    let segments ← parametrize position count rest names
    .ok (.text s :: segments)
  | .placeholder :: _, [] => .error (.morePlaceholders position count)
  | .placeholder :: rest, name :: names => do
    let segments ← parametrize position count rest names
    .ok (.parameter name :: segments)

/-- The lookup of one entry. -/
def single (s : PreparedStatement) : Except ServingError Lookup := do
  s.validate.mapError .ofModel
  let names := s.primaryKeyNames
  let segments ←
    (parametrize s.position names.length (Query.tokens s.query) names).mapError .configuration
  .ok ⟨s.position, s.group, s.keyPrefix, .single, segments, names⟩

/-! ## Batch lookups -/

/-- A token of a query whose placeholder stands for key tuples. -/
def batchSegment : Token → Segment
  | .text s => .text s
  | .placeholder => .expanding Binds.batchName

/-- The lookup of many entries; its query has exactly one placeholder. -/
def batch (s : PreparedStatement) : Except ServingError Lookup := do
  s.validate.mapError .ofModel
  let found := Query.placeholders s.query
  if found = 1 then
    .ok ⟨s.position, s.group, s.keyPrefix, .batch, (Query.tokens s.query).map batchSegment,
      [Binds.batchName]⟩
  else .error (.configuration (.batchPlaceholders s.position found))

/-! ## Previews -/

/-- The characters in front of the first place where a word stands. -/
def before? (word : List Char) : List Char → Option (List Char)
  | [] => if word.isEmpty then some [] else none
  | c :: rest =>
    if word.isPrefixOf (c :: rest) then some [] else (before? word rest).map (c :: ·)

/-- The word in front of the key filter. -/
def filterMark : String := " WHERE "

/-- The text in front of the key filter, if that stands ahead of all parameters. -/
def unfiltered? : List Segment → Option (List Char)
  | .text s :: rest =>
    match before? filterMark.toList s.toList with
    | some head => some head
    | none => (unfiltered? rest).map (s.toList ++ ·)
  | _ => none

/-- The lookup without its key filter, limited to some rows. -/
def preview (limit : Nat) (l : Lookup) : Except ServingError Lookup :=
  match unfiltered? l.segments with
  | some head =>
    let text := String.ofList head ++ " LIMIT " ++ Text.decimal limit
    .ok { l with form := .preview, segments := [.text text], parameters := [] }
  | none => .error (.configuration (.noKeyFilter l.position))

end Lookup

end FeatureServing
