import FeatureServing.Lookup

/-!
# Rendering a lookup

`Lookup.pieces` puts bind values in the place of parameters; `RenderedQuery.ofPieces` writes the
pieces for a backend, each value as a placeholder, and collects the values in the same order. What
is written between the values does not depend on them.
-/

namespace FeatureServing

/-- How a backend writes its placeholders. -/
inductive PlaceholderStyle
  | questionMark
  /-- A dollar sign and the number of the placeholder, from one. -/
  | numbered
deriving DecidableEq

namespace PlaceholderStyle

/-- The text of the placeholder with a number. -/
def text : PlaceholderStyle → Nat → String
  | questionMark, _ => "?"
  | numbered, n => "$" ++ Text.decimal n

end PlaceholderStyle

/-- A part of a query with its values in place. -/
inductive Piece
  | text (s : String)
  | value (v : Value)

/-- The text for a backend and the values of its placeholders. -/
structure RenderedQuery where
  text : String
  values : List Value

namespace RenderedQuery

/-- Writes pieces, the next placeholder having a given number. -/
def write (style : PlaceholderStyle) : Nat → List Piece → List String
  | _, [] => []
  | n, .text s :: rest => s :: write style n rest
  | n, .value _ :: rest => style.text n :: write style (n + 1) rest

def valueOf? : Piece → Option Value
  | .text _ => none
  | .value v => some v

def ofPieces (style : PlaceholderStyle) (pieces : List Piece) : RenderedQuery :=
  ⟨String.join (write style 1 pieces), pieces.filterMap valueOf?⟩

end RenderedQuery

namespace Lookup

/-- Parts with a comma between them. -/
def listed : List (List Piece) → List Piece
  | [] => []
  | [p] => p
  | p :: q :: rest => p ++ .text ", " :: listed (q :: rest)

/-- A key tuple, in parentheses if it has more than one value. -/
def tuplePieces (tuple : List Value) : List Piece :=
  let inner := listed (tuple.map fun v => [.value v])
  if 1 < tuple.length then .text "(" :: inner ++ [.text ")"] else inner

/-- The pieces of one segment. -/
def segmentPieces (l : Lookup) (binds : Binds) : Segment → Except ServingError (List Piece)
  | .text s => .ok [.text s]
  | .parameter name =>
    match binds with
    | .named values =>
      match values.get? name with
      | some v => .ok [.value v]
      | none => .error (.configuration (.unboundParameter l.position name))
    | .expanding _ => .error (.configuration (.bindShape l.form l.position false))
  | .expanding _ =>
    match binds with
    | .named _ => .error (.configuration (.bindShape l.form l.position true))
    | .expanding [] => .error (.validation (.noTuples l.position))
    | .expanding tuples => .ok (.text "(" :: listed (tuples.map tuplePieces) ++ [.text ")"])

/-- The whole query with its values in place; the first segment that cannot take its values
makes the error. -/
def pieces (l : Lookup) (binds : Binds) : Except ServingError (List Piece) :=
  (l.segments.mapM (l.segmentPieces binds)).map List.flatten

def render (l : Lookup) (style : PlaceholderStyle) (binds : Binds) :
    Except ServingError RenderedQuery :=
  (l.pieces binds).map (.ofPieces style)

end Lookup

end FeatureServing
