import FeatureServing.Text.Digits

/-!
# Join positions

An entity is joined from feature groups; each of them has a position in the join, and everything
that is looked up, returned or reported is filed under that position.
-/

namespace FeatureServing

/-- The place of a feature group in the join of an entity. -/
abbrev Position := UInt64

/-- The number of a feature group. -/
abbrev GroupId := Int64

def Position.text (p : Position) : String :=
  Text.decimal p.toNat

/-- The three forms of a lookup: for one entry, for many entries, and without a key filter. -/
inductive LookupForm
  | single
  | batch
  | preview
deriving DecidableEq

namespace LookupForm

def text : LookupForm → String
  | single => "Single"
  | batch => "Batch"
  | preview => "Preview"

end LookupForm

end FeatureServing
