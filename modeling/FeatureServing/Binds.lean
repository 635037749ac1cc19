import FeatureServing.Value

/-!
# Bind values

`Binds` are the values for one lookup: a value per parameter name for a single lookup, a key tuple
per entry for a batch.
-/

namespace FeatureServing

inductive Binds
  | named (values : SortedMap String Value)
  /-- One tuple per entry, in the order of the entries. -/
  | expanding (tuples : List (List Value))

namespace Binds

/-- The name of the parameter that tuples are bound to. -/
def batchName : String := "batch_ids"

def isEmpty : Binds → Bool
  | named values => values.isEmpty
  | expanding tuples => tuples.isEmpty

end Binds

end FeatureServing
