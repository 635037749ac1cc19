/-!
# Ranges of code points
-/

namespace FeatureServing.Text

/-- Whether a code point lies in one of the ranges. -/
def inRanges (n : Nat) (ranges : List (Nat × Nat)) : Bool :=
  ranges.any fun r => r.1 ≤ n && n ≤ r.2

end FeatureServing.Text
