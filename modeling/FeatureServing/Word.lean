/-!
# Integers of a fixed width

* `Word.capacity bits` : how many values so many bits have;
* `Word.unsigned? bits i`, `Word.int64? i` : an integer as a word, none when the word is too small.
-/

namespace FeatureServing.Word

/-- The number of values of so many bits. -/
def capacity (bits : Nat) : Nat :=
  Nat.pow 2 bits

/-- The natural number that an integer is, if so many bits hold it. -/
def unsigned? (bits : Nat) (i : Int) : Option Nat :=
  if 0 ≤ i ∧ i < capacity bits then some i.toNat else none

/-- Whether so many bits, one of them the sign, hold an integer. -/
def holdsSigned (bits : Nat) (i : Int) : Bool :=
  -(capacity (bits - 1) : Int) ≤ i && i < capacity (bits - 1)

def int64? (i : Int) : Option Int64 :=
  if holdsSigned 64 i then some (Int64.ofInt i) else none

theorem toNat_unsigned? {bits : Nat} {i : Int} {n : Nat} (h : unsigned? bits i = some n) :
    (n : Int) = i := by
  unfold unsigned? at h
  split at h
  · next hi =>
    cases h
    exact Int.toNat_of_nonneg hi.1
  · cases h

theorem toInt_int64? {i : Int} {w : Int64} (h : int64? i = some w) : w.toInt = i := by
  unfold int64? at h
  split at h
  · next hi =>
    cases h
    have hc : capacity (64 - 1) = 9223372036854775808 := rfl
    simp only [holdsSigned, hc, Bool.and_eq_true, decide_eq_true_eq] at hi
    exact Int64.toInt_ofInt_of_le hi.1 hi.2
  · cases h

end FeatureServing.Word
