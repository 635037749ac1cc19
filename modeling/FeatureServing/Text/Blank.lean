/-!
# White space

`isBlank` : the characters with the property White_Space. `trim` takes them off both ends of a
text; `isBlankText` holds of a text that has nothing else.
-/

namespace FeatureServing.Text

/-- Inclusive ranges of the code points with the property White_Space. -/
def blankRanges : List (Nat × Nat) :=
  [(0x09, 0x0d), (0x20, 0x20), (0x85, 0x85), (0xa0, 0xa0), (0x1680, 0x1680), (0x2000, 0x200a),
   (0x2028, 0x2029), (0x202f, 0x202f), (0x205f, 0x205f), (0x3000, 0x3000)]

def isBlank (c : Char) : Bool :=
  blankRanges.any fun r => r.1 ≤ c.toNat && c.toNat ≤ r.2

def trimStart (cs : List Char) : List Char :=
  cs.dropWhile isBlank

def trimEnd (cs : List Char) : List Char :=
  (cs.reverse.dropWhile isBlank).reverse

/-- A text without the white space at its ends. -/
def trim (s : String) : String :=
  String.ofList (trimEnd (trimStart s.toList))

def isBlankText (s : String) : Bool :=
  s.toList.all isBlank

/-- A character that is no white space ends a trim at the start. -/
theorem trimStart_cons {c : Char} (h : isBlank c = false) (cs : List Char) :
    trimStart (c :: cs) = c :: cs := by
  simp [trimStart, h]

end FeatureServing.Text
