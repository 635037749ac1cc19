import FeatureServing.Text.CaseRanges

/-!
# Lower case

`lowercase s` writes a text in lower case. All characters have a lower case that is independent of
their place but one: a capital sigma becomes the final letter if it stands behind a cased letter and
in front of none.
-/

namespace FeatureServing.Text

def isCased (c : Char) : Bool :=
  inRanges c.toNat cased

def isCaseIgnorable (c : Char) : Bool :=
  inRanges c.toNat caseIgnorable

/-- The lower case of a character by itself. -/
def lowercaseChar (c : Char) : List Char :=
  if c.toNat < 0x80 then [c.toLower]
  else if c = '\u0130' then ['i', '\u0307']
  else
    let n := c.toNat
    match lowerRuns.find? fun r => r.first ≤ n && n ≤ r.last && (n - r.first) % r.step = 0 with
    | some r => [Char.ofNat ((n : Int) + r.shift).toNat]
    | none => [c]

/-- Whether the first character that counts for case is a cased letter. -/
def meetsCased (cs : List Char) : Bool :=
  match cs.dropWhile isCaseIgnorable with
  | c :: _ => isCased c
  | [] => false

/-- The lower case of a text behind the characters `before`, which are in reverse order. -/
def lowercaseAfter (before : List Char) : List Char → List Char
  | [] => []
  | c :: rest =>
    let lower :=
      if c = '\u03a3' then
        if meetsCased before && !meetsCased rest then ['\u03c2'] else ['\u03c3']
      else lowercaseChar c
    lower ++ lowercaseAfter (c :: before) rest

def lowercase (s : String) : String :=
  String.ofList (lowercaseAfter [] s.toList)

end FeatureServing.Text
