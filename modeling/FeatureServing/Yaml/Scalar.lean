import FeatureServing.Text.Digits
import FeatureServing.Yaml.Cursor

/-!
# YAML scalars

`readPlain?` and `readQuoted?` read one scalar. White space inside a scalar stands for itself on a
line; a line break is folded: one break is a space, of several all but the first stay.
-/

namespace FeatureServing.Yaml

/-! ## White space inside scalars -/

/-- White space inside a scalar: what stands in front of the first break, and the breaks. -/
structure Gap where
  blanks : List Char := []
  breaks : List Char := []
  /-- The characters of the gap. -/
  length : Nat := 0

namespace Gap

/-- The text that a gap stands for. -/
def text (g : Gap) : List Char :=
  match g.breaks with
  | [] => g.blanks
  | ['\n'] => [' ']
  | '\n' :: rest => rest
  | breaks => breaks

end Gap

/-- The gap at the start of a text. -/
def gap : List Char → Gap
  | [] => {}
  | c :: rest =>
    if isBlank c then
      let g := gap rest
      { g with blanks := c :: g.blanks, length := g.length + 1 }
    else if isBreak c then
      let g := gap rest
      { blanks := [], breaks := c :: g.breaks, length := g.length + 1 }
    else {}

/-- Whether a tab stands behind a break and in front of a column. -/
def tabIndents (indent : Int) : Bool → Nat → List Char → Bool
  | _, _, [] => false
  | broken, column, c :: rest =>
    if isBreak c then tabIndents indent true 0 rest
    else if isBlank c then
      (broken && c = '\t' && (column : Int) < indent) || tabIndents indent broken (column + 1) rest
    else false

/-! ## Plain scalars -/

def isFlowMark (c : Char) : Bool :=
  c = ',' || c = '[' || c = ']' || c = '\x7b' || c = '\x7d'

/-- The characters of a plain scalar up to white space, or to what ends it; none for a colon that
stands in front of a mark of a flow collection. -/
def plainRun? (flow : Bool) : List Char → Option (List Char)
  | [] => some []
  | c :: rest =>
    if isBlank c || isBreak c then some []
    else if flow && c = ':' && (rest.take 1).any (fun d => isFlowMark d || d = '?') then none
    else if (c = ':' && endsWord rest) || (flow && isFlowMark c) then some []
    else (plainRun? flow rest).map (c :: ·)

/-- Characters that a plain scalar cannot start with. -/
def reservedMarks : List Char :=
  ['#', '&', '*', '!', '|', '>', '\x27', '\x22', '%', '@', '\x60']

/-- Whether a plain scalar can start here. -/
def startsPlain (flow : Bool) : List Char → Bool
  | [] => false
  | c :: rest =>
    if c = '-' then !endsWord rest
    else if c = '?' || c = ':' then !flow && !endsWord rest
    else !isBlank c && !isBreak c && !isFlowMark c && !reservedMarks.contains c

/-- The rest of a plain scalar behind one of its words. -/
def plainTail? : Nat → Bool → Int → Cursor → Option (List Char × Cursor)
  | 0, _, _, _ => none
  | fuel + 1, flow, indent, c =>
    let g := gap c.rest
    let broken := !g.breaks.isEmpty
    if tabIndents indent false c.column c.rest then none
    else
      let after := { c.drop g.length with fresh := broken }
      if g.length = 0 || (!flow && (after.column : Int) < indent) || after.atMark ||
          after.rest.head? = some '#' then some ([], after)
      else do
        let run ← plainRun? flow after.rest
        if run.isEmpty then some ([], after)
        else do
          let (tail, last) ← plainTail? fuel flow indent (after.drop run.length)
          some (g.text ++ run ++ tail, last)

/-- Reads a plain scalar; all lines but the first stand at a column or behind it. -/
def readPlain? (flow : Bool) (indent : Int) (c : Cursor) : Option (String × Cursor) := do
  let run ← plainRun? flow c.rest
  let (tail, last) ← plainTail? (c.rest.length + 1) flow indent (c.drop run.length)
  some (String.ofList (run ++ tail), last)

/-! ## Quoted scalars -/

/-- The character of an escape that is a single letter. -/
def letterEscape? (c : Char) : Option Char :=
  if c = '0' then some '\x00'
  else if c = 'a' then some '\x07'
  else if c = 'b' then some '\x08'
  else if c = 't' || c = '\t' then some '\t'
  else if c = 'n' then some '\n'
  else if c = 'v' then some '\x0b'
  else if c = 'f' then some '\x0c'
  else if c = 'r' then some '\r'
  else if c = 'e' then some '\x1b'
  else if c = ' ' || c = '\x22' || c = '/' || c = '\x5c' then some c
  else if c = 'N' then some '\x85'
  else if c = '_' then some '\xa0'
  else if c = 'L' then some '\u2028'
  else if c = 'P' then some '\u2029'
  else none

/-- The number of hexadecimal digits behind the letter of an escape. -/
def escapeWidth? (c : Char) : Option Nat :=
  if c = 'x' then some 2 else if c = 'u' then some 4 else if c = 'U' then some 8 else none

/-- The character of an escape behind its backslash, and its length. -/
def escape? : List Char → Option (Char × Nat)
  | [] => none
  | c :: rest =>
    match letterEscape? c with
    | some e => some (e, 1)
    | none => do
      let width ← escapeWidth? c
      let digits := rest.take width
      if digits.length < width then none
      else do
        let n ← Text.hexOf? digits
        if (0xd800 ≤ n && n < 0xe000) || 0x10ffff < n then none
        else some (Char.ofNat n, width + 1)

/-- How a run of characters of a quoted scalar ends. -/
inductive RunEnd
  | quote
  | gap
  /-- A break behind a backslash, which is dropped. -/
  | escapedBreak

/-- The characters of a quoted scalar up to white space or its closing quote, their length in the
text, and how they end; none for a bad escape. -/
def quotedRun? (double : Bool) : Nat → List Char → Option (List Char × Nat × RunEnd)
  | 0, _ => none
  | _ + 1, [] => some ([], 0, .gap)
  | fuel + 1, c :: rest =>
    if isBlank c || isBreak c then some ([], 0, .gap)
    else if !double && c = '\x27' then
      match rest with
      | '\x27' :: rest =>
        (quotedRun? double fuel rest).map fun (cs, n, e) => ('\x27' :: cs, n + 2, e)
      | _ => some ([], 0, .quote)
    else if double && c = '\x22' then some ([], 0, .quote)
    else if double && c = '\x5c' then
      if (rest.take 1).any isBreak then some ([], 2, .escapedBreak)
      else do
        let (e, n) ← escape? rest
        let (cs, m, ending) ← quotedRun? double fuel (rest.drop n)
        some (e :: cs, m + n + 1, ending)
    else (quotedRun? double fuel rest).map fun (cs, n, e) => (c :: cs, n + 1, e)

/-- The rest of a quoted scalar. -/
def quotedTail? (double : Bool) : Nat → Cursor → Option (List Char × Cursor)
  | 0, _ => none
  | fuel + 1, c =>
    if c.atMark then none
    else do
      let (run, n, ending) ← quotedRun? double (c.rest.length + 1) c.rest
      let after := c.drop n
      match ending with
      | .quote => some (run, { after.next with fresh := false })
      | .gap =>
        if after.rest.isEmpty then none
        else do
          let g := gap after.rest
          let (tail, last) ← quotedTail? double fuel (after.drop g.length)
          some (run ++ g.text ++ tail, last)
      | .escapedBreak => do
        let g := gap after.rest
        let (tail, last) ← quotedTail? double fuel (after.drop g.length)
        some (run ++ g.breaks ++ tail, last)

/-- Reads a quoted scalar at its opening quote. -/
def readQuoted? (c : Cursor) : Option (String × Cursor) :=
  let double := c.rest.head? = some '\x22'
  (quotedTail? double (c.rest.length + 1) c.next).map fun (cs, last) => (String.ofList cs, last)

end FeatureServing.Yaml
