import FeatureServing.Yaml
import FeatureServing.Yaml.Scalar

/-!
# Reading YAML documents

`Yaml.read?` reads a text with at most one document. Block collections are told by the columns that
their entries stand at; a node is a key if a colon follows on its line. Anchors, tags, directives,
explicit keys and block scalars are not read.

Every function takes fuel for the depth of its recursion; a text never needs more than four units
per character.
-/

namespace FeatureServing.Yaml

/-- The bytes of the longest key that needs no mark of its own. -/
def keyLimit : Nat := 1024

/-- Whether a colon stands here that makes a key of the node that started at an earlier place. -/
def followsKey (flow : Bool) (start c : Cursor) : Bool :=
  start.fresh && c.line = start.line && c.offset ≤ start.offset + keyLimit &&
    if flow then c.rest.head? = some ':' else c.atIndicator ':'

mutual

/-- Reads a node of a flow collection, or a scalar. -/
def flowNode? : Nat → Bool → Int → Cursor → Option (Yaml × Cursor)
  | 0, _, _, _ => none
  | fuel + 1, flow, indent, c =>
    match c.rest with
    | [] => none
    | ch :: _ =>
      if c.atMark then none
      else if ch = '[' then do
        let (items, c) ← flowItems? fuel indent { c.next with fresh := true }
        some (.list items, { c with fresh := false })
      else if ch = '\x7b' then do
        let (members, c) ← flowMembers? fuel indent { c.next with fresh := true }
        some (.map members, { c with fresh := false })
      else if ch = '\x27' || ch = '\x22' then
        (readQuoted? c).map fun (s, c) => (.quoted s, c)
      else if startsPlain flow c.rest then
        (readPlain? flow (indent + 1) c).map fun (s, c) => (.plain s, c)
      else none

/-- Reads what stands behind the colon of a flow collection. -/
def flowValue? : Nat → Int → Char → Cursor → Option (Yaml × Cursor)
  | 0, _, _, _ => none
  | fuel + 1, indent, close, c =>
    let c := { c with fresh := false }.skip true
    if c.rest.head? = some ',' || c.rest.head? = some close then some (omitted, c)
    else flowNode? fuel true indent c

/-- Reads the items of a flow sequence and its closing bracket. -/
def flowItems? : Nat → Int → Cursor → Option (List Yaml × Cursor)
  | 0, _, _ => none
  | fuel + 1, indent, c =>
    let start := c.skip true
    if start.rest.head? = some ']' then some ([], start.next)
    else do
      let (item, c) ← flowNode? fuel true indent start
      let c := c.skip true
      let (item, c) ←
        if followsKey true start c then do
          let (value, c) ← flowValue? fuel indent ']' c.next
          some (Yaml.map [(item, value)], c)
        else some (item, c)
      let c := c.skip true
      match c.rest with
      | ',' :: _ => do
        let (items, c) ← flowItems? fuel indent { c.next with fresh := true }
        some (item :: items, c)
      | ']' :: _ => some ([item], c.next)
      | _ => none

/-- Reads the members of a flow mapping and its closing brace. -/
def flowMembers? : Nat → Int → Cursor → Option (List (Yaml × Yaml) × Cursor)
  | 0, _, _ => none
  | fuel + 1, indent, c =>
    let start := c.skip true
    if start.rest.head? = some '\x7d' then some ([], start.next)
    else do
      let (key, c) ← flowNode? fuel true indent start
      let c := c.skip true
      let (value, c) ←
        if followsKey true start c then flowValue? fuel indent '\x7d' c.next
        else some (omitted, c)
      let c := c.skip true
      match c.rest with
      | ',' :: _ => do
        let (members, c) ← flowMembers? fuel indent { c.next with fresh := true }
        some ((key, value) :: members, c)
      | '\x7d' :: _ => some ([(key, value)], c.next)
      | _ => none

end

mutual

/-- Reads a node behind the column of the collection that it belongs to; it is left out when
something of that collection follows. In a mapping the entries of a sequence may stand at the
column of the keys. -/
def blockNode? : Nat → Bool → Int → Cursor → Option (Yaml × Cursor)
  | 0, _, _, _ => none
  | fuel + 1, inMapping, indent, c =>
    let start := c.skip false
    if start.atEnd then some (omitted, start)
    else if (start.column : Int) ≤ indent then
      if inMapping && (start.column : Int) = indent && start.atIndicator '-' then do
        let (items, c) ← blockItems? fuel true start.column start
        some (.list items, c)
      else some (omitted, start)
    else if start.atIndicator '-' then
      if start.fresh then do
        let (items, c) ← blockItems? fuel false start.column start
        some (.list items, c)
      else none
    else do
      let (node, c) ← flowNode? fuel false indent start
      let c := c.skip false
      if followsKey false start c then do
        let (value, c) ← blockNode? fuel true start.column { c.next with fresh := false }
        let (members, c) ← blockMembers? fuel start.column c
        some (.map ((node, value) :: members), c)
      else some (node, c)

/-- Reads the entries of a sequence at a column. If it stands at the column of the keys of a
mapping, another key ends it. -/
def blockItems? : Nat → Bool → Nat → Cursor → Option (List Yaml × Cursor)
  | 0, _, _, _ => none
  | fuel + 1, inMapping, column, c => do
    let (item, c) ← blockNode? fuel false column { c.next with fresh := true }
    let c := c.skip false
    if c.atEnd || c.column < column then some ([item], c)
    else if c.column = column && c.atIndicator '-' then
      if c.fresh then do
        let (items, c) ← blockItems? fuel inMapping column c
        some (item :: items, c)
      else none
    else if c.column = column && inMapping then some ([item], c)
    else none

/-- Reads the further members of a mapping whose keys stand at a column. -/
def blockMembers? : Nat → Nat → Cursor → Option (List (Yaml × Yaml) × Cursor)
  | 0, _, _ => none
  | fuel + 1, column, c =>
    let start := c.skip false
    if start.atEnd || start.column < column then some ([], start)
    else if start.column = column && !start.atIndicator '-' then do
      let (key, c) ← flowNode? fuel false column start
      let c := c.skip false
      if followsKey false start c then do
        let (value, c) ← blockNode? fuel true column { c.next with fresh := false }
        let (members, c) ← blockMembers? fuel column c
        some ((key, value) :: members, c)
      else none
    else none

end

/-- Whether nothing but ends of documents follows. -/
def onlyEnds : Nat → Cursor → Bool
  | 0, _ => false
  | fuel + 1, c =>
    let c := c.skip false
    match c.rest with
    | [] => true
    | '.' :: _ => c.atMark && onlyEnds fuel { c.drop 3 with fresh := false }
    | _ => false

/-- Reads the only document of a text. -/
def readDocument? (c : Cursor) : Option Yaml :=
  let fuel := 4 * c.rest.length + 8
  let c := c.skip false
  if c.rest.isEmpty then some .void
  else
    let begun := c.atMark && c.rest.head? = some '-'
    if c.atMark && !begun then none
    else
      let c := if begun then { c.drop 3 with fresh := false } else c
      match blockNode? fuel false (-1) c with
      | some (tree, c) => if onlyEnds fuel c then some tree else none
      | none => none

/-- The tree of a text. -/
def read? (s : String) : Option Yaml :=
  let cs := s.toList
  if cs.all isAllowed then readDocument? { rest := unifyBreaks cs } else none

end FeatureServing.Yaml
