import FeatureServing.Json.Number
import FeatureServing.Settings.KeyPath
import FeatureServing.SortedMap
import FeatureServing.Text.Float

/-!
# Settings

A `Setting` is a value out of a configuration file or an environment variable. Sources are laid
over one another: `Setting.put` writes a value under a name, a table into what is there, and
`Setting.putPath` does so at a path. Names of tables are in lower case; a list is taken as it is,
with all that it holds.
-/

namespace FeatureServing

inductive Setting
  | nil
  | bool (b : Bool)
  | int (i : Int64)
  | float (x : Binary64)
  | text (s : String)
  | list (items : List Setting)
  /-- The members in the order of their names, each name once. -/
  | table (members : List (String × Setting))

namespace Setting

instance : Inhabited Setting := ⟨nil⟩

/-- The members of a table; anything else has none. -/
def members : Setting → List (String × Setting)
  | table ms => ms
  | _ => []

/-- The items of a list; anything else has none. -/
def items : Setting → List Setting
  | list items => items
  | _ => []

/-- The setting under a name. -/
def member? (s : Setting) (name : String) : Option Setting :=
  SortedMap.find name s.members

/-- The table with a value under a name; what is no table is replaced by one. -/
def setMember (s : Setting) (name : String) (v : Setting) : Setting :=
  table (SortedMap.put name v s.members)

/-- The place in a list of a length that an index stands for. -/
def placeOf? (length : Nat) (index : Int) : Option Nat :=
  if 0 ≤ index then some index.toNat
  else if index.natAbs ≤ length then some (length - index.natAbs)
  else none

/-- The item of a list at an index. -/
def item? (s : Setting) (index : Int) : Option Setting :=
  (placeOf? s.items.length index).bind fun n => s.items[n]?

/-- The list with a value at an index, filled up with nothing as far as needed; what is no list is
replaced by one. An index in front of the list stands for no place. -/
def setItem (s : Setting) (index : Int) (v : Setting) : Setting :=
  match placeOf? s.items.length index with
  | some n => list ((s.items ++ List.replicate (n + 1 - s.items.length) nil).set n v)
  | none => list s.items

mutual

/-- Writes a value under a name. A table is written member by member into what is there. -/
def put (root : Setting) (name : String) : Setting → Setting
  | table incoming =>
    root.setMember name (putAll ((root.member? name).getD (table [])) incoming)
  | v => root.setMember name v

def putAll (root : Setting) : List (String × Setting) → Setting
  | [] => root
  | (name, v) :: rest => putAll (put root (Text.lowercase name) v) rest

end

/-- Writes a value at a path, making tables and lists on the way. -/
def putPath (root v : Setting) : KeyPath → Setting
  | [] => v
  | [.member name] => root.put name v
  | .member name :: steps =>
    root.setMember name (putPath ((root.member? name).getD nil) v steps)
  | .item index :: steps =>
    root.setItem index (putPath ((root.item? index).getD nil) v steps)

/-- Writes every member of a source over the present settings. -/
def overlay (root : Setting) (source : List (String × Setting)) : Setting :=
  source.foldl (fun s m => s.putPath m.2 (.ofKey m.1)) root

/-! ## Sources -/

/-- The setting of a number. -/
def ofNumber : Numeral.Number → Setting
  | .unsigned n => ((Word.int64? n).map int).getD (float (.ofNat n))
  | .negative i => int (Int64.ofInt i)
  | .float x => float x

mutual

/-- The setting of a JSON value read for good. -/
def ofJson : Json → Setting
  | .null => nil
  | .bool b => bool b
  | .number n => (n.number?.map ofNumber).getD nil
  | .text t => text (t.getD "")
  | .list items => list (ofItems items)
  | .object ms => table (ofMembers ms)

def ofItems : List Json → List Setting
  | [] => []
  | j :: rest => ofJson j :: ofItems rest

def ofMembers : List (Option String × Json) → List (String × Setting)
  | [] => []
  | (name, j) :: rest => (name.getD "", ofJson j) :: ofMembers rest

end

/-- The integer of 64 bits that a text spells, with an optional sign. -/
def int64Of? (s : String) : Option Int64 :=
  let (negative, digits) := Text.takeSign s.toList
  match Text.numberIn? 10 digits with
  | some n =>
    let i : Int := if negative then -(n : Int) else n
    Word.int64? i
  | none => none

/-- The setting of an environment variable: a boolean in any case, an integer, a float or a
text. -/
def ofVariable (value : String) : Setting :=
  match value.toLower with
  | "true" => bool true
  | "false" => bool false
  | _ =>
    match int64Of? value with
    | some i => int i
    | none =>
      match Text.readFloat? value.toList with
      | some x => float x
      | none => text value

end Setting

end FeatureServing
