import FeatureServing.Json.Node
import FeatureServing.Yaml.Plain
import FeatureServing.Yaml.Reading

/-!
# Reading records from YAML

A `Node` is a tree together with the levels of nesting that are still allowed below it. A record
is a mapping, a list a sequence; the empty plain scalar serves as an empty one of either. Numbers
and booleans are plain scalars, a text is any scalar. Only what is asked for is looked at: a member
that no record knows may be nested to any depth.
-/

namespace FeatureServing.Yaml

/-- The levels of nesting that a whole document may have. -/
def nestingLimit : Nat := 128

/-- Whether a tree holds nothing at all. -/
def isEmptyNode : Yaml → Bool
  | void => true
  | plain s => s.isEmpty
  | _ => false

def text? : Yaml → Option String
  | plain s | quoted s => some s
  | _ => none

mutual

/-- The JSON value of a tree with at most `room` levels of nesting. -/
def json? (room : Nat) : Yaml → Option Json
  | void => some .null
  | plain s => plainJson? s
  | quoted s => some (.ofString s)
  | list items =>
    match room with
    | 0 => none
    | room + 1 => (jsonItems? room items).map .list
  | map members =>
    match room with
    | 0 => none
    | room + 1 => (jsonMembers? room members).map fun ms => .record (SortedMap.ofList ms).entries

def jsonItems? (room : Nat) : List Yaml → Option (List Json)
  | [] => some []
  | t :: rest => do
    let j ← json? room t
    let js ← jsonItems? room rest
    some (j :: js)

def jsonMembers? (room : Nat) : List (Yaml × Yaml) → Option (List (String × Json))
  | [] => some []
  | (key, t) :: rest => do
    let name ← text? key
    let j ← json? room t
    let ms ← jsonMembers? room rest
    some ((name, j) :: ms)

end

/-- A tree and the levels that may be nested in it. -/
structure Node where
  room : Nat
  tree : Yaml

namespace Node

/-- The whole tree of a document. -/
def root (t : Yaml) : Node :=
  ⟨nestingLimit, t⟩

/-- The node of a part of a tree. -/
def below (n : Node) (t : Yaml) : Node :=
  ⟨n.room - 1, t⟩

def present? (n : Node) : Option Node :=
  match n.tree with
  | void => none
  | plain s => if s.isEmpty || isNullWord s then none else some n
  | _ => some n

def flag? (n : Node) : Option Bool :=
  match n.tree with
  | plain s => boolOf? s
  | _ => none

def unsigned? (width : Nat) (n : Node) : Option Nat :=
  match n.tree with
  | plain s => (naturalOf? s).bind fun n => Word.unsigned? width n
  | _ => none

def signed? (n : Node) : Option Int64 :=
  match n.tree with
  | plain s => (integerOf? s).bind Word.int64?
  | _ => none

def items? (n : Node) : Option (List Node) :=
  match n.tree with
  | list items => if n.room = 0 then none else some (items.map n.below)
  | t => if t.isEmptyNode then some [] else none

def members? (n : Node) : Option (List (String × Node)) :=
  match n.tree with
  | map members =>
    if n.room = 0 then none
    else members.mapM fun m => (text? m.1).map fun name => (name, n.below m.2)
  | t => if t.isEmptyNode then some [] else none

instance : Readable Node where
  present? := present?
  flag? := flag?
  unsigned? := unsigned?
  signed? := signed?
  text? n := text? n.tree
  choice? _ n := text? n.tree
  items? := items?
  fields? names n := n.members?.bind (Fields.once? names)
  members? := members?

instance : Json.View Node where
  json? n := json? n.room n.tree

end Node

end FeatureServing.Yaml
