import FeatureServing.Json.Settled
import FeatureServing.Readable

/-!
# Reading records from JSON

A `Node` is a JSON tree together with the levels of nesting that are still allowed below it. Only
what is asked for is looked at: a member that no record knows may hold anything. A record may be
written as an object, no known name twice, or as the list of its fields; a word out of a list may
be written as the only name of an object whose member is null.
-/

namespace FeatureServing.Json

/-- A tree and the levels that may be nested in it. -/
structure Node where
  room : Nat
  tree : Json

namespace Node

/-- The whole tree of a text. -/
def root (j : Json) : Node :=
  ⟨nestingLimit, j⟩

def present? (n : Node) : Option Node :=
  if n.tree.isNull then none else some n

def flag? (n : Node) : Option Bool :=
  match n.tree with
  | bool b => some b
  | _ => none

def number? (n : Node) : Option Numeral.Number :=
  match n.tree with
  | number m => m.number?
  | _ => none

def unsigned? (width : Nat) (n : Node) : Option Nat :=
  match n.number? with
  | some (.unsigned m) => Word.unsigned? width m
  | _ => none

def signed? (n : Node) : Option Int64 :=
  match n.number? with
  | some (.unsigned m) => Word.int64? m
  | some (.negative i) => Word.int64? i
  | _ => none

def text? (n : Node) : Option String :=
  match n.tree with
  | text t => t
  | _ => none

def choice? (n : Node) : Option String :=
  match n.tree with
  | text t => t
  | object [(name, null)] => name
  | _ => none

/-- The node of a part of a tree. -/
def below (n : Node) (j : Json) : Node :=
  ⟨n.room - 1, j⟩

def items? (n : Node) : Option (List Node) :=
  match n.tree with
  | list items => if n.room = 0 then none else some (items.map n.below)
  | _ => none

def members? (n : Node) : Option (List (String × Node)) :=
  match n.tree with
  | object members =>
    if n.room = 0 then none else members.mapM fun m => m.1.map fun name => (name, n.below m.2)
  | _ => none

def fields? (names : List String) (n : Node) : Option (Fields Node) :=
  match n.items? with
  | some items => if items.length ≤ names.length then some (Fields.positional names items) else none
  | none => n.members?.bind (Fields.once? names)

instance : Readable Node where
  present? := present?
  flag? := flag?
  unsigned? := unsigned?
  signed? := signed?
  text? := text?
  choice? _ := choice?
  items? := items?
  fields? := fields?
  members? := members?

end Node

/-- Trees that can be taken as they are, as JSON read for good. -/
class View (τ : Type) where
  json? : τ → Option Json

instance : View Node where
  json? n := n.tree.settle? n.room

end FeatureServing.Json
