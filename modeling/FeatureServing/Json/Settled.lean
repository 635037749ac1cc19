import FeatureServing.Json.Number

/-!
# JSON values read for good

A tree may hold parts that are only looked at when someone wants them: a text that is no string, a
number beyond all doubles, a name that is repeated. `Json.settle?` looks at everything. It refuses
the first two and nesting beyond `room` levels, keeps the last member of a name and puts the
members in the order of their names.
-/

namespace FeatureServing.Json

/-- The levels of nesting that a whole text may have. -/
def nestingLimit : Nat := 127

mutual

def settle? (room : Nat) : Json → Option Json
  | null => some null
  | bool b => some (bool b)
  | number n => n.number?.map fun _ => number n
  | text t => t.map fun s => text (some s)
  | list items =>
    match room with
    | 0 => none
    | room + 1 => (settleItems? room items).map list
  | object members =>
    match room with
    | 0 => none
    | room + 1 => (settleMembers? room members).map fun ms => record (SortedMap.ofList ms).entries

def settleItems? (room : Nat) : List Json → Option (List Json)
  | [] => some []
  | j :: rest => do
    let j ← settle? room j
    let rest ← settleItems? room rest
    some (j :: rest)

def settleMembers? (room : Nat) : List (Option String × Json) → Option (List (String × Json))
  | [] => some []
  | (none, _) :: _ => none
  | (some name, j) :: rest => do
    let j ← settle? room j
    let rest ← settleMembers? room rest
    some ((name, j) :: rest)

end

end FeatureServing.Json
