import FeatureServing.SortedMap

/-!
# Trees that records are read from

The same record can stand in a JSON text, in a YAML document and in a table of settings.
`Readable τ` says what a tree of type `τ` offers to someone who expects a certain shape; what does
not have that shape is refused (`none`). Records are put together from their fields:

* `Fields.required` : the field has to be there;
* `Fields.defaulted` : a field that is missing has a default, one that is there must be right;
* `Fields.optional` : a field that is missing or says that there is nothing is absent.
-/

namespace FeatureServing

/-- The fields of a record that were found, by name. -/
abbrev Fields (τ : Type) := List (String × τ)

class Readable (τ : Type) where
  /-- The tree, unless it says that there is nothing. -/
  present? : τ → Option τ
  flag? : τ → Option Bool
  /-- A natural number of so many bits. -/
  unsigned? : Nat → τ → Option Nat
  signed? : τ → Option Int64
  text? : τ → Option String
  /-- A word that may be one of a list; any other word is given as it stands. -/
  choice? : List String → τ → Option String
  items? : τ → Option (List τ)
  /-- The fields of a record that are in a list of names, each name at most once. -/
  fields? : List String → τ → Option (Fields τ)
  /-- The members of a dictionary in the order they stand in. -/
  members? : τ → Option (List (String × τ))

namespace Readable

variable {τ : Type} [Readable τ] {α : Type}

def uint64? (t : τ) : Option UInt64 :=
  (unsigned? 64 t).map UInt64.ofNat

def uint32? (t : τ) : Option UInt32 :=
  (unsigned? 32 t).map UInt32.ofNat

def list? (read : τ → Option α) (t : τ) : Option (List α) :=
  (items? t).bind fun ts => ts.mapM read

/-- A dictionary with one kind of values; the last one of a name wins. -/
def dictionary? (read : τ → Option α) (t : τ) : Option (SortedMap String α) := do
  let members ← members? t
  let entries ← members.mapM fun m => (read m.2).map fun a => (m.1, a)
  some (SortedMap.ofList entries)

end Readable

namespace Fields

variable {τ α : Type}

def required (fs : Fields τ) (name : String) (read : τ → Option α) : Option α :=
  (fs.lookup name).bind read

def defaulted (fs : Fields τ) (name : String) (default : α) (read : τ → Option α) : Option α :=
  match fs.lookup name with
  | none => some default
  | some t => read t

def optional [Readable τ] (fs : Fields τ) (name : String) (read : τ → Option α) :
    Option (Option α) :=
  match (fs.lookup name).bind Readable.present? with
  | none => some none
  | some t => (read t).map some

/-- The members with known names, none when one of these names stands there twice. -/
def once? (names : List String) : List (String × τ) → Option (Fields τ)
  | [] => some []
  | m :: rest => do
    let fs ← once? names rest
    if !names.contains m.1 then some fs
    else if (fs.lookup m.1).isSome then none
    else some (m :: fs)

/-- The fields of a record that is written as a list, in the order of their names. -/
def positional (names : List String) (items : List τ) : Fields τ :=
  names.zip items

end Fields

end FeatureServing
