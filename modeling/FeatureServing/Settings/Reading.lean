import FeatureServing.Readable
import FeatureServing.Settings
import FeatureServing.Value.KeyText

/-!
# Reading records from settings

A setting is turned into what is asked for as far as it makes sense: words like `on` and `no` are
booleans, a float is rounded to a number, numbers are written out where a text is wanted. A record
may be the list of its fields.
-/

namespace FeatureServing.Setting

def present? : Setting → Option Setting
  | nil => none
  | s => some s

def flag? : Setting → Option Bool
  | bool b => some b
  | int i => some (i != 0)
  | float x => some (!x.isZero)
  | text s =>
    match s.toLower with
    | "1" | "true" | "on" | "yes" => some true
    | "0" | "false" | "off" | "no" => some false
    | _ => none
  | _ => none

/-- The natural number that a text spells, with an optional plus in front. -/
def naturalOf? (s : String) : Option Nat :=
  let digits := match s.toList with
    | '+' :: rest => rest
    | cs => cs
  (Text.numberIn? 10 digits).bind fun n => Word.unsigned? 64 n

/-- A natural number of 64 bits. -/
def natural? : Setting → Option Nat
  | bool b => some b.toNat
  | int i => Word.unsigned? 64 i.toInt
  | float x => some (x.roundClamped (Word.capacity 64 - 1))
  | text s =>
    match s.toLower with
    | "true" | "on" | "yes" => some 1
    | "false" | "off" | "no" => some 0
    | _ => naturalOf? s
  | _ => none

def unsigned? (width : Nat) (s : Setting) : Option Nat :=
  s.natural?.bind fun n => Word.unsigned? width n

def signed? : Setting → Option Int64
  | int i => some i
  | bool b => some (if b then 1 else 0)
  | text s => int64Of? s
  | _ => none

def text? : Setting → Option String
  | text s => some s
  | bool b => some (if b then "true" else "false")
  | int i => some (Text.signed i.toInt)
  | float x => some (Value.writeFloat x)
  | _ => none

/-- The word of a list that a text is in some case, or the only name of a table. -/
def choice? (words : List String) : Setting → Option String
  | text s => words.find? fun w => w.toLower = s.toLower
  | table [(name, _)] => words.find? fun w => w.toLower = name.toLower
  | _ => none

def items? : Setting → Option (List Setting)
  | list items => some items
  | _ => none

def members? : Setting → Option (List (String × Setting))
  | table ms => some ms
  | _ => none

def fields? (names : List String) : Setting → Option (Fields Setting)
  | table ms => Fields.once? names ms
  | list items => some (Fields.positional names items)
  | _ => none

instance : Readable Setting where
  present? := present?
  flag? := flag?
  unsigned? := unsigned?
  signed? := signed?
  text? := text?
  choice? := choice?
  items? := items?
  fields? := fields?
  members? := members?

end FeatureServing.Setting
