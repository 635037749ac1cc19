import FeatureServing.Json

/-!
# Reading JSON texts

`Json.read?` gives the tree of a text in the grammar of RFC 8259 and nothing for any other text.
Texts are read in two steps: `units?` takes the characters and escapes up to the closing quote,
and `join` puts the escapes of surrogate pairs together.
-/

namespace FeatureServing.Json

/-- The white space between tokens. -/
def isSpace (c : Char) : Bool :=
  c = ' ' || c = '\n' || c = '\t' || c = '\r'

def skipSpace (cs : List Char) : List Char :=
  cs.dropWhile isSpace

/-! ## Texts -/

/-- A character of a text, or the 16-bit unit that an escape names. -/
inductive TextUnit
  | plain (c : Char)
  | unit (n : Nat)

/-- The character of a one-letter escape. -/
def shortEscape? (c : Char) : Option Char :=
  if c = '\x22' then some '\x22'
  else if c = '\x5c' then some '\x5c'
  else if c = '/' then some '/'
  else if c = 'b' then some '\x08'
  else if c = 'f' then some '\x0c'
  else if c = 'n' then some '\n'
  else if c = 'r' then some '\r'
  else if c = 't' then some '\t'
  else none

/-- The units of a text up to its closing quote, in reverse, and what follows the quote. -/
def units? (done : List TextUnit) : List Char → Option (List TextUnit × List Char)
  | [] => none
  | c :: rest =>
    if c = '\x22' then some (done, rest)
    else if c = '\x5c' then
      match rest with
      | 'u' :: a :: b :: d :: e :: rest =>
        match Text.hexOf? [a, b, d, e] with
        | some n => units? (.unit n :: done) rest
        | none => none
      | e :: rest =>
        match shortEscape? e with
        | some c => units? (.plain c :: done) rest
        | none => none
      | [] => none
    else if c.toNat < 0x20 then none
    else units? (.plain c :: done) rest

def isHighSurrogate (n : Nat) : Bool :=
  0xd800 ≤ n && n < 0xdc00

def isLowSurrogate (n : Nat) : Bool :=
  0xdc00 ≤ n && n < 0xe000

/-- The characters of units; none when half of a surrogate pair stands alone. -/
def join (done : List Char) : List TextUnit → Option (List Char)
  | [] => some done.reverse
  | .plain c :: rest => join (c :: done) rest
  | .unit h :: rest =>
    if isHighSurrogate h then
      match rest with
      | .unit l :: rest =>
        if isLowSurrogate l then
          join (Char.ofNat (0x10000 + (h - 0xd800) * 0x400 + (l - 0xdc00)) :: done) rest
        else none
      | _ => none
    else if isLowSurrogate h then none
    else join (Char.ofNat h :: done) rest

/-- Reads a text behind its opening quote. -/
def readText? (cs : List Char) : Option (Option String × List Char) :=
  (units? [] cs).map fun (us, rest) => ((join [] us.reverse).map String.ofList, rest)

/-! ## Numbers -/

/-- Takes the digits of a number's whole part: a single zero, or digits that start with none. -/
def readWhole? (cs : List Char) : Option (List Char × List Char) :=
  match cs.takeWhile Text.isDigit with
  | [] => none
  | d :: ds => if d = '0' && !ds.isEmpty then none else some (d :: ds, cs.dropWhile Text.isDigit)

/-- Takes at least one digit. -/
def readDigits? (cs : List Char) : Option (List Char × List Char) :=
  match cs.takeWhile Text.isDigit with
  | [] => none
  | ds => some (ds, cs.dropWhile Text.isDigit)

def readFraction? : List Char → Option (List Char × List Char)
  | '.' :: rest => readDigits? rest
  | cs => some ([], cs)

def readPower? : List Char → Option (Option Int × List Char)
  | [] => some (none, [])
  | c :: rest =>
    if c = 'e' || c = 'E' then
      let (negative, rest) :=
        match rest with
        | '-' :: rest => (true, rest)
        | '+' :: rest => (false, rest)
        | rest => (false, rest)
      (readDigits? rest).map fun (ds, rest) =>
        let n : Int := Text.numberOf ds
        (some (if negative then -n else n), rest)
    else some (none, c :: rest)

def readNumber? (cs : List Char) : Option (Numeral × List Char) := do
  let (negative, cs) :=
    match cs with
    | '-' :: rest => (true, rest)
    | cs => (false, cs)
  let (whole, cs) ← readWhole? cs
  let (fraction, cs) ← readFraction? cs
  let (power, cs) ← readPower? cs
  some (⟨negative, whole, fraction, power⟩, cs)

/-! ## Values -/

/-- Takes a fixed word. -/
def readWord? : List Char → List Char → Option (List Char)
  | [], cs => some cs
  | w :: ws, c :: cs => if c = w then readWord? ws cs else none
  | _ :: _, [] => none

mutual

/-- Reads one value. Every level of nesting takes two units of fuel and a character. -/
def readValue? : Nat → List Char → Option (Json × List Char)
  | 0, _ => none
  | fuel + 1, cs =>
    match skipSpace cs with
    | [] => none
    | c :: rest =>
      if c = '\x22' then (readText? rest).map fun (t, rest) => (.text t, rest)
      else if c = '[' then
        match skipSpace rest with
        | ']' :: rest => some (.list [], rest)
        | rest => (readItems? fuel rest).map fun (items, rest) => (.list items, rest)
      else if c = '\x7b' then
        match skipSpace rest with
        | '\x7d' :: rest => some (.object [], rest)
        | rest => (readMembers? fuel rest).map fun (members, rest) => (.object members, rest)
      else if c = 'n' then (readWord? ['u', 'l', 'l'] rest).map fun rest => (.null, rest)
      else if c = 't' then (readWord? ['r', 'u', 'e'] rest).map fun rest => (.bool true, rest)
      else if c = 'f' then (readWord? ['a', 'l', 's', 'e'] rest).map fun rest => (.bool false, rest)
      else (readNumber? (c :: rest)).map fun (n, rest) => (.number n, rest)

/-- Reads the items of a list up to its closing bracket. -/
def readItems? : Nat → List Char → Option (List Json × List Char)
  | 0, _ => none
  | fuel + 1, cs => do
    let (item, rest) ← readValue? fuel cs
    match skipSpace rest with
    | ',' :: rest => (readItems? fuel rest).map fun (items, rest) => (item :: items, rest)
    | ']' :: rest => some ([item], rest)
    | _ => none

/-- Reads the members of an object up to its closing brace. -/
def readMembers? : Nat → List Char → Option (List (Option String × Json) × List Char)
  | 0, _ => none
  | fuel + 1, cs =>
    match skipSpace cs with
    | '\x22' :: rest => do
      let (name, rest) ← readText? rest
      match skipSpace rest with
      | ':' :: rest =>
        let (value, rest) ← readValue? fuel rest
        match skipSpace rest with
        | ',' :: rest =>
          (readMembers? fuel rest).map fun (members, rest) => ((name, value) :: members, rest)
        | '\x7d' :: rest => some ([(name, value)], rest)
        | _ => none
      | _ => none
    | _ => none

end

/-- The tree of a JSON text. -/
def read? (s : String) : Option Json := do
  let cs := s.toList
  let (j, rest) ← readValue? (2 * cs.length + 2) cs
  if (skipSpace rest).isEmpty then some j else none

end FeatureServing.Json
