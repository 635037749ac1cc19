import FeatureServing.Json

/-!
# Writing JSON texts

`escape` writes a character of a text: the quote, the backslash and the controls below U+0020 have
an escape, all else stands for itself. `ascii` spells the characters beyond ASCII by their 16-bit
units as well, and `Json.write` writes a whole tree that way, without white space.
-/

namespace FeatureServing.Json

/-- The escape of a 16-bit unit. -/
def escapeUnit (n : Nat) : List Char :=
  '\x5c' :: 'u' :: Text.hexPadded 4 n

/-- A character inside a text. -/
def escape (c : Char) : List Char :=
  if c = '\x22' then ['\x5c', '\x22']
  else if c = '\x5c' then ['\x5c', '\x5c']
  else if c = '\x08' then ['\x5c', 'b']
  else if c = '\x0c' then ['\x5c', 'f']
  else if c = '\n' then ['\x5c', 'n']
  else if c = '\r' then ['\x5c', 'r']
  else if c = '\t' then ['\x5c', 't']
  else if c.toNat < 0x20 then escapeUnit c.toNat
  else [c]

/-- A text between quotes. -/
def writeText (s : String) : List Char :=
  '\x22' :: (s.toList.flatMap escape ++ ['\x22'])

/-- A character inside a text of ASCII characters only. -/
def ascii (c : Char) : List Char :=
  if c.toNat < 0x7f then escape c
  else if c.toNat < 0x10000 then escapeUnit c.toNat
  else
    let n := c.toNat - 0x10000
    escapeUnit (0xd800 + n / 0x400) ++ escapeUnit (0xdc00 + n % 0x400)

def writeAscii (s : String) : List Char :=
  '\x22' :: (s.toList.flatMap ascii ++ ['\x22'])

def writeNumber (n : Numeral) : List Char :=
  (if n.negative then ['-'] else []) ++ n.whole ++
    (if n.fraction.isEmpty then [] else '.' :: n.fraction) ++
    match n.power with
    | none => []
    | some p => 'e' :: (Text.signed p).toList

mutual

/-- The text of a tree, in ASCII and without white space. A text that is no string is null. -/
def write : Json → List Char
  | null => ['n', 'u', 'l', 'l']
  | bool true => ['t', 'r', 'u', 'e']
  | bool false => ['f', 'a', 'l', 's', 'e']
  | number n => writeNumber n
  | text (some s) => writeAscii s
  | text none => ['n', 'u', 'l', 'l']
  | list [] => ['[', ']']
  | list (j :: rest) => '[' :: (write j ++ writeItems rest)
  | object [] => ['\x7b', '\x7d']
  | object ((name, j) :: rest) =>
    '\x7b' :: (writeAscii (name.getD "") ++ ':' :: (write j ++ writeMembers rest))

/-- The items behind the first one, and the closing bracket. -/
def writeItems : List Json → List Char
  | [] => [']']
  | j :: rest => ',' :: (write j ++ writeItems rest)

/-- The members behind the first one, and the closing brace. -/
def writeMembers : List (Option String × Json) → List Char
  | [] => ['\x7d']
  | (name, j) :: rest =>
    ',' :: (writeAscii (name.getD "") ++ ':' :: (write j ++ writeMembers rest))

end

end FeatureServing.Json
