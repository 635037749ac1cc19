/-!
# Placeholders of a query

A question mark in a query is a placeholder unless it stands in a quoted piece or in a comment.
`marks` goes through the characters once and says of each whether it is a placeholder (`none`) or
text; `tokens` puts the text between two placeholders together.

* A quoted piece ends at its quote; a doubled quote stays inside. In single and double quotes a
  backslash takes the next character with it.
* A comment runs from `--` to the end of the line, or from a slash and a star to a star and a slash.
-/

namespace FeatureServing

/-- A part of a query. -/
inductive Token
  | text (s : String)
  | placeholder
deriving DecidableEq

namespace Query

/-- What a character of a query stands in. -/
inductive Mode
  | code
  | quoted (quote : Char)
  | lineComment
  | blockComment
deriving DecidableEq

/-- Whether a character opens a quoted piece. -/
def isQuote (c : Char) : Bool :=
  c = '\x27' || c = '\x22' || c = '\x60'

/-- Whether a backslash takes the next character with it between such quotes. -/
def escapes (quote : Char) : Bool :=
  quote != '\x60'

/-- Every character of a query that starts in some mode, placeholders as `none`. -/
def marks : Mode → List Char → List (Option Char)
  | _, [] => []
  | .code, '?' :: rest => none :: marks .code rest
  | .code, '-' :: '-' :: rest => some '-' :: some '-' :: marks .lineComment rest
  | .code, '/' :: '*' :: rest => some '/' :: some '*' :: marks .blockComment rest
  | .code, c :: rest => some c :: marks (if isQuote c then .quoted c else .code) rest
  | .quoted _, [c] => [some c]
  | .quoted q, c :: d :: rest =>
    if c = '\x5c' && escapes q then some c :: some d :: marks (.quoted q) rest
    else if c = q then
      if d = q then some c :: some d :: marks (.quoted q) rest
      else some c :: marks .code (d :: rest)
    else some c :: marks (.quoted q) (d :: rest)
  | .lineComment, c :: rest => some c :: marks (if c = '\n' then .code else .lineComment) rest
  | .blockComment, '*' :: '/' :: rest => some '*' :: some '/' :: marks .code rest
  | .blockComment, c :: rest => some c :: marks .blockComment rest

/-- Puts characters without a placeholder between them together. -/
def runs : List (Option Char) → List (Option (List Char))
  | [] => []
  | none :: rest => none :: runs rest
  | some c :: rest =>
    match runs rest with
    | some cs :: more => some (c :: cs) :: more
    | more => some [c] :: more

/-- The token of a run of characters, or of a placeholder. -/
def tokenOf : Option (List Char) → Token
  | some cs => .text (String.ofList cs)
  | none => .placeholder

/-- A query as text and placeholders, from left to right. -/
def tokens (query : String) : List Token :=
  (runs (marks .code query.toList)).map tokenOf

/-- The number of placeholders. -/
def placeholders (query : String) : Nat :=
  (tokens query).count .placeholder

end Query

end FeatureServing
