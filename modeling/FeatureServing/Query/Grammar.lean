import FeatureServing.Query.Token

/-!
# The lexical grammar of a query

What the characters of a query are, said without a scan: a query is a sequence of elements, and
`Reads cs es` says that the characters `cs` are the elements `es`. `Begins` is the grammar of one
element.

* A code character is none that opens something else, so two dashes are never code.
* A literal ends at the first quote of its kind that is neither escaped nor doubled.
* A line comment ends at the first line end, a block comment at the first star and slash behind
  its opening.
* A literal or a comment may be open: it then takes all that is left.
-/

namespace FeatureServing.Query

/-- A lexical element of a query. -/
inductive Element
  | code (c : Char)
  | placeholder
  | literal (quote : Char) (inside : List Char)
  | lineComment (inside : List Char)
  | blockComment (inside : List Char)
  | openLiteral (quote : Char) (inside : List Char)
  | openLineComment (inside : List Char)
  | openBlockComment (inside : List Char)
deriving DecidableEq

/-- The quotes that open a literal. -/
def quotes : List Char :=
  ['\x27', '\x22', '\x60']

/-- The quotes of literals with escapes. -/
def escapingQuotes : List Char :=
  ['\x27', '\x22']

namespace Element

/-- The characters of an element. -/
def spelling : Element → List Char
  | code c => [c]
  | placeholder => ['?']
  | literal q inside => q :: inside ++ [q]
  | lineComment inside => '-' :: '-' :: inside ++ ['\n']
  | blockComment inside => '/' :: '*' :: inside ++ ['*', '/']
  | openLiteral q inside => q :: inside
  | openLineComment inside => '-' :: '-' :: inside
  | openBlockComment inside => '/' :: '*' :: inside

/-- The characters of an element, a placeholder as `none`. -/
def marks : Element → List (Option Char)
  | placeholder => [none]
  | e => e.spelling.map some

end Element

/-- Whether characters can stand between quotes without ending the literal: escapes, doubled
quotes and characters that are neither. -/
inductive Inside (q : Char) : List Char → Prop
  | nil : Inside q []
  | escaped {c : Char} {cs : List Char} (hq : q ∈ escapingQuotes) (hcs : Inside q cs) :
    Inside q ('\x5c' :: c :: cs)
  | doubled {cs : List Char} (hcs : Inside q cs) : Inside q (q :: q :: cs)
  | plain {c : Char} {cs : List Char} (hquote : c ≠ q) (hplain : c = '\x5c' → q ∉ escapingQuotes)
    (hcs : Inside q cs) : Inside q (c :: cs)

/-- Whether characters can stand behind a quote that nothing closes; the last one may be a
backslash that has nothing to escape. -/
inductive Unclosed (q : Char) : List Char → Prop
  | inside {cs : List Char} (hcs : Inside q cs) : Unclosed q cs
  | escaping {cs : List Char} (hq : q ∈ escapingQuotes) (hcs : Inside q cs) :
    Unclosed q (cs ++ ['\x5c'])

/-- `Begins cs e rest` : the characters `cs` begin with the element `e`, with `rest` behind it. -/
inductive Begins : List Char → Element → List Char → Prop
  | placeholder (rest : List Char) : Begins ('?' :: rest) .placeholder rest
  | code {c : Char} {rest : List Char} (hmark : c ≠ '?') (hquote : c ∉ quotes)
    (hline : c = '-' → rest.head? ≠ some '-') (hblock : c = '/' → rest.head? ≠ some '*') :
    Begins (c :: rest) (.code c) rest
  | literal {q : Char} {inside rest : List Char} (hq : q ∈ quotes) (hinside : Inside q inside)
    (hend : rest.head? ≠ some q) : Begins (q :: (inside ++ q :: rest)) (.literal q inside) rest
  | lineComment {inside : List Char} (rest : List Char) (hinside : '\n' ∉ inside) :
    Begins ('-' :: '-' :: (inside ++ '\n' :: rest)) (.lineComment inside) rest
  | blockComment {inside : List Char} (rest : List Char) (hinside : ¬ ['*', '/'] <:+: inside) :
    Begins ('/' :: '*' :: (inside ++ '*' :: '/' :: rest)) (.blockComment inside) rest
  | openLiteral {q : Char} {inside : List Char} (hq : q ∈ quotes) (hinside : Unclosed q inside) :
    Begins (q :: inside) (.openLiteral q inside) []
  | openLineComment {inside : List Char} (hinside : '\n' ∉ inside) :
    Begins ('-' :: '-' :: inside) (.openLineComment inside) []
  | openBlockComment {inside : List Char} (hinside : ¬ ['*', '/'] <:+: inside) :
    Begins ('/' :: '*' :: inside) (.openBlockComment inside) []

/-- `Reads cs es` : the characters `cs` are the elements `es`, from left to right. -/
inductive Reads : List Char → List Element → Prop
  | nil : Reads [] []
  | cons {cs rest : List Char} {e : Element} {es : List Element} (he : Begins cs e rest)
    (hes : Reads rest es) : Reads cs (e :: es)

end FeatureServing.Query

namespace FeatureServing.Token

/-- The characters a token stands for. -/
def source : Token → String
  | text s => s
  | placeholder => "?"

/-- The characters of a token, a placeholder as `none`. -/
def marks : Token → List (Option Char)
  | text s => s.toList.map some
  | placeholder => [none]

end FeatureServing.Token
