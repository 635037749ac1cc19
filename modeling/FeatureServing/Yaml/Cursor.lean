/-!
# Places in a YAML text

A `Cursor` is a place in a text with its line and column. `Cursor.skip` goes to the next character
that is neither white space nor in a comment. A byte order mark where a line begins is skipped as
well, but it takes a column: what follows it does not stand at the start of the line.

In block context a key may stand only where a line or a sequence entry begins (`Cursor.fresh`), and
a tab may not stand there.
-/

namespace FeatureServing.Yaml

def isBreak (c : Char) : Bool :=
  c = '\n' || c = '\u2028' || c = '\u2029'

def isBlank (c : Char) : Bool :=
  c = ' ' || c = '\t'

/-- Every line end as a line feed; the two separators of paragraphs and lines stay. -/
def unifyBreaks : List Char → List Char
  | '\r' :: '\n' :: rest => '\n' :: unifyBreaks rest
  | c :: rest => (if c = '\r' || c = '\x85' then '\n' else c) :: unifyBreaks rest
  | [] => []

/-- The characters that a YAML text may have. -/
def isAllowed (c : Char) : Bool :=
  let n := c.toNat
  n = 0x09 || n = 0x0a || n = 0x0d || (0x20 ≤ n && n ≤ 0x7e) || n = 0x85 ||
    (0xa0 ≤ n && n ≤ 0xfffd) || 0x10000 ≤ n

structure Cursor where
  rest : List Char
  line : Nat := 0
  column : Nat := 0
  /-- The bytes in front of the place. -/
  offset : Nat := 0
  /-- Whether a key or a sequence entry of a block may stand here. -/
  fresh : Bool := true

/-- Whether a text ends or has white space where it begins. -/
def endsWord : List Char → Bool
  | [] => true
  | c :: _ => isBlank c || isBreak c

/-- Whether a text starts with one of the marks between documents. -/
def startsMark : List Char → Bool
  | '-' :: '-' :: '-' :: rest => endsWord rest
  | '.' :: '.' :: '.' :: rest => endsWord rest
  | _ => false

/-- How many characters are skipped at the start of a text, `begins` if it is the start of a line,
and whether a key may stand behind them. -/
def skipped (flow comment fresh begins : Bool) : List Char → Nat × Bool
  | [] => (0, fresh)
  | c :: rest =>
    if isBreak c then
      let (n, fresh) := skipped flow false (fresh || !flow) true rest
      (n + 1, fresh)
    else if comment || c = ' ' || (c = '\t' && (flow || !fresh)) || (begins && c = '\ufeff') then
      let (n, fresh) := skipped flow comment fresh false rest
      (n + 1, fresh)
    else if c = '#' then
      let (n, fresh) := skipped flow true fresh false rest
      (n + 1, fresh)
    else (0, fresh)

namespace Cursor

/-- Goes on by one character. -/
def next (c : Cursor) : Cursor :=
  match c.rest with
  | [] => c
  | ch :: rest =>
    if isBreak ch then
      { c with rest, line := c.line + 1, column := 0, offset := c.offset + ch.utf8Size }
    else { c with rest, column := c.column + 1, offset := c.offset + ch.utf8Size }

/-- Goes on by a number of characters. -/
def drop : Nat → Cursor → Cursor
  | 0, c => c
  | n + 1, c => drop n c.next

/-- Goes behind white space and comments. -/
def skip (flow : Bool) (c : Cursor) : Cursor :=
  let (n, fresh) := skipped flow false c.fresh (c.column = 0) c.rest
  { c.drop n with fresh }

/-- Whether the text ends here, or one of the marks between documents stands here. -/
def atEnd (c : Cursor) : Bool :=
  c.rest.isEmpty || (c.column = 0 && startsMark c.rest)

/-- Whether one of the marks between documents stands here. -/
def atMark (c : Cursor) : Bool :=
  c.column = 0 && startsMark c.rest

/-- Whether a character stands here as a word of its own. -/
def atIndicator (ch : Char) (c : Cursor) : Bool :=
  match c.rest with
  | d :: rest => d = ch && endsWord rest
  | [] => false

end Cursor

end FeatureServing.Yaml
