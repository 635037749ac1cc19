import FeatureServing.Time.Instant
import FeatureServing.Text.Blank

/-!
# Timestamps of relational columns

`readTimestamp` reads `YYYY-MM-DD HH:MM:SS` from left to right. White space may stand in front of
every number and takes the place of the one between date and time; the year has up to four digits,
or a sign and any number of them, all other numbers have one or two. A number out of its range is
reported as soon as it is read, text that is left over next, a day that the calendar lacks last.
-/

namespace FeatureServing

/-- Why a text is no timestamp. -/
inductive TimestampFault
  | premature
  | invalid
  | outOfRange
  | trailing
deriving DecidableEq

namespace TimestampFault

def message : TimestampFault → String
  | premature => "premature end of input"
  | invalid => "input contains invalid characters"
  | outOfRange => "input is out of range"
  | trailing => "trailing input"

end TimestampFault

namespace Timestamp

/-- The layout that `readTimestamp` reads. -/
def layout : String := "%Y-%m-%d %H:%M:%S"

/-- Takes one to `width` digits; without a width all that follow. -/
def number (width : Option Nat) (cs : List Char) : Except TimestampFault (Nat × List Char) :=
  let window := match width with
    | some w => cs.take w
    | none => cs
  let ds := window.takeWhile Text.isDigit
  match cs, ds with
  | [], _ => .error .premature
  | _ :: _, [] => .error .invalid
  | _ :: _, _ :: _ => .ok (Text.numberOf ds, cs.drop ds.length)

/-- Takes a number behind white space and checks its range. -/
def field (low high : Nat) (cs : List Char) : Except TimestampFault (Nat × List Char) := do
  let (n, rest) ← number (some 2) (Text.trimStart cs)
  if low ≤ n ∧ n ≤ high then .ok (n, rest) else .error .outOfRange

/-- Takes a year behind white space; one that 32 bits do not hold is out of range at once. -/
def yearField (cs : List Char) : Except TimestampFault (Int × List Char) := do
  let check (y : Int) (rest : List Char) : Except TimestampFault (Int × List Char) :=
    if -2147483648 ≤ y ∧ y ≤ 2147483647 then .ok (y, rest) else .error .outOfRange
  match Text.trimStart cs with
  | '-' :: rest =>
    let (n, rest) ← number none rest
    check (-(n : Int)) rest
  | '+' :: rest =>
    let (n, rest) ← number none rest
    check n rest
  | rest =>
    let (n, rest) ← number (some 4) rest
    check n rest

def literal (c : Char) : List Char → Except TimestampFault (List Char)
  | [] => .error .premature
  | d :: rest => if d = c then .ok rest else .error .invalid

end Timestamp

open Timestamp in
/-- The instant that a text in the timestamp layout names. -/
def readTimestamp (s : String) : Except TimestampFault Instant := do
  let (year, cs) ← yearField s.toList
  let cs ← literal '-' cs
  let (month, cs) ← field 1 12 cs
  let cs ← literal '-' cs
  let (day, cs) ← field 1 31 cs
  let cs := Text.trimStart cs
  let (hour, cs) ← field 0 23 cs
  let cs ← literal ':' cs
  let (minute, cs) ← field 0 59 cs
  let cs ← literal ':' cs
  let (second, cs) ← field 0 60 cs
  match cs with
  | _ :: _ => .error .trailing
  | [] =>
    match Date.of? year month day, Clock.of? hour minute second 0 with
    | some date, some clock => .ok ⟨date, clock⟩
    | _, _ => .error .outOfRange

end FeatureServing
