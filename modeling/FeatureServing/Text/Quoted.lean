import FeatureServing.Text.Digits
import FeatureServing.Text.Unprintable

/-!
# Quoted texts

`quote s` writes a text between double quotes so that every character of it is visible: the
quote, the backslash and five controls have an escape of their own, any other character without a
visible form is spelled by its number (`\u{301}`), and all else stands for itself.
-/

namespace FeatureServing.Text

/-- The letter that stands for a character behind a backslash. -/
def shortEscape? (c : Char) : Option Char :=
  if c = '\x00' then some '0'
  else if c = '\t' then some 't'
  else if c = '\n' then some 'n'
  else if c = '\r' then some 'r'
  else if c = '\x22' then some '\x22'
  else if c = '\x5c' then some '\x5c'
  else none

/-- One character of a quoted text. -/
def quoteChar (c : Char) : List Char :=
  match shortEscape? c with
  | some e => ['\x5c', e]
  | none =>
    if isPrintable c then [c] else ['\x5c', 'u', '\x7b'] ++ hexDigits c.toNat ++ ['\x7d']

def quote (s : String) : String :=
  String.ofList ('\x22' :: (s.toList.flatMap quoteChar ++ ['\x22']))

end FeatureServing.Text
