import PostStore.Text.Bytes
import PostStore.Text.Lookless
/-!
# Quoted text

Text shown between double quotes, so that its ends and every character in it can be seen.
-/

namespace PostStore.Text

/-- The lower-case hexadecimal digits of a number, without zeros in front. -/
def hexDigits (n : Nat) : List Char := Nat.toDigits 16 n

/-- How a character is shown between quotes. -/
def quoteChar (c : Char) : List Char :=
  if c = '\x00' then ['\\', '0']
  else if c = '\t' then ['\\', 't']
  else if c = '\r' then ['\\', 'r']
  else if c = '\n' then ['\\', 'n']
  else if c = '\\' then ['\\', '\\']
  else if c = '"' then ['\\', '"']
  else if ' ' ≤ c && c ≤ '~' then [c]
  else if isLookless c then ['\\', 'u', '\x7b'] ++ hexDigits c.toNat ++ ['\x7d']
  else [c]

/-- A text between double quotes. -/
def quote (text : String) : String :=
  String.ofList ('"' :: (text.toList.flatMap quoteChar ++ ['"']))

end PostStore.Text
