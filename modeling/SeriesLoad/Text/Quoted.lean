import SeriesLoad.Text.Extender
import SeriesLoad.Text.Printable

/-!
# Quoted text for messages

`quote` shows a text between quotes so that every character can be told: quotes and backslashes
stand behind a backslash, the common controls have letters, and a character that cannot be seen on
its own is written by its number.
-/

namespace SeriesLoad.Text.Quoted

/-- Whether a character cannot be seen on its own. -/
def isHidden (c : Char) : Bool := !isPrintable c || isExtender c

/-- A character between quotes. -/
def escape (c : Char) : List Char :=
  if c = '\x00' then ['\\', '0']
  else if c = '\t' then ['\\', 't']
  else if c = '\r' then ['\\', 'r']
  else if c = '\n' then ['\\', 'n']
  else if c = '"' then ['\\', '"']
  else if c = '\\' then ['\\', '\\']
  else if isHidden c then '\\' :: 'u' :: '\x7b' :: (Nat.toDigits 16 c.toNat ++ ['\x7d'])
  else [c]

/-- A text between quotes. -/
def quote (s : String) : String := String.ofList ('"' :: (s.toList.flatMap escape ++ ['"']))

end SeriesLoad.Text.Quoted
