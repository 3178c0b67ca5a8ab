/-
Texts in double quotes, in the form used by messages and by the rendering of
predicates.

A quote, a backslash and the four common controls have a two-character escape;
every other character that is not printable is written by its code point in
hexadecimal, without leading zeros. The quoted form ends at the first quote that is
no part of an escape.
-/
import ProjectAccess.Text.Numeral
import ProjectAccess.Text.Printable

namespace ProjectAccess.Text

/-- A code point in hexadecimal, without leading zeros. -/
def codePointDigits (c : Char) : List Char := (hexDigits 6 c.toNat).dropWhile (· = '0')

/-- The characters that stand for `c` between the quotes. -/
def escape (c : Char) : List Char :=
  if c = '\x00' then ['\\', '0']
  else if c = '\t' then ['\\', 't']
  else if c = '\r' then ['\\', 'r']
  else if c = '\n' then ['\\', 'n']
  else if c = '\\' then ['\\', '\\']
  else if c = '"' then ['\\', '"']
  else if isPrintable c then [c]
  else ['\\', 'u', '\x7b'] ++ codePointDigits c ++ ['\x7d']

/-- A text in double quotes. -/
def quoted (s : String) : String :=
  String.ofList ('"' :: (s.toList.flatMap escape ++ ['"']))

end ProjectAccess.Text
