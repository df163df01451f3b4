import CoordStore.Text.Printable
/-!
# Quoted text

How a text is shown inside a message: between double quotes, with the quote, the backslash,
the NUL, tab, line feed and carriage return written as two-character escapes, and every other
character that would not show as a glyph of its own written as `\u` with its code point in
lowercase hexadecimal between braces. All else stands as it is, so the quoted form of a plain
name is the name between quotes.
-/

namespace CoordStore.Text

/-- The lowercase hexadecimal digits of a number, without leading zeros. -/
def hexDigits (n : Nat) : List Char :=
  Nat.toDigits 16 n

/-- The characters that stand for one character inside quotes. -/
def escapeChar (c : Char) : List Char :=
  if c = '"' then ['\\', '"']
  else if c = '\\' then ['\\', '\\']
  else if c = '\x00' then ['\\', '0']
  else if c = '\t' then ['\\', 't']
  else if c = '\n' then ['\\', 'n']
  else if c = '\r' then ['\\', 'r']
  else if needsEscape c then ['\\', 'u', '\x7b'] ++ hexDigits c.toNat ++ ['\x7d']
  else [c]

/-- A text between double quotes, with its special characters escaped. -/
def quote (s : String) : String :=
  String.ofList ('"' :: s.toList.flatMap escapeChar ++ ['"'])

end CoordStore.Text
