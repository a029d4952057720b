import ResolverContracts.Text.Letters.Hidden
/-!
# Texts in messages

A message that quotes a text shows it between quotes on one line. Quotes and backslashes inside get a
backslash, line ends and tabs their letters, and every other character that cannot be seen by itself
is shown by its number.
-/

set_option autoImplicit false

namespace ResolverContracts

/-- A character inside of a quoted text. -/
def quotedChar (c : Char) : List Char :=
  if c == '\x00' then ['\\', '0']
  else if c == '\t' then ['\\', 't']
  else if c == '\r' then ['\\', 'r']
  else if c == '\n' then ['\\', 'n']
  else if c == '\\' then ['\\', '\\']
  else if c == '"' then ['\\', '"']
  else if Letters.inRuns Letters.hiddenRuns c then
    ['\\', 'u', '{'] ++ Nat.toDigits 16 c.toNat ++ ['}']
  else [c]

/-- A text in quotes. -/
def quoted (text : String) : String :=
  String.ofList ('"' :: text.toList.flatMap quotedChar ++ ['"'])

end ResolverContracts
