import TemplateLint.Text

/-!
# Quoted texts

A quoted text stands between single quotes, or between double quotes when it
holds a single quote and no double one.  Inside, the quote and the backslash
follow a backslash, and characters that cannot be shown are given by number.
-/

namespace TemplateLint.Quoted

/-- The quote that needs no escape, the single one if there is a choice. -/
def quoteFor (text : Text) : Char :=
  if '\'' ∈ text ∧ '"' ∉ text then '"' else '\''

/-- The number of a character in the shortest of three widths. -/
def numbered (c : Char) : Text :=
  if c.toNat < 0x100 then "\\x" ++ Text.hexadecimal 2 c.toNat
  else if c.toNat < 0x10000 then "\\u" ++ Text.hexadecimal 4 c.toNat
  else "\\U" ++ Text.hexadecimal 8 c.toNat

def encodeChar (quote : Char) (c : Char) : Text :=
  if c = quote ∨ c = '\\' then ['\\', c]
  else if c = '\t' then "\\t"
  else if c = '\n' then "\\n"
  else if c = '\r' then "\\r"
  else if Character.isPrintable c then [c]
  else numbered c

def encode (text : Text) : Text :=
  let quote := quoteFor text
  quote :: text.flatMap (encodeChar quote) ++ [quote]

end TemplateLint.Quoted
