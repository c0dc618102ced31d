import SmallMl.Text.Unprintable

/-!
# Quoted text

Text and single characters in quotation marks. A backslash marks the quotation mark in use, itself,
the null character and the line and tab controls; every other character without a glyph of its own
is written as its hexadecimal code point in braces. What remains stands for itself, so a quoted text
holds no line feed.
-/

namespace SmallMl

/-- The code point of a character in lowercase hexadecimal digits, between braces. -/
def codePointEscape (c : Char) : List Char :=
  ['\\', 'u', '\x7b'] ++ Nat.toDigits 16 c.toNat ++ ['\x7d']

/-- A character as it stands between two copies of the quotation mark `quote`. -/
def escaped (quote c : Char) : List Char :=
  if c = '\x00' then ['\\', '0']
  else if c = '\t' then ['\\', 't']
  else if c = '\r' then ['\\', 'r']
  else if c = '\n' then ['\\', 'n']
  else if c = '\\' then ['\\', '\\']
  else if c = quote then ['\\', quote]
  else if isUnprintable c then codePointEscape c
  else [c]

/-- A text between two copies of the quotation mark `quote`. -/
def quotedBy (quote : Char) (text : List Char) : List Char :=
  quote :: (text.flatMap (escaped quote) ++ [quote])

/-- A string between double quotes. -/
def quotedString (text : String) : String :=
  String.ofList (quotedBy '"' text.toList)

/-- A character between single quotes. -/
def quotedChar (c : Char) : String :=
  String.ofList (quotedBy '\'' [c])

end SmallMl
