import Runnel.Text.Ascii
import Runnel.Text.Category

/-!
# Runnel.Text.Escaped

Text between double quotes, written so that every character can be seen. A quote and a backslash
follow a backslash, the common control characters have letters of their own, and a character that
cannot be seen alone is written as its code point, `\u{..}`.
-/

namespace Runnel.Text

/-- The character shows when it is printed. -/
def isPrintable (c : Char) : Bool :=
  let n := c.toNat
  if n < 0x7F then 0x20 ≤ n
  else
    !(Category.within Category.invisible n || Category.within Category.unassigned n ||
      (0xE000 ≤ n && n ≤ 0xF8FF) || 0xF0000 ≤ n)

/-- The character extends the one before it. -/
def isExtending (c : Char) : Bool :=
  0x300 ≤ c.toNat && Category.within Category.extending c.toNat

/-- One character as it is written between double quotes. -/
def escapeChar (c : Char) : List Char :=
  match c with
  | '\x00' => ['\\', '0']
  | '\t' => ['\\', 't']
  | '\r' => ['\\', 'r']
  | '\n' => ['\\', 'n']
  | '"' => ['\\', '"']
  | '\\' => ['\\', '\\']
  | c =>
    if isExtending c || !isPrintable c then
      ['\\', 'u', '\x7b'] ++ (hexDigits c.toNat).toList ++ ['\x7d']
    else [c]

/-- The text between double quotes. -/
def escaped (text : String) : String :=
  String.ofList ('"' :: (text.toList.flatMap escapeChar ++ ['"']))

/-- A list as it is shown: its members with commas between them, in square brackets. -/
def bracketed (items : List String) : String :=
  "[" ++ joinWith ", " items ++ "]"
where
  /-- Texts with `separator` between each two. -/
  joinWith (separator : String) (texts : List String) : String :=
    separator.intercalate texts

end Runnel.Text
