/-!
# Runnel.Text.Blank

Blank and control characters, and the cutting of text at blanks.

* `isBlank`: the characters with the Unicode property White_Space.
* `isControl`: the characters of the general category Cc.
* `trim`, `trimEnd`: text without the blanks around it.
* `fields`: the maximal runs of characters that are not blank.
-/

namespace Runnel.Text

/-- The property White_Space of Unicode. -/
def isBlank (c : Char) : Bool :=
  let n := c.toNat
  (0x9 ≤ n && n ≤ 0xD) || n == 0x20 || n == 0x85 || n == 0xA0 || n == 0x1680 ||
    (0x2000 ≤ n && n ≤ 0x200A) || n == 0x2028 || n == 0x2029 || n == 0x202F || n == 0x205F ||
    n == 0x3000

/-- The general category Cc of Unicode. -/
def isControl (c : Char) : Bool :=
  c.toNat ≤ 0x1F || (0x7F ≤ c.toNat && c.toNat ≤ 0x9F)

/-- Text without the characters at its end that satisfy `p`. -/
def dropEndWhile (p : Char → Bool) (text : List Char) : List Char :=
  (text.reverse.dropWhile p).reverse

/-- Text without the blanks at its end. -/
def trimEnd (text : String) : String :=
  String.ofList (dropEndWhile isBlank text.toList)

/-- Text without the blanks at either end. -/
def trim (text : String) : String :=
  String.ofList (dropEndWhile isBlank (text.toList.dropWhile isBlank))

/-- `word` holds, last character first, the field that is being read. -/
def fieldsFrom (word : List Char) : List Char → List (List Char)
  | [] => if word.isEmpty then [] else [word.reverse]
  | c :: rest =>
    if isBlank c then
      if word.isEmpty then fieldsFrom [] rest else word.reverse :: fieldsFrom [] rest
    else fieldsFrom (c :: word) rest

/-- The maximal runs of characters that are not blank, in order. -/
def fields (text : String) : List String :=
  (fieldsFrom [] text.toList).map String.ofList

/-- Texts with `separator` between each two. -/
def joinWith (separator : String) (texts : List String) : String :=
  separator.intercalate texts

end Runnel.Text
