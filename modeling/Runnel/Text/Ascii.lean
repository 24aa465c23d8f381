/-!
# Runnel.Text.Ascii

ASCII letters and the shapes of names.
-/

namespace Runnel.Text

theorem not_isAlpha_of_isDigit {c : Char} (h : c.isDigit = true) : c.isAlpha = false := by
  have hhigh : c.toNat ≤ 57 := (Char.isDigit_iff_toNat.mp h).2
  have hletter : ∀ d : Char, 57 < d.toNat → ¬ d.val ≤ c.val := by
    intro d hd hle
    have hlow : d.toNat ≤ c.toNat := UInt32.le_iff_toNat_le.mp hle
    omega
  refine Bool.or_eq_false_iff.mpr ⟨?_, Bool.and_eq_false_iff.mpr (.inl ?_)⟩
  · exact decide_eq_false fun hupper => hletter 'A' (by decide) hupper.1
  · exact decide_eq_false (hletter 'a' (by decide))

/-- Text with its ASCII letters in upper case. -/
def upper (text : String) : String :=
  text.map Char.toUpper

/-- The letters, digits and the underscore of a variable's name. -/
def isNameChar (c : Char) : Bool :=
  c.isAlphanum || c == '_'

/-- What a variable's name may start with. -/
def isNameStart (c : Char) : Bool :=
  c.isAlpha || c == '_'

/-- `[A-Za-z_][A-Za-z0-9_]*` -/
def isIdentifier : List Char → Bool
  | [] => false
  | c :: rest => isNameStart c && rest.all isNameChar

/-- Equal but for the case of ASCII letters. -/
def eqIgnoringCase (a b : String) : Bool :=
  a.map Char.toLower == b.map Char.toLower

/-- The decimal digits of a number. -/
def digits (n : Nat) : String :=
  String.ofList (Nat.toDigits 10 n)

/-- The decimal digits of an integer, with `-` before those of a negative one. -/
def signedDigits : Int → String
  | .ofNat n => digits n
  | .negSucc n => "-" ++ digits (n + 1)

/-- The lower-case hexadecimal digits of a number. -/
def hexDigits (n : Nat) : String :=
  String.ofList (Nat.toDigits 16 n)

/-- The value of a hexadecimal digit. -/
def hexValue? (c : Char) : Option Nat :=
  if c.isDigit then some (c.toNat - '0'.toNat)
  else if 'a' ≤ c && c ≤ 'f' then some (c.toNat - 'a'.toNat + 10)
  else if 'A' ≤ c && c ≤ 'F' then some (c.toNat - 'A'.toNat + 10)
  else none

/-- Text of at least `width` characters, filled up with blanks on the left. -/
def padLeft (width : Nat) (text : String) : String :=
  String.ofList (List.replicate (width - text.length) ' ') ++ text

end Runnel.Text
