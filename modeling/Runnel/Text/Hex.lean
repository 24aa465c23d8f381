import Runnel.Text.Ascii
import Runnel.Text.Utf8

/-!
# Runnel.Text.Hex

Bytes as pairs of hexadecimal digits.
-/

namespace Runnel.Text

/-- The bytes of pairs of digits. -/
def bytesOfHexDigits : List Char → Bytes
  | a :: b :: rest =>
    UInt8.ofNat ((hexValue? a).getD 0 * 16 + (hexValue? b).getD 0) :: bytesOfHexDigits rest
  | _ => []

/-- The bytes of a text of pairs of digits. -/
def bytesOfHex (text : String) : Bytes :=
  bytesOfHexDigits text.toList

/-- The two digits of a byte, in lower case. -/
def hexPair (b : UInt8) : String :=
  hexDigits (b.toNat / 16) ++ hexDigits (b.toNat % 16)

/-- Bytes as pairs of digits, in lower case. -/
def hexOfBytes (bytes : Bytes) : String :=
  String.join (bytes.map hexPair)

end Runnel.Text
