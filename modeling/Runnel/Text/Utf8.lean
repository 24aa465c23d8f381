/-!
# Runnel.Text.Utf8

Bytes and the text they stand for.

* `encode`: the UTF-8 bytes of a text.
* `decodeLossy`: the text of any bytes. Each maximal part of a character that breaks off, and each
  byte that starts none, reads as U+FFFD.
* `isValid`: the bytes are the encoding of a text.

The decoder is an automaton over single bytes, so what it does with a sequence of bytes does not
depend on how the bytes are grouped.
-/

namespace Runnel

/-- What commands read and write. -/
abbrev Bytes := List UInt8

namespace Text

/-- The UTF-8 bytes of a text. -/
def encode (text : String) : Bytes :=
  text.toList.flatMap String.utf8EncodeChar

/-- A character of which some bytes are still owed. -/
structure Partial where
  /-- How many bytes are owed. -/
  owed : Nat
  /-- The least byte that may come next. -/
  least : UInt8
  /-- The greatest byte that may come next. -/
  greatest : UInt8
  /-- The bits gathered so far. -/
  bits : Nat

/-- The character that stands for bytes that are no text. -/
def replacement : Char := '\uFFFD'

/-- What byte `b` does between two characters: a character that it completes, or one that it
starts. -/
def start (b : UInt8) : Option Char × Option Partial :=
  let n := b.toNat
  if n < 0x80 then (some (Char.ofNat n), none)
  else if 0xC2 ≤ n && n ≤ 0xDF then (none, some ⟨1, 0x80, 0xBF, n - 0xC0⟩)
  else if n == 0xE0 then (none, some ⟨2, 0xA0, 0xBF, 0⟩)
  else if n == 0xED then (none, some ⟨2, 0x80, 0x9F, 0xD⟩)
  else if 0xE1 ≤ n && n ≤ 0xEF then (none, some ⟨2, 0x80, 0xBF, n - 0xE0⟩)
  else if n == 0xF0 then (none, some ⟨3, 0x90, 0xBF, 0⟩)
  else if 0xF1 ≤ n && n ≤ 0xF3 then (none, some ⟨3, 0x80, 0xBF, n - 0xF0⟩)
  else if n == 0xF4 then (none, some ⟨3, 0x80, 0x8F, 4⟩)
  else (some replacement, none)

/-- A reader of bytes. -/
structure Decoder where
  /-- The character that it is in the middle of. -/
  pending : Option Partial
  /-- The characters read so far, last one first. -/
  output : List Char

namespace Decoder

/-- Nothing was read yet. -/
def empty : Decoder := ⟨none, []⟩

/-- Reads a byte between two characters. -/
def begin (output : List Char) (b : UInt8) : Decoder :=
  match start b with
  | (some c, next) => ⟨next, c :: output⟩
  | (none, next) => ⟨next, output⟩

/-- Reads a byte. -/
def feed (d : Decoder) (b : UInt8) : Decoder :=
  match d.pending with
  | none => begin d.output b
  | some p =>
    if p.least ≤ b && b ≤ p.greatest then
      let bits := p.bits * 64 + (b.toNat - 0x80)
      if p.owed ≤ 1 then ⟨none, Char.ofNat bits :: d.output⟩
      else ⟨some ⟨p.owed - 1, 0x80, 0xBF, bits⟩, d.output⟩
    else begin (replacement :: d.output) b

/-- The characters at the end of the bytes. -/
def finish (d : Decoder) : List Char :=
  match d.pending with
  | none => d.output.reverse
  | some _ => (replacement :: d.output).reverse

end Decoder

/-- The text of any bytes: what is no character reads as U+FFFD. -/
def decodeLossy (bytes : Bytes) : String :=
  String.ofList (bytes.foldl Decoder.feed .empty).finish

/-- The bytes are the encoding of a text. -/
def isValid (bytes : Bytes) : Bool :=
  encode (decodeLossy bytes) == bytes

/-- The text that the bytes encode, if they encode one. -/
def decode? (bytes : Bytes) : Option String :=
  if isValid bytes then some (decodeLossy bytes) else none

/-! ## Faults -/

/-- How many bytes belong to a character of which some are owed, and whether the next one does
not. -/
def continued : Option Partial → Bytes → Nat × Bool
  | none, _ => (0, true)
  | some _, [] => (0, false)
  | some p, b :: rest =>
    match ((⟨some p, []⟩ : Decoder).feed b).output with
    | [] =>
      let (n, broken) := continued ((⟨some p, []⟩ : Decoder).feed b).pending rest
      (n + 1, broken)
    | _ => (0, true)

/-- Where bytes stop being text: how many are text, and how long the first fault is; there is no
length if bytes are owed at the end. -/
structure Fault where
  /-- How many bytes come before the fault. -/
  position : Nat
  /-- How many bytes the fault takes. -/
  length : Option Nat
  deriving Repr, DecidableEq

/-- The fault that comes next, after characters that were read from the front of the bytes. -/
def faultFrom (position : Nat) : List Char → Bytes → Option Fault
  | _, [] => none
  | [], b :: rest => some (faultAt position b rest)
  | c :: cs, b :: rest =>
    let code := String.utf8EncodeChar c
    if code.isPrefixOf (b :: rest) then
      faultFrom (position + code.length) cs ((b :: rest).drop code.length)
    else some (faultAt position b rest)
where
  /-- The fault that begins with a byte. -/
  faultAt (position : Nat) (b : UInt8) (rest : Bytes) : Fault :=
    let (n, broken) := continued (start b).2 rest
    ⟨position, if broken then some (n + 1) else none⟩

/-- The first fault of bytes that are no text. -/
def fault? (bytes : Bytes) : Option Fault :=
  if isValid bytes then none else faultFrom 0 (decodeLossy bytes).toList bytes

/-- The text of a fault. -/
def Fault.message (f : Fault) : String :=
  let number := fun (n : Nat) => String.ofList (Nat.toDigits 10 n)
  match f.length with
  | some n =>
    "invalid utf-8 sequence of " ++ number n ++ " bytes from index " ++ number f.position
  | none => "incomplete utf-8 byte sequence from index " ++ number f.position

end Text
end Runnel
