import Runnel.Text.Utf8

/-!
# Runnel.Child.Substitution

The program that replaces, deletes and squeezes bytes.
-/

namespace Runnel

/-- What is done to each byte. -/
structure Substitution where
  /-- The bytes that are replaced or deleted. -/
  set : List UInt8
  /-- What they are replaced by, if they are replaced. -/
  images : List UInt8
  /-- They are deleted. -/
  deletes : Bool
  /-- Runs of these bytes are squeezed into one. -/
  squeezed : List UInt8
  deriving Repr, DecidableEq

namespace Substitution

/-- All bytes. -/
def allBytes : List UInt8 :=
  (List.range 256).map UInt8.ofNat

/-- The bytes of a named class. -/
def class? (name : List Char) : Option (List UInt8) :=
  let those := fun (p : Char → Bool) =>
    some (allBytes.filter fun b => b < 128 && p (Char.ofNat b.toNat))
  match String.ofList name with
  | "upper" => those Char.isUpper
  | "lower" => those Char.isLower
  | "alpha" => those Char.isAlpha
  | "digit" => those Char.isDigit
  | "alnum" => those Char.isAlphanum
  | "space" => those fun c => c == ' ' || ('\t' ≤ c && c ≤ '\x0d')
  | "blank" => those fun c => c == ' ' || c == '\t'
  | "punct" => those fun c => '!' ≤ c && c ≤ '~' && !c.isAlphanum
  | _ => none

/-- The byte that a letter behind a backslash stands for. -/
def escapedByte (c : Char) : UInt8 :=
  match c with
  | 'n' => 10
  | 't' => 9
  | 'r' => 13
  | 'a' => 7
  | 'b' => 8
  | 'f' => 12
  | 'v' => 11
  | '0' => 0
  | c => UInt8.ofNat c.toNat

/-- The bytes from one to another. -/
def between (a b : UInt8) : List UInt8 :=
  allBytes.filter fun x => a ≤ x && x ≤ b

/-- Reads a set of bytes, of at most so many members as they are written. -/
def readSet : Nat → List Char → List UInt8
  | 0, _ | _, [] => []
  | n + 1, '[' :: ':' :: rest =>
    let name := rest.takeWhile Char.isAlpha
    match class? name, rest.drop name.length with
    | some bytes, ':' :: ']' :: more => bytes ++ readSet n more
    | _, _ => 91 :: readSet n (':' :: rest)
  | n + 1, '\\' :: c :: rest => escapedByte c :: readSet n rest
  | n + 1, c :: rest =>
    match Text.encode (String.singleton c), rest with
    | [a], '-' :: d :: more =>
      match Text.encode (String.singleton d) with
      | [b] => between a b ++ readSet n more
      | _ => a :: readSet n rest
    | bytes, _ => bytes ++ readSet n rest

/-- The bytes of a set. -/
def bytesOfSet (text : String) : List UInt8 :=
  readSet (text.length + 1) text.toList

/-- What becomes of a byte. -/
def image (t : Substitution) (b : UInt8) : Option UInt8 :=
  match t.set.findIdx? (· == b) with
  | none => some b
  | some place =>
    if t.deletes then none
    else if t.images.isEmpty then some b
    else some (t.images.getD place (t.images.getLastD b))

/-- Squeezes runs into one. -/
def squeeze (squeezed : List UInt8) : Option UInt8 → Bytes → Bytes
  | _, [] => []
  | last, b :: rest =>
    if last == some b && squeezed.contains b then squeeze squeezed last rest
    else b :: squeeze squeezed (some b) rest

/-- What becomes of bytes. -/
def apply (t : Substitution) (bytes : Bytes) : Bytes :=
  let images := bytes.filterMap t.image
  if t.squeezed.isEmpty then images else squeeze t.squeezed none images

/-- What the arguments ask for. -/
def ofArgs? (args : List String) : Option Substitution :=
  let flags := (args.takeWhile fun a => a.length > 1 && a.toList.head? == some '-').flatMap fun a =>
    a.toList.drop 1
  let sets := args.dropWhile fun a => a.length > 1 && a.toList.head? == some '-'
  let has := fun (c : Char) => flags.contains c
  let first := fun (text : String) =>
    let bytes := bytesOfSet text
    if has 'c' || has 'C' then allBytes.filter fun b => !bytes.contains b else bytes
  match sets with
  | [one] =>
    if has 'd' then some ⟨first one, [], true, []⟩
    else if has 's' then some ⟨[], [], false, first one⟩
    else none
  | [one, two] =>
    let images := bytesOfSet two
    some ⟨first one, images, has 'd', if has 's' then images else []⟩
  | _ => none

end Substitution
end Runnel
