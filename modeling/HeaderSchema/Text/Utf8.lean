/-!
# UTF-8

Characters as one to four bytes, and back. `encodeChar` writes a character,
`one?` to `four?` read a character that takes that many bytes, and `decode`
reads the longest prefix of a byte string that is well formed: every character
in its shortest form, none a surrogate, none above U+10FFFF. `decode?` is the
reading of a byte string that has to be well formed as a whole.
-/

namespace HeaderSchema

/-- A byte string, as files, inputs and digests hold it. -/
abbrev Bytes := List UInt8

namespace Utf8

/-- The one to four bytes of a character. -/
def encodeChar (c : Char) : Bytes :=
  let n := c.toNat
  if n < 0x80 then
    [UInt8.ofNat n]
  else if n < 0x800 then
    [UInt8.ofNat (0xC0 + n / 0x40), UInt8.ofNat (0x80 + n % 0x40)]
  else if n < 0x10000 then
    [UInt8.ofNat (0xE0 + n / 0x1000), UInt8.ofNat (0x80 + n / 0x40 % 0x40),
      UInt8.ofNat (0x80 + n % 0x40)]
  else
    [UInt8.ofNat (0xF0 + n / 0x40000), UInt8.ofNat (0x80 + n / 0x1000 % 0x40),
      UInt8.ofNat (0x80 + n / 0x40 % 0x40), UInt8.ofNat (0x80 + n % 0x40)]

/-- The bytes of a list of characters. -/
def encode (cs : List Char) : Bytes :=
  cs.flatMap encodeChar

/-- A continuation byte, which carries six bits. -/
def isTail (b : UInt8) : Bool :=
  0x80 ≤ b && b < 0xC0

/-- The six bits of a continuation byte. -/
def tailBits (b : UInt8) : Nat :=
  b.toNat - 0x80

/-- A character of one byte. -/
def one? (a : UInt8) : Option Char :=
  if a < 0x80 then some (Char.ofNat a.toNat) else none

/-- A character of two bytes: at least U+0080. -/
def two? (a b : UInt8) : Option Char :=
  if 0xC2 ≤ a && a < 0xE0 && isTail b then
    some (Char.ofNat ((a.toNat - 0xC0) * 0x40 + tailBits b))
  else
    none

/-- A character of three bytes: at least U+0800 and no surrogate. -/
def three? (a b c : UInt8) : Option Char :=
  let n := ((a.toNat - 0xE0) * 0x40 + tailBits b) * 0x40 + tailBits c
  if 0xE0 ≤ a && a < 0xF0 && isTail b && isTail c &&
      (0x800 ≤ n && !(0xD800 ≤ n && n < 0xE000)) then
    some (Char.ofNat n)
  else
    none

/-- A character of four bytes: at least U+10000 and at most U+10FFFF. -/
def four? (a b c d : UInt8) : Option Char :=
  let n := (((a.toNat - 0xF0) * 0x40 + tailBits b) * 0x40 + tailBits c) * 0x40 + tailBits d
  if 0xF0 ≤ a && a < 0xF8 && isTail b && isTail c && isTail d &&
      (0x10000 ≤ n && n < 0x110000) then
    some (Char.ofNat n)
  else
    none

/-- `decode` with the characters read so far, the last one first. -/
def decodeFrom (read : List Char) : Bytes → List Char × Bytes
  | [] => (read.reverse, [])
  | a :: r₁ =>
    match one? a with
    | some x => decodeFrom (x :: read) r₁
    | none =>
      match r₁ with
      | [] => (read.reverse, [a])
      | b :: r₂ =>
        match two? a b with
        | some x => decodeFrom (x :: read) r₂
        | none =>
          match r₂ with
          | [] => (read.reverse, [a, b])
          | c :: r₃ =>
            match three? a b c with
            | some x => decodeFrom (x :: read) r₃
            | none =>
              match r₃ with
              | [] => (read.reverse, [a, b, c])
              | d :: r₄ =>
                match four? a b c d with
                | some x => decodeFrom (x :: read) r₄
                | none => (read.reverse, a :: b :: c :: d :: r₄)

/-- The characters of the longest well-formed prefix, and the bytes after it. -/
def decode (bytes : Bytes) : List Char × Bytes :=
  decodeFrom [] bytes

/-- The characters of a byte string that is well formed as a whole. -/
def decode? (bytes : Bytes) : Option (List Char) :=
  match decode bytes with
  | (cs, []) => some cs
  | (_, _ :: _) => none

end Utf8

/-- The bytes of a text. -/
def Bytes.ofText (text : String) : Bytes :=
  Utf8.encode text.toList

/-- The text that a byte string spells, if it is well formed. -/
def Bytes.toText? (bytes : Bytes) : Option String :=
  (Utf8.decode? bytes).map String.ofList

end HeaderSchema
