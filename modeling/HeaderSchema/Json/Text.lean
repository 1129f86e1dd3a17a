import HeaderSchema.Json.Reader

/-!
# Reading texts

A text is read byte by byte from its opening quote on. `TextState` says what
the next byte belongs to: the plain text, an escape, the four digits of a code
unit, or one of the two bytes between the halves of a surrogate pair. The bytes
of the text are collected in reverse and have to be well-formed UTF-8 when the
closing quote is reached.
-/

namespace HeaderSchema.Reader

/-- The value of a hexadecimal digit of either case. -/
def hexValue? (b : UInt8) : Option Nat :=
  if 0x30 ≤ b && b ≤ 0x39 then some (b.toNat - 0x30)
  else if 0x41 ≤ b && b ≤ 0x46 then some (b.toNat - 0x37)
  else if 0x61 ≤ b && b ≤ 0x66 then some (b.toNat - 0x57)
  else none

/-- The number that hexadecimal digits spell, the last digit first. -/
def hexNumber? : Bytes → Option Nat
  | [] => some 0
  | b :: bs =>
    match hexNumber? bs, hexValue? b with
    | some n, some d => some (n * 16 + d)
    | _, _ => none

/-- What a one-letter escape stands for. -/
def escaped? (b : UInt8) : Option UInt8 :=
  if b == Mark.quote then some Mark.quote
  else if b == Mark.backslash then some Mark.backslash
  else if b == 0x2F then some 0x2F
  else if b == 0x62 then some 0x08
  else if b == Mark.f then some 0x0C
  else if b == Mark.n then some 0x0A
  else if b == 0x72 then some 0x0D
  else if b == Mark.t then some 0x09
  else none

/-- The letter before four hexadecimal digits. -/
abbrev unitMark : UInt8 := 0x75

/-- What the next byte of a text belongs to. A high surrogate that waits for
its other half is carried along. -/
inductive TextState where
  | plain
  | escape
  | digits (high? : Option Nat) (read : Bytes)
  | pairBackslash (high : Nat)
  | pairLetter (high : Nat)

/-- The code unit is the second half of a surrogate pair. -/
def isLowSurrogate (unit : Nat) : Bool :=
  0xDC00 ≤ unit && unit < 0xE000

/-- The code unit is the first half of a surrogate pair. -/
def isHighSurrogate (unit : Nat) : Bool :=
  0xD800 ≤ unit && unit < 0xDC00

/-- The character of a surrogate pair. -/
def pairChar (high low : Nat) : Char :=
  Char.ofNat (0x10000 + (high - 0xD800) * 0x400 + (low - 0xDC00))

/-- The state and the text, in reverse, once all four digits of a code unit
have been read. -/
def endUnit (high? : Option Nat) (unit : Nat) (text : Bytes) :
    Except Cause (TextState × Bytes) :=
  match high? with
  | none =>
    if isLowSurrogate unit then .error .loneSurrogate
    else if isHighSurrogate unit then .ok (.pairBackslash unit, text)
    else .ok (.plain, (Utf8.encodeChar (Char.ofNat unit)).reverseAux text)
  | some high =>
    if isLowSurrogate unit then
      .ok (.plain, (Utf8.encodeChar (pairChar high unit)).reverseAux text)
    else
      .error .loneSurrogate

/-- One byte that does not end the text. -/
def textStep (state : TextState) (text : Bytes) (b : UInt8) :
    Except Cause (TextState × Bytes) :=
  match state with
  | .plain =>
    if b == Mark.backslash then .ok (.escape, text)
    else if b < 0x20 then .error .controlCharacter
    else .ok (.plain, b :: text)
  | .escape =>
    if b == unitMark then .ok (.digits none [], text)
    else
      match escaped? b with
      | some c => .ok (.plain, c :: text)
      | none => .error .badEscape
  | .digits high? read =>
    if read.length < 3 then .ok (.digits high? (b :: read), text)
    else
      match hexNumber? (b :: read) with
      | some unit => endUnit high? unit text
      | none => .error .badEscape
  | .pairBackslash high =>
    if b == Mark.backslash then .ok (.pairLetter high, text)
    else .error .endOfSurrogatePair
  | .pairLetter high =>
    if b == unitMark then .ok (.digits (some high) [], text)
    else .error .endOfSurrogatePair

/-- The bytes of a text, and what follows its closing quote. -/
def textBytes (state : TextState) (text : Bytes) : Bytes → Except Fault (Bytes × Bytes)
  | [] => .error ⟨.endOfText, [], 0⟩
  | b :: rest =>
    match state, b == Mark.quote with
    | .plain, true => .ok (text.reverse, rest)
    | _, _ =>
      match textStep state text b with
      | .ok (state, text) => textBytes state text rest
      | .error cause => .error ⟨cause, rest, 0⟩

/-- A text, at its opening quote. -/
def text : Reader String := fun rest =>
  match textBytes .plain [] (rest.drop 1) with
  | .error fault => .error fault
  | .ok (bytes, rest) =>
    match Utf8.decode bytes with
    | (cs, []) => .ok (String.ofList cs, rest)
    | (_, b :: bad) => .error ⟨.badCodePoint, rest, (b :: bad).length⟩

end HeaderSchema.Reader
