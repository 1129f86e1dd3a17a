import HeaderSchema.Json.Reader

/-!
# Reading numbers

A number is read as its digits come: a significand of at most 64 bits and a
power of ten. Digits of the whole part that no longer fit raise the power, such
digits of the fraction are dropped. A number without a point, a power or a digit
that does not fit is an integer; `-0` and integers below `-2 ^ 63` are floating
point numbers all the same.
-/

namespace HeaderSchema

/-- A number as it was read. -/
inductive Number where
  | natural (value : Nat)
  | negative (value : Int)
  | float (value : Float)

/-- How a fault shows a number. -/
def Number.found : Number → Found
  | .natural value => .integer value
  | .negative value => .integer value
  | .float value => .float value

namespace Reader

/-- Significands stay below this bound. -/
def significandBound : Nat := Nat.pow 2 64

/-- Powers that are spelled out stay below this bound. -/
def powerBound : Nat := Nat.pow 2 31

/-- The digits of a whole part: the significand, how many digits did not fit,
and what follows. Once a digit does not fit, none of the later ones is kept. -/
def wholeDigits (m dropped : Nat) : Bytes → Nat × Nat × Bytes
  | [] => (m, dropped, [])
  | b :: rest =>
    if isDigit b then
      let m' := m * 10 + digitValue b
      if dropped = 0 ∧ m' < significandBound then wholeDigits m' 0 rest
      else wholeDigits m (dropped + 1) rest
    else
      (m, dropped, b :: rest)

/-- The digits of a fraction: the significand, how many digits were kept, and
what follows. -/
def fractionDigits (m kept : Nat) (full : Bool) : Bytes → Nat × Nat × Bytes
  | [] => (m, kept, [])
  | b :: rest =>
    if isDigit b then
      let m' := m * 10 + digitValue b
      if !full && m' < significandBound then fractionDigits m' (kept + 1) false rest
      else fractionDigits m kept true rest
    else
      (m, kept, b :: rest)

/-- The digits of a power, and what follows; no power when it passes the bound,
and then what follows the digit that passed it. -/
def powerDigits (e : Nat) : Bytes → Option Nat × Bytes
  | [] => (some e, [])
  | b :: rest =>
    if isDigit b then
      let e' := e * 10 + digitValue b
      if e' < powerBound then powerDigits e' rest else (none, rest)
    else
      (some e, b :: rest)

def skipDigits (rest : Bytes) : Bytes :=
  rest.dropWhile isDigit

/-- A float scaled by a power of ten: powers above 308 are out of range unless
the float is zero, and powers below -308 are applied 308 at a time. No answer
when the result is not finite. -/
def scale : Nat → Float → Int → Option Float
  | 0, x, _ => some x
  | n + 1, x, e =>
    if e.natAbs ≤ 308 then
      if 0 ≤ e then
        let y := x * Float.ofScientific 1 false e.natAbs
        if y.isInf then none else some y
      else
        some (x / Float.ofScientific 1 false e.natAbs)
    else if x == 0 then some x
    else if 0 ≤ e then none
    else scale n (x / Float.ofScientific 1 false 308) (e + 308)

/-- The float of a significand, a power of ten and a sign. -/
def float (negative : Bool) (m : Nat) (e : Int) : Reader Number := do
  match scale (e.natAbs / 308 + 1) m.toUInt64.toFloat e with
  | none => failHere .numberRange
  | some x => return .float (if negative then -x else x)

/-- The sign of a power: whether it is negative. -/
def powerSign : Reader Bool := fun rest =>
  match rest with
  | b :: r =>
    if b == Mark.plus then .ok (false, r)
    else if b == Mark.minus then .ok (true, r)
    else .ok (false, rest)
  | [] => .ok (false, [])

/-- The first byte that has to be a digit: its value. -/
def firstDigit (atEnd : Cause) : Reader Nat := fun rest =>
  match rest with
  | [] => .error ⟨atEnd, [], 0⟩
  | b :: r => if isDigit b then .ok (digitValue b, r) else .error ⟨.badNumber, r, 0⟩

/-- The letter before a power of ten. -/
def isPowerMark (b : UInt8) : Bool :=
  b == 0x65 || b == 0x45

/-- A power of ten, from its letter on, and then the number. -/
def power (negative : Bool) (m : Nat) (e : Int) : Reader Number := do
  skip
  let down ← powerSign
  let first ← firstDigit .endOfValue
  match powerDigits first (← get) with
  | (some p, rest) =>
    set rest
    float negative m (if down then e - p else e + p)
  | (none, rest) =>
    set rest
    if m ≠ 0 ∧ !down then failHere .numberRange
    else do
      set (skipDigits rest)
      return .float (if negative then -0.0 else 0.0)

def atDigit (rest : Bytes) : Bool :=
  match rest with
  | [] => false
  | b :: _ => isDigit b

def atPower (rest : Bytes) : Bool :=
  match rest with
  | [] => false
  | b :: _ => isPowerMark b

/-- A fraction, from its point on, and then the number. -/
def fraction (negative : Bool) (m : Nat) (e : Int) : Reader Number := do
  skip
  let rest ← get
  if atDigit rest then
    let (m, kept, rest) := fractionDigits m 0 false rest
    set rest
    if atPower rest then power negative m (e - kept) else float negative m (e - kept)
  else if rest.isEmpty then failNext .endOfValue
  else failNext .badNumber

/-- What follows the whole part of a number. -/
def afterWhole (negative : Bool) (m dropped : Nat) : Reader Number := do
  match ← get with
  | [] => ending
  | b :: _ =>
    if b == Mark.point then fraction negative m dropped
    else if isPowerMark b then power negative m dropped
    else ending
where
  /-- The number when there is neither a fraction nor a power. -/
  ending : Reader Number :=
    if dropped ≠ 0 then float negative m dropped
    else if !negative then return .natural m
    else if m = 0 ∨ Nat.pow 2 63 < m then return .float (-m.toUInt64.toFloat)
    else return .negative (-m)

/-- A number, at its minus or its first digit. -/
def number : Reader Number := do
  let negative := (← get).head? == some Mark.minus
  if negative then skip
  let first ← firstDigit .endOfValue
  let rest ← get
  if first = 0 then
    if atDigit rest then failNext .badNumber else afterWhole negative 0 0
  else
    let (m, dropped, rest) := wholeDigits first 0 rest
    set rest
    afterWhole negative m dropped

end Reader

end HeaderSchema
