/-!
# The shortest decimal that reads back

A finite binary floating-point number is `m · 2 ^ q`. Among the decimals that
round to it, `shortest` picks one with the fewest digits and, of those, the one
nearest to the number; a tie goes to the even last digit. For each number of
digits it tests the two neighbours of the number on that decimal grid, which is
enough: if any point of a grid rounds to the number, a neighbour does.

All arithmetic is on natural numbers. A scale `s` stands for the unit
`10 ^ s`; numbers and bounds are compared after both sides are multiplied by
the powers of two and ten that make them whole.
-/

namespace HeaderSchema.Decimal

/-- A positive binary number `significand · 2 ^ exponent`, with the distances
to the middle points between it and its neighbours, in quarters of the unit
`2 ^ exponent`, and whether those middle points round to it. -/
structure Binary where
  significand : Nat
  exponent : Int
  below : Nat
  above : Nat
  isEven : Bool

/-- The magnitude of a double, unless it is zero, infinite or no number. -/
def Binary.ofBits? (bits : UInt64) : Option Binary :=
  let word : Nat := bits.toNat
  let field : Nat := word / Nat.pow 2 52 % Nat.pow 2 11
  let fraction : Nat := word % Nat.pow 2 52
  if field = 2047 then
    none
  else if field = 0 then
    if fraction = 0 then none
    else some ⟨fraction, -1074, 2, 2, fraction % 2 = 0⟩
  else
    let m := fraction + Nat.pow 2 52
    some ⟨m, (field : Int) - 1075, if fraction = 0 ∧ field > 1 then 1 else 2, 2, m % 2 = 0⟩

/-- A decimal `digits · 10 ^ exponent`. -/
structure Scaled where
  digits : Nat
  exponent : Int
deriving Repr, DecidableEq

/-- The number in quarters of `2 ^ exponent` over a unit of `10 ^ scale`, as a
fraction of two whole numbers. -/
def Binary.ratio (b : Binary) (quarters : Nat) (scale : Int) : Nat × Nat :=
  (quarters * Nat.pow 2 b.exponent.toNat * Nat.pow 10 (-scale).toNat,
    4 * Nat.pow 2 (-b.exponent).toNat * Nat.pow 10 scale.toNat)

/-- The point `n · 10 ^ scale` rounds to the number. -/
def Binary.admits (b : Binary) (scale : Int) (n : Nat) : Bool :=
  let (low, unit) := b.ratio (4 * b.significand - b.below) scale
  let (high, _) := b.ratio (4 * b.significand + b.above) scale
  if b.isEven then
    decide (low ≤ n * unit ∧ n * unit ≤ high)
  else
    decide (low < n * unit ∧ n * unit < high)

/-- The grid point of `10 ^ scale` that rounds to the number and is nearest to
it, if there is one. -/
def Binary.nearest? (b : Binary) (scale : Int) : Option Nat :=
  let (value, unit) := b.ratio (4 * b.significand) scale
  let down := value / unit
  let up := down + 1
  let toDown := value - down * unit
  let toUp := up * unit - value
  match b.admits scale down && decide (0 < down), b.admits scale up with
  | true, true =>
    some (if toDown < toUp then down
      else if toUp < toDown then up
      else if down % 2 = 0 then down else up)
  | true, false => some down
  | false, true => some up
  | false, false => none

/-- Whether `10 ^ p` is at most the number. -/
def Binary.reaches (b : Binary) (p : Int) : Bool :=
  let (value, unit) := b.ratio (4 * b.significand) p
  decide (unit ≤ value)

/-- The exponent of the number's first digit: the largest `p ≤ start` with
`10 ^ p` at most the number. -/
def Binary.leading (b : Binary) : Nat → Int → Int
  | 0, p => p
  | n + 1, p => if b.reaches p then p else b.leading n (p - 1)

/-- The first grid with a hit, from one digit on. -/
def Binary.search (b : Binary) (leading : Int) : Nat → Nat → Option Scaled
  | 0, _ => none
  | n + 1, digits =>
    let scale := leading - (digits : Int) + 1
    match b.nearest? scale with
    | some d => some ⟨d, scale⟩
    | none => b.search leading n (digits + 1)

/-- The decimal without zeros at the end of its digits. -/
def Scaled.trim : Nat → Scaled → Scaled
  | 0, s => s
  | n + 1, s =>
    if s.digits % 10 = 0 ∧ s.digits ≠ 0 then
      Scaled.trim n ⟨s.digits / 10, s.exponent + 1⟩
    else
      s

/-- The shortest decimal that rounds to the number. -/
def Binary.shortest (b : Binary) : Scaled :=
  let leading := b.leading 640 310
  match b.search leading 17 1 with
  | some s => s.trim 20
  | none => ⟨0, 0⟩

/-- How a decimal is laid out. -/
structure Layout where
  /-- The least exponent of the first digit that is written without a power. -/
  least : Int
  /-- The first exponent above them that needs a power again. -/
  bound : Int

/-- The digits of a positive decimal, positional or with a power of ten. A
positional number always has a point, one with a power only between digits. -/
def Layout.text (l : Layout) (s : Scaled) : String :=
  let digits := Nat.toDigits 10 s.digits
  let leading : Int := s.exponent + digits.length - 1
  if l.least ≤ leading ∧ leading < l.bound then
    if leading < 0 then
      String.ofList ("0.".toList ++ List.replicate ((-leading).toNat - 1) '0' ++ digits)
    else
      let whole := leading.toNat + 1
      let padded := digits ++ List.replicate (whole - digits.length) '0'
      let fraction := padded.drop whole
      String.ofList
        (padded.take whole ++ ['.'] ++ (if fraction.isEmpty then ['0'] else fraction))
  else
    let power := (if leading < 0 then "e-" else "e+") ++ toString leading.natAbs
    let mantissa :=
      match digits with
      | d :: e :: ds => d :: '.' :: e :: ds
      | ds => ds
    String.ofList mantissa ++ power

/-- Numbers are positional from `1e-5` up to below `1e16`. -/
def plainLayout : Layout := ⟨-5, 16⟩

/-- The text of a finite double: its shortest digits after its sign. -/
def floatText (x : Float) : String :=
  let bits := x.toBits
  let sign := if bits.toNat < Nat.pow 2 63 then "" else "-"
  match Binary.ofBits? bits with
  | some b => sign ++ plainLayout.text b.shortest
  | none => sign ++ "0.0"

end HeaderSchema.Decimal
