/-!
# YAML scalars

How a text is written as a scalar of a block document. A plain scalar would do
for most texts; quotes are needed when the plain text would read back as null,
a truth value or a number, or when its characters would be taken for
punctuation. A text with line feeds is written as a literal block. What cannot
stand in any of these is escaped between double quotes.

Lines are never folded. A scalar inside a map or a list with indent `i` goes on,
after a line break of its own, at indent `i + 2`. A line feed is one of five line
breaks, and the only one that is written to end a line.
-/

namespace HeaderSchema.Yaml

/-! ## Classes of characters -/

/-- The line breaks. -/
def isBreak (c : Char) : Bool :=
  c == '\r' || c == '\n' || c == '\x85' || c == '\u2028' || c == '\u2029'

/-- Space, tab, NUL and the line breaks. -/
def isGap (c : Char) : Bool :=
  c == ' ' || c == '\t' || c.toNat == 0 || isBreak c

/-- The text ends here or goes on with a gap. -/
def gapNext : List Char → Bool
  | [] => true
  | c :: _ => isGap c

/-- The character can only be written as an escape. -/
def isSpecial (c : Char) : Bool :=
  let n := c.toNat
  !(c == '\n' || (0x20 ≤ n && n ≤ 0x7E) ||
    (0xA0 ≤ n && n != 0xFEFF && n != 0xFFFE && n != 0xFFFF))

/-- Two neighbours of which the first satisfies `p` and the second `q`. -/
def hasPair (p q : Char → Bool) : List Char → Bool
  | a :: b :: cs => (p a && q b) || hasPair p q (b :: cs)
  | _ => false

def spaceBreak (cs : List Char) : Bool :=
  hasPair (· == ' ') isBreak cs

def breakSpace (cs : List Char) : Bool :=
  hasPair isBreak (· == ' ') cs

/-- The marks that a plain scalar cannot start with. -/
def startMarks : List Char :=
  ['#', ',', '[', ']', '\x7b', '\x7d', '&', '*', '!', '|', '>', '\'', '"', '%', '@', '\x60']

/-- The marks that a plain scalar cannot start with if a gap follows. -/
def startMarksBeforeGap : List Char :=
  ['?', ':', '-']

/-- After the first character: a colon before a gap, or a number sign after one. -/
def hasInnerMark (afterGap : Bool) : List Char → Bool
  | [] => false
  | c :: cs =>
    (c == ':' && gapNext cs) || (c == '#' && afterGap) || hasInnerMark (isGap c) cs

/-- The plain text would be taken for punctuation. -/
def hasIndicator (cs : List Char) : Bool :=
  ['-', '-', '-'].isPrefixOf cs || ['.', '.', '.'].isPrefixOf cs ||
    match cs with
    | [] => false
    | c :: rest =>
      startMarks.contains c || (startMarksBeforeGap.contains c && gapNext rest) ||
        hasInnerMark (isGap c) rest

/-! ## Texts that read back as something else -/

/-- The value of a digit in any base up to sixteen. -/
def digitValue? (c : Char) : Option Nat :=
  let n := c.toNat
  if 0x30 ≤ n ∧ n ≤ 0x39 then some (n - 0x30)
  else if 0x61 ≤ n ∧ n ≤ 0x66 then some (n - 0x57)
  else if 0x41 ≤ n ∧ n ≤ 0x46 then some (n - 0x37)
  else none

/-- The number that digits of a base spell; at least one digit is needed. -/
def numberIn? (base : Nat) (cs : List Char) : Option Nat :=
  if cs.isEmpty then none
  else
    cs.foldl (fun n? c =>
      match n?, digitValue? c with
      | some n, some d => if d < base then some (n * base + d) else none
      | _, _ => none) (some 0)

/-- A natural number in decimal, or after a mark in another base. -/
def natural? : List Char → Option Nat
  | '0' :: 'x' :: cs => numberIn? 16 cs
  | '0' :: 'o' :: cs => numberIn? 8 cs
  | '0' :: 'b' :: cs => numberIn? 2 cs
  | cs => numberIn? 10 cs

/-- The text without a plus or a minus before it. -/
def unsigned : List Char → List Char
  | '+' :: cs => cs
  | '-' :: cs => cs
  | cs => cs

def isDigit (c : Char) : Bool :=
  '0' ≤ c && c ≤ '9'

def isPaddedNumber (cs : List Char) : Bool :=
  match unsigned cs with
  | '0' :: d :: ds => isDigit d && ds.all isDigit
  | _ => false

/-- An integer of at most 128 bits. -/
def isInteger : List Char → Bool
  | '-' :: cs =>
    match natural? cs with
    | some n => n ≤ Nat.pow 2 127
    | none => false
  | '+' :: cs =>
    match natural? cs with
    | some n => n < Nat.pow 2 128
    | none => false
  | cs =>
    match natural? cs with
    | some n => n < Nat.pow 2 128
    | none => false

/-- The exponent after the digits of a decimal number: none is zero. -/
def exponent? : List Char → Option Int
  | [] => some 0
  | c :: cs =>
    if c == 'e' || c == 'E' then
      match cs with
      | '-' :: ds => (numberIn? 10 ds).map fun n => -(n : Int)
      | '+' :: ds => (numberIn? 10 ds).map fun n => (n : Int)
      | ds => (numberIn? 10 ds).map fun n => (n : Int)
    else
      none

/-- A decimal number without its sign: its digits, and the power of ten of the
last one. -/
def decimal? (cs : List Char) : Option (Nat × Int) :=
  let whole := cs.takeWhile isDigit
  let rest := cs.dropWhile isDigit
  let (fraction, rest) :=
    match rest with
    | '.' :: rest => (rest.takeWhile isDigit, rest.dropWhile isDigit)
    | rest => ([], rest)
  match numberIn? 10 (whole ++ fraction), exponent? rest with
  | some m, some e => some (m, e - fraction.length)
  | _, _ => none

/-- The decimal `m · 10 ^ e` rounds to a finite double: it is below the middle
of the largest double and the next power of two. -/
def isFinite (m : Nat) (e : Int) : Bool :=
  let size : Int := (Nat.toDigits 10 m).length + e
  if m = 0 ∨ size < 308 then true
  else if 310 < size then false
  else m * Nat.pow 10 e.toNat < (Nat.pow 2 1024 - Nat.pow 2 970) * Nat.pow 10 (-e).toNat

def isWord (words : List String) (cs : List Char) : Bool :=
  words.any fun word => word.toList == cs

def isFloat (cs : List Char) : Bool :=
  isWord [".inf", ".Inf", ".INF"] (unsigned cs) || isWord [".nan", ".NaN", ".NAN"] cs ||
    match decimal? (unsigned cs) with
    | some (m, e) => isFinite m e
    | none => false

/-- The plain text would read back as null, a truth value or a number. -/
def isAmbiguous (cs : List Char) : Bool :=
  cs.isEmpty ||
    isWord ["null", "Null", "NULL", "~", "true", "True", "TRUE", "false", "False", "FALSE"] cs ||
    isPaddedNumber cs || isInteger cs || isFloat cs

/-! ## Styles -/

inductive Style where
  | plain
  | single
  | double
  | literal
deriving Repr, DecidableEq

/-- The text starts with a space or a line break. -/
def startsLoose (cs : List Char) : Bool :=
  match cs with
  | [] => false
  | c :: _ => c == ' ' || isBreak c

def plainRefused (cs : List Char) : Bool :=
  startsLoose cs || startsLoose cs.reverse || cs.any isBreak || breakSpace cs || spaceBreak cs ||
    cs.any isSpecial || hasIndicator cs

def singleRefused (cs : List Char) : Bool :=
  breakSpace cs || spaceBreak cs || cs.any isSpecial

def literalRefused (cs : List Char) : Bool :=
  cs.getLast? == some ' ' || spaceBreak cs || cs.any isSpecial

def style (cs : List Char) : Style :=
  if cs.contains '\n' then
    if literalRefused cs then .double else .literal
  else if isAmbiguous cs || plainRefused cs then
    if singleRefused cs then .double else .single
  else
    .plain

/-! ## Writing -/

def spaces (n : Nat) : List Char :=
  List.replicate n ' '

/-- The characters, with the indent before the first that follows a line break. -/
def indented (indent : Nat) (quoted : Char → List Char) (atStart : Bool) : List Char → List Char
  | [] => []
  | c :: cs =>
    if isBreak c then c :: indented indent quoted true cs
    else
      (if atStart then spaces indent else []) ++ quoted c ++ indented indent quoted false cs

def endsWithBreak (cs : List Char) : Bool :=
  match cs.getLast? with
  | some c => isBreak c
  | none => false

/-- Between single quotes; a quote is written twice. -/
def single (indent : Nat) (cs : List Char) : List Char :=
  let body := indented (indent + 2) (fun c => if c == '\'' then ['\'', '\''] else [c]) false cs
  '\'' :: (body ++ (if endsWithBreak cs then spaces (indent + 2) else []) ++ ['\''])

/-- A number in upper-case hexadecimal digits, padded with zeros. -/
def hex (width n : Nat) : List Char :=
  let digits := (Nat.toDigits 16 n).map Char.toUpper
  List.replicate (width - digits.length) '0' ++ digits

/-- How a character is written between double quotes. -/
def escape (c : Char) : List Char :=
  let n := c.toNat
  if n == 0 then ['\\', '0']
  else if n == 0x07 then ['\\', 'a']
  else if n == 0x08 then ['\\', 'b']
  else if n == 0x09 then ['\\', 't']
  else if n == 0x0A then ['\\', 'n']
  else if n == 0x0B then ['\\', 'v']
  else if n == 0x0C then ['\\', 'f']
  else if n == 0x0D then ['\\', 'r']
  else if n == 0x1B then ['\\', 'e']
  else if c == '"' then ['\\', '"']
  else if c == '\\' then ['\\', '\\']
  else if n == 0x85 then ['\\', 'N']
  else if n == 0x2028 then ['\\', 'L']
  else if n == 0x2029 then ['\\', 'P']
  else if isSpecial c then
    if n ≤ 0xFF then '\\' :: 'x' :: hex 2 n
    else '\\' :: 'u' :: hex 4 n
  else [c]

def double (cs : List Char) : List Char :=
  '"' :: (cs.flatMap escape ++ ['"'])

/-- The hints after the bar of a literal block: the indent, if the text starts
with a space or a line break, and what becomes of the line breaks at its end. -/
def literalHints (cs : List Char) : List Char :=
  let indent := if startsLoose cs then ['2'] else []
  let ending :=
    match cs.reverse with
    | [] => ['-']
    | [c] => if isBreak c then ['+'] else ['-']
    | c :: d :: _ => if !isBreak c then ['-'] else if isBreak d then ['+'] else []
  indent ++ ending

/-- A literal block, after its bar. -/
def literal (indent : Nat) (cs : List Char) : List Char :=
  '|' :: (literalHints cs ++ '\n' :: indented (indent + 2) (fun c => [c]) true cs)

/-- A text as a scalar of a map or list with the given indent, and a line feed after
it; a literal block that ends with a line break has none but its own characters. -/
def scalarLine (indent : Nat) (text : String) : List Char :=
  let cs := text.toList
  match style cs with
  | .plain => cs ++ ['\n']
  | .single => single indent cs ++ ['\n']
  | .double => double cs ++ ['\n']
  | .literal => literal indent cs ++ (if endsWithBreak cs then [] else ['\n'])

end HeaderSchema.Yaml
