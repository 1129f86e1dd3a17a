import HeaderSchema.Json.Number
import HeaderSchema.Json.Text

/-!
# Passing over values

A value under a key that nobody asked for is checked and dropped. It may be
nested without limit, so the brackets that are still open are kept in a list.
The rules are those of reading, with less to check: no pairing of surrogates,
no UTF-8, no range of numbers; and a comma directly before a closing bracket is
found to be a missing item or key.
-/

namespace HeaderSchema.Reader

/-! ## Texts and numbers -/

/-- What the next byte of a text belongs to when the text is dropped: plain
text, an escape, or the digits of a code unit, of which some were read. -/
inductive SkipState where
  | plain
  | escape
  | digits (read : Bytes)

/-- The bytes after the closing quote of a text. -/
def skipTextBytes (state : SkipState) : Bytes → Except Fault Bytes
  | [] => .error ⟨.endOfText, [], 0⟩
  | b :: rest =>
    match state with
    | .plain =>
      if b == Mark.quote then .ok rest
      else if b == Mark.backslash then skipTextBytes .escape rest
      else if b < 0x20 then .error ⟨.controlCharacter, b :: rest, 0⟩
      else skipTextBytes .plain rest
    | .escape =>
      if b == unitMark then skipTextBytes (.digits []) rest
      else if (escaped? b).isSome then skipTextBytes .plain rest
      else .error ⟨.badEscape, rest, 0⟩
    | .digits read =>
      if read.length < 3 then skipTextBytes (.digits (b :: read)) rest
      else if (hexNumber? (b :: read)).isSome then skipTextBytes .plain rest
      else .error ⟨.badEscape, rest, 0⟩

/-- Passes over a text, at its opening quote. -/
def skipText : Reader Unit := fun rest =>
  match skipTextBytes .plain (rest.drop 1) with
  | .ok rest => .ok ((), rest)
  | .error fault => .error fault

/-- Passes over the digits that are next. -/
def passDigits : Reader Unit := fun rest =>
  .ok ((), skipDigits rest)

/-- Passes over a power of ten, from its letter on. -/
def skipPower : Reader Unit := do
  skip
  let _ ← powerSign
  let _ ← firstDigit .badNumber
  passDigits

/-- Passes over what follows the whole part of a number. -/
def skipAfterWhole : Reader Unit := do
  match ← get with
  | [] => return ()
  | b :: _ =>
    if b == Mark.point then do
      skip
      if !atDigit (← get) then failNext .badNumber
      passDigits
      if atPower (← get) then skipPower
    else if isPowerMark b then skipPower

/-- Passes over a number, at its minus or its first digit. -/
def skipNumber : Reader Unit := do
  if (← get).head? == some Mark.minus then skip
  let first ← firstDigit .badNumber
  if first = 0 then
    if atDigit (← get) then failNext .badNumber
  else passDigits
  skipAfterWhole

/-! ## Nested values -/

inductive Bracket where
  | list
  | object
deriving DecidableEq

def Bracket.closing : Bracket → UInt8
  | .list => Mark.closeList
  | .object => Mark.closeObject

/-- The fault when the input ends between brackets. -/
def Bracket.endCause : Bracket → Cause
  | .list => .endOfList
  | .object => .endOfObject

/-- The fault when neither a comma nor the closing byte follows. -/
def Bracket.separatorCause : Bracket → Cause
  | .list => .listSeparatorExpected
  | .object => .objectSeparatorExpected

/-- Passes over a word, a number or a text, or over a bracket that opens: which
one, if so. -/
def skipStart : Reader (Option Bracket) := do
  match ← peek with
  | none => failNext .endOfValue
  | some b =>
    if b == Mark.quote then do skipText; return none
    else if b == Mark.openObject then do skip; return some .object
    else if b == Mark.openList then do skip; return some .list
    else if b == Mark.minus || isDigit b then do skipNumber; return none
    else if b == Mark.n then do word nullTail; return none
    else if b == Mark.t then do word trueTail; return none
    else if b == Mark.f then do word falseTail; return none
    else failNext .valueExpected

/-- Passes over the brackets that close here, and over the comma before another
item if one is due: the brackets that are then still open, innermost first. A
bracket that was just opened (`fresh`) may close at once and takes no comma. -/
def closeBrackets : Bool → List Bracket → Reader (List Bracket)
  | _, [] => return []
  | fresh, b :: outer => do
    match ← peek with
    | none => failNext b.endCause
    | some c =>
      if c == b.closing then do skip; closeBrackets false outer
      else if fresh then return b :: outer
      else if c == Mark.comma then do skip; return b :: outer
      else failNext b.separatorCause

/-- Passes over a key and its colon. -/
def skipKey : Reader Unit := do
  match ← peek with
  | none => failNext .endOfObject
  | some b =>
    if b == Mark.quote then do skipText; colon
    else failNext .keyExpected

/-- Passes over values until no bracket is open. The first argument bounds the
number of values and is large enough when it is the number of unread bytes. -/
def skipNested : Nat → List Bracket → Reader Unit
  | 0, _ => failNext .endOfValue
  | n + 1, outer => do
    let still ← (do
      match ← skipStart with
      | none => closeBrackets false outer
      | some b => closeBrackets true (b :: outer))
    match still with
    | [] => return ()
    | .list :: _ => skipNested n still
    | .object :: _ => do skipKey; skipNested n still

def skipValue (bound : Nat) : Reader Unit :=
  skipNested bound []

end HeaderSchema.Reader
