import HeaderSchema.Json.Fault

/-!
# Reading bytes

A reader takes the unread bytes and either answers with a value and what is
then unread, or with a fault. A fault is placed either where the reader stands
(`failHere`) or one byte further (`failNext`), the end of the input being its
own next place.

The readers here are those that every kind of value shares: white space, single
words, and the punctuation between the items of a list and the members of an
object.
-/

namespace HeaderSchema

/-! ## The bytes that punctuate a document -/

namespace Mark

abbrev quote : UInt8 := 0x22
abbrev backslash : UInt8 := 0x5C
abbrev comma : UInt8 := 0x2C
abbrev colon : UInt8 := 0x3A
abbrev openList : UInt8 := 0x5B
abbrev closeList : UInt8 := 0x5D
abbrev openObject : UInt8 := 0x7B
abbrev closeObject : UInt8 := 0x7D
abbrev minus : UInt8 := 0x2D
abbrev plus : UInt8 := 0x2B
abbrev point : UInt8 := 0x2E

/-- The first letter of `null`. -/
abbrev n : UInt8 := 0x6E

/-- The first letter of `true`. -/
abbrev t : UInt8 := 0x74

/-- The first letter of `false`. -/
abbrev f : UInt8 := 0x66

end Mark

/-- A reader of the unread bytes. -/
abbrev Reader := StateT Bytes (Except Fault)

/-! ## Faults -/

namespace Reader

variable {α : Type}

/-- A fault where the reader stands. -/
def failHere (cause : Cause) (back : Nat := 0) : Reader α := fun rest =>
  .error ⟨cause, rest, back⟩

/-- A fault one byte after the place where the reader stands. -/
def failNext (cause : Cause) : Reader α := fun rest =>
  .error ⟨cause, rest.drop 1, 0⟩

/-! ## Classes of bytes -/

/-- Space, tab, line feed and carriage return. -/
def isBlankByte (b : UInt8) : Bool :=
  b == 0x20 || b == 0x09 || b == 0x0A || b == 0x0D

def isDigit (b : UInt8) : Bool :=
  0x30 ≤ b && b ≤ 0x39

def digitValue (b : UInt8) : Nat :=
  b.toNat - 0x30

/-- The bytes from the first that is not blank on. -/
def skipBlanks (rest : Bytes) : Bytes :=
  rest.dropWhile isBlankByte

/-- The first byte that is not blank, which stays unread. -/
def peek : Reader (Option UInt8) := fun rest =>
  let rest := skipBlanks rest
  .ok (rest.head?, rest)

def skip : Reader Unit := fun rest =>
  .ok ((), rest.drop 1)

/-! ## Words -/

/-- What follows the first letter of `null`. -/
def nullTail : Bytes := [0x75, 0x6C, 0x6C]

/-- What follows the first letter of `true`. -/
def trueTail : Bytes := [0x72, 0x75, 0x65]

/-- What follows the first letter of `false`. -/
def falseTail : Bytes := [0x61, 0x6C, 0x73, 0x65]

/-- The rest of a word, byte by byte. -/
def letters : Bytes → Bytes → Except Fault (Unit × Bytes)
  | [], rest => .ok ((), rest)
  | _ :: _, [] => .error ⟨.endOfValue, [], 0⟩
  | w :: ws, b :: rest => if w == b then letters ws rest else .error ⟨.wordExpected, rest, 0⟩

/-- A word whose first letter has been seen but not read. -/
def word (tail : Bytes) : Reader Unit := fun rest =>
  letters tail (rest.drop 1)

/-! ## Lists and objects -/

/-- Before an item of a list: whether there is one. The bracket that ends the
list stays unread; a comma is read, and an item has to follow it. -/
def nextItem (first : Bool) : Reader Bool := do
  match ← peek with
  | none => failNext .endOfList
  | some b =>
    if b == Mark.closeList then return false
    else if first then return true
    else if b == Mark.comma then do
      skip
      match ← peek with
      | none => failNext .endOfValue
      | some b => if b == Mark.closeList then failNext .trailingComma else return true
    else failNext .listSeparatorExpected

/-- Before a member of an object: whether there is one. The brace that ends the
object stays unread, as does the quote that opens a key. -/
def nextMember (first : Bool) : Reader Bool := do
  match ← peek with
  | none => failNext .endOfObject
  | some b =>
    if b == Mark.closeObject then return false
    else if first then
      if b == Mark.quote then return true else failNext .keyExpected
    else if b == Mark.comma then do
      skip
      match ← peek with
      | none => failNext .endOfValue
      | some b =>
        if b == Mark.quote then return true
        else if b == Mark.closeObject then failNext .trailingComma
        else failNext .keyExpected
    else failNext .objectSeparatorExpected

def colon : Reader Unit := do
  match ← peek with
  | none => failNext .endOfObject
  | some b => if b == Mark.colon then skip else failNext .colonExpected

def endList : Reader Unit := do
  match ← peek with
  | none => failNext .endOfList
  | some b =>
    if b == Mark.closeList then skip
    else if b == Mark.comma then do
      skip
      match ← peek with
      | none => failNext .trailingCharacters
      | some b =>
        if b == Mark.closeList then failNext .trailingComma else failNext .trailingCharacters
    else failNext .trailingCharacters

def endObject : Reader Unit := do
  match ← peek with
  | none => failNext .endOfObject
  | some b =>
    if b == Mark.closeObject then skip
    else if b == Mark.comma then failNext .trailingComma
    else failNext .trailingCharacters

/-- Where a reader stands that looked for the end of a list, whether or not it
found it. -/
def pastList (rest : Bytes) : Bytes :=
  match skipBlanks rest with
  | [] => []
  | b :: r =>
    if b == Mark.closeList then r
    else if b == Mark.comma then skipBlanks r
    else b :: r

/-- Where a reader stands that looked for the end of an object, whether or not
it found it. -/
def pastObject (rest : Bytes) : Bytes :=
  match skipBlanks rest with
  | [] => []
  | b :: r => if b == Mark.closeObject then r else b :: r

/-- A fault of a list as a whole is placed after the list's end. -/
def failPastList (cause : Cause) : Reader α := fun rest =>
  .error ⟨cause, pastList rest, 0⟩

/-- A fault of an object as a whole is placed after the object's end. -/
def failPastObject (cause : Cause) : Reader α := fun rest =>
  .error ⟨cause, pastObject rest, 0⟩

end Reader

end HeaderSchema
