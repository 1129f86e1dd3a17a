import HeaderSchema.Json.Skip
import HeaderSchema.Shape.Basic

/-!
# Reading a value of a shape

`read` reads a document as a value of a shape, in one pass and without building
a tree. Records may be written as objects, with the fields in any order and
with other members between them, which are passed over; or as lists of their
fields in the order of their declaration. A choice is a word, or an object with
the word as its only key and `null` as its value.

The first argument of `read` bounds the depth and the length of the document. It
is large enough when it exceeds the number of unread bytes, because every step
into a value or on to the next one reads a byte; `Shape.parse` and
`Shape.parseOnly` supply it.
-/

namespace HeaderSchema

namespace Reader

/-! ## Leaves -/

/-- The fault of a value that is something else than expected. Words, numbers
and texts are read first and may have faults of their own. -/
def wrongType {α : Type} (expected : Expected) : Reader α := do
  match ← peek with
  | none => failNext .endOfValue
  | some b =>
    if b == Mark.n then do
      word nullTail
      failHere (.wrongType .null expected)
    else if b == Mark.t then do
      word trueTail
      failHere (.wrongType (.boolean true) expected)
    else if b == Mark.f then do
      word falseTail
      failHere (.wrongType (.boolean false) expected)
    else if b == Mark.minus || isDigit b then do
      let n ← number
      failHere (.wrongType n.found expected)
    else if b == Mark.quote then do
      let value ← text
      failHere (.wrongType (.text value) expected)
    else if b == Mark.openList then failHere (.wrongType .sequence expected)
    else if b == Mark.openObject then failHere (.wrongType .map expected)
    else failNext .valueExpected

def textValue : Reader String := do
  if (← peek) == some Mark.quote then text else wrongType .text

def booleanValue : Reader Bool := do
  match ← peek with
  | some 0x74 => do word trueTail; return true
  | some 0x66 => do word falseTail; return false
  | _ => wrongType .boolean

/-- A count: an integer that is not negative. -/
def countValue : Reader Nat := do
  match ← peek with
  | none => failNext .endOfValue
  | some b =>
    if b == Mark.minus || isDigit b then do
      match ← number with
      | .natural n => return n
      | .negative n => failHere (.negativeCount n)
      | .float x => failHere (.wrongType (.float x) .count)
    else
      wrongType .count

/-- The word `null`, where nothing else may stand. -/
def unitValue : Reader Unit := do
  if (← peek) == some Mark.n then word nullTail else wrongType .unit

/-- What a word of a choice stands for. -/
def variant (c : Choice) (name : String) : Reader c.Val :=
  match c.words.lookup name with
  | some value => return value
  | none => failHere (.unknownVariant name (c.words.map (·.1)))

/-- The key of an object that stands for a word. -/
def variantKey : Reader String := do
  match ← peek with
  | none => failNext .endOfObject
  | some b =>
    if b == Mark.quote then text
    else if b == Mark.closeObject then failNext .valueExpected
    else failNext .keyExpected

/-- A choice between words. -/
def choiceValue (c : Choice) : Reader c.Val := do
  match ← peek with
  | none => failNext .endOfValue
  | some b =>
    if b == Mark.quote then do
      variant c (← text)
    else if b == Mark.openObject then do
      skip
      let value ← variant c (← variantKey)
      colon
      unitValue
      match ← peek with
      | none => failHere .endOfObject
      | some b =>
        if b == Mark.closeObject then do
          skip
          return value
        else
          failHere .valueExpected
    else
      failNext .valueExpected

/-! ## Lists and tallies -/

/-- The items of a list up to its closing bracket, given those before them with
the last one first. -/
def items {α : Type} (item : Reader α) : Nat → Bool → List α → Reader (List α)
  | 0, _, _ => failNext .endOfList
  | n + 1, first, before => do
    if ← nextItem first then
      let x ← item
      items item n false (x :: before)
    else
      return before.reverse

def listValue {α : Type} (item : Reader α) (bound : Nat) : Reader (List α) := do
  if (← peek) == some Mark.openList then do
    skip
    let xs ← items item bound true []
    endList
    return xs
  else
    wrongType .sequence

/-- The members of a tally up to its closing brace. A name that comes again
replaces its count. -/
def tallyMembers : Nat → Bool → Tally → Reader Tally
  | 0, _, _ => failNext .endOfObject
  | n + 1, first, tally => do
    if ← nextMember first then
      let name ← text
      colon
      let k ← countValue
      tallyMembers n false (tally.set name k)
    else
      return tally

def tallyValue (bound : Nat) : Reader Tally := do
  if (← peek) == some Mark.openObject then do
    skip
    let tally ← tallyMembers bound true .empty
    endObject
    return tally
  else
    wrongType .map

/-! ## Records -/

/-- A value or `null`. -/
def nullable {α : Type} (value : Reader α) : Reader (Option α) := do
  if (← peek) == some Mark.n then do
    word nullTail
    return none
  else
    return some (← value)

def slotValue (value : (s : Shape) → Reader s.Val) : (slot : Slot) → Reader slot.Val
  | .plain s => value s
  | .nullable s => nullable (value s)

/-- The members of a record up to its closing brace. -/
def members (value : (s : Shape) → Reader s.Val) (fields : List Field) :
    Nat → Bool → Partial fields → Reader (Partial fields)
  | 0, _, _ => failNext .endOfObject
  | n + 1, first, values => do
    if ← nextMember first then
      let key ← text
      match Placed.find? key fields with
      | none =>
        colon
        skipValue n
        members value fields n false values
      | some ⟨field, place⟩ =>
        if (values.get place).isSome then
          failPastObject (.duplicateField key)
        else
          colon
          let x ← slotValue value field.slot
          members value fields n false (values.set place x)
    else
      return values

/-- A record written as an object, after its opening brace. -/
def objectValue (value : (s : Shape) → Reader s.Val) (r : Record) (bound : Nat) :
    Reader r.Val := do
  let values ← members value r.fields bound true (.empty r.fields)
  match values.complete Field.absentMember 0 with
  | .error (_, field) => failPastObject (.missingField field.key)
  | .ok values =>
    endObject
    return r.build values

/-- The items of a record that is written as a list. -/
def fieldItems (value : (s : Shape) → Reader s.Val) {fields : List Field} :
    List (Placed fields) → Bool → Partial fields → Reader (Partial fields)
  | [], _, values => return values
  | ⟨field, place⟩ :: rest, first, values => do
    if ← nextItem first then
      let x ← slotValue value field.slot
      fieldItems value rest false (values.set place x)
    else
      return values

/-- A record written as a list, after its opening bracket. -/
def positionalValue (value : (s : Shape) → Reader s.Val) (r : Record) : Reader r.Val := do
  let values ← fieldItems value (Placed.all r.fields) true (.empty r.fields)
  match values.complete Field.absentItem 0 with
  | .error (index, _) => failPastList (.tooShort index r.name r.fields.length)
  | .ok values =>
    endList
    return r.build values

def recordValue (value : (s : Shape) → Reader s.Val) (r : Record) (bound : Nat) :
    Reader r.Val := do
  let b ← peek
  if b == some Mark.openObject then do
    skip
    objectValue value r bound
  else if b == some Mark.openList then do
    skip
    positionalValue value r
  else
    wrongType (.record r.name)

def read : Nat → (s : Shape) → Reader s.Val
  | 0, _ => failNext .endOfValue
  | _ + 1, .text => textValue
  | _ + 1, .boolean => booleanValue
  | _ + 1, .count => countValue
  | n + 1, .tally => tallyValue n
  | n + 1, .list item => listValue (read n item) n
  | n + 1, .record r => recordValue (read n) r n
  | _ + 1, .choice c => choiceValue c

end Reader

namespace Shape

/-- The value that the input starts with, and what follows it. -/
def parse (s : Shape) (input : Bytes) : Except Fault (s.Val × Bytes) :=
  (Reader.read (input.length + 1) s).run input

/-- The value that the input holds, with nothing but white space around it. -/
def parseOnly (s : Shape) (input : Bytes) : Except Fault s.Val :=
  match s.parse input with
  | .error fault => .error fault
  | .ok (value, rest) =>
    match Reader.skipBlanks rest with
    | [] => .ok value
    | b :: rest => .error ⟨.trailingCharacters, (b :: rest).drop 1, 0⟩

end Shape

end HeaderSchema
