/-!
# Control sequences

A terminal keeps some characters to itself: controls, and the sequences that an
escape character opens. `plain` leaves them out of a text that is shown where
there is no terminal.

A sequence goes on until its last character, which its kind decides: a letter
for most, a bell for an operating system command, a string terminator for the
other strings. An escape character opens the next sequence, and a cancel or a
substitute breaks a sequence off. The controls that are white space belong to
the text, also within a sequence that is no string; what follows such a control
shows until the next control, which takes the sequence up again.
-/

namespace HeaderSchema.Control

/-- Where in a sequence a reader is. -/
inductive Place where
  /-- In no sequence. -/
  | outside
  /-- Behind the escape character. -/
  | escape
  /-- Behind the escape character and an intermediate character. -/
  | escapeIntermediate
  /-- In a control sequence, before its final letter. -/
  | control
  /-- Behind the opening of a device control string. -/
  | device
  /-- Among the parameters of a device control string. -/
  | deviceParameters
  /-- Behind an intermediate character of a device control string. -/
  | deviceIntermediate
  /-- In a string that a string terminator closes. -/
  | string
  /-- In an operating system command, which a bell closes. -/
  | command
deriving Repr, DecidableEq

/-- The character lies between two code points, both included. -/
def within (first last : Nat) (c : Char) : Bool :=
  first ≤ c.toNat && c.toNat ≤ last

/-- A character that stands between an opening and a final character. -/
def isIntermediate (c : Char) : Bool :=
  within 0x20 0x2F c

/-- A final character of a control sequence. -/
def isFinal (c : Char) : Bool :=
  within 0x40 0x7E c

/-- The controls that are white space: tab, line feed, form feed and return. -/
def isSpacing (c : Char) : Bool :=
  c == '\t' || c == '\n' || c == '\x0c' || c == '\r'

/-- The other controls of ASCII, delete included. -/
def isBare (c : Char) : Bool :=
  (c.toNat < 0x20 && !isSpacing c) || c.toNat == 0x7F

/-- A byte of the character is the string terminator 9C. -/
def hasTerminator (c : Char) : Bool :=
  let n := c.toNat
  (0x80 ≤ n && n % 0x40 == 0x1C) ||
  (0x800 ≤ n && n / 0x40 % 0x40 == 0x1C) ||
  (0x10000 ≤ n && n / 0x1000 % 0x40 == 0x1C)

namespace Place

/-- White space shows in this place. -/
def showsSpacing : Place → Bool
  | .outside | .escape | .escapeIntermediate | .control => true
  | .device | .deviceParameters | .deviceIntermediate | .string | .command => false

/-- The place behind the character that follows the escape character. -/
def ofOpening (c : Char) : Place :=
  if c == '[' then .control
  else if c == ']' then .command
  else if c == 'P' then .device
  else if c == 'X' || c == '^' || c == '_' then .string
  else if isIntermediate c then .escapeIntermediate
  else if within 0x30 0x7E c then .outside
  else .escape

/-- The place behind a character of the sequence. -/
def next (place : Place) (c : Char) : Place :=
  match place with
  | .outside => .outside
  | .escape => ofOpening c
  | .escapeIntermediate => if within 0x30 0x7E c then .outside else .escapeIntermediate
  | .control => if isFinal c then .outside else .control
  | .device =>
    if isIntermediate c then .deviceIntermediate
    else if within 0x30 0x3F c then .deviceParameters
    else if isFinal c then .string
    else .device
  | .deviceParameters =>
    if isIntermediate c then .deviceIntermediate
    else if within 0x3C 0x7E c then .string
    else .deviceParameters
  | .deviceIntermediate => if within 0x30 0x7E c then .string else .deviceIntermediate
  | .string => if hasTerminator c then .outside else .string
  | .command => if c == '\x07' then .outside else .command

end Place

/-- A reader of text: its place, and whether white space within the sequence
has let the text show again. -/
structure Reader where
  place : Place
  shows : Bool
deriving Repr, DecidableEq

namespace Reader

/-- A reader in no sequence. -/
def start : Reader := ⟨.outside, false⟩

/-- The reader behind a character, and whether the character shows. -/
def step (r : Reader) (c : Char) : Reader × Bool :=
  if c == '\x1b' then (⟨.escape, false⟩, false)
  else if c == '\x18' || c == '\x1a' then (start, false)
  else if r.shows || r.place = .outside then
    if isBare c then (⟨r.place, false⟩, false)
    else if c.toNat < 0x80 then (r, true)
    else (start, true)
  else if r.place.showsSpacing && isSpacing c then (⟨r.place, true⟩, true)
  else (⟨r.place.next c, false⟩, false)

/-- The characters that show. -/
def plain (r : Reader) : List Char → List Char
  | [] => []
  | c :: cs =>
    match r.step c with
    | (r, true) => c :: plain r cs
    | (r, false) => plain r cs

/-- No control shows, white space apart. -/
theorem isBare_of_step {r r' : Reader} {c : Char} (h : r.step c = (r', true)) :
    isBare c = false := by
  unfold step at h
  split at h
  · simp at h
  · split at h
    · simp at h
    · split at h
      · split at h
        · simp at h
        · simp_all
      · split at h
        · rename_i hs
          simp only [Bool.and_eq_true, isSpacing, Bool.or_eq_true, beq_iff_eq] at hs
          rcases hs.2 with ((rfl | rfl) | rfl) | rfl <;> rfl
        · simp at h

/-- Outside a sequence, all but the controls shows. -/
theorem step_start {c : Char} (h : isBare c = false) : start.step c = (start, true) := by
  have hne (d : Char) (hd : isBare d = true) : (c == d) = false := by
    rw [beq_eq_false_iff_ne]
    rintro rfl
    simp_all
  simp [step, start, h, hne '\x1b' rfl, hne '\x18' rfl, hne '\x1a' rfl]

theorem isBare_of_mem_plain {r : Reader} {cs : List Char} {c : Char} (h : c ∈ r.plain cs) :
    isBare c = false := by
  induction cs generalizing r with
  | nil => simp [plain] at h
  | cons d cs ih =>
    rw [plain] at h
    split at h
    · rename_i hd
      rcases List.mem_cons.1 h with rfl | h
      · exact isBare_of_step hd
      · exact ih h
    · exact ih h

theorem plain_start {cs : List Char} (h : ∀ c ∈ cs, isBare c = false) : start.plain cs = cs := by
  induction cs with
  | nil => rfl
  | cons c cs ih =>
    rw [plain, step_start (h c List.mem_cons_self)]
    simp [ih fun d hd => h d (List.mem_cons_of_mem c hd)]

end Reader

/-- The text without its control sequences, white space apart. -/
def plain (text : String) : String :=
  String.ofList (Reader.start.plain text.toList)

/-- What is plain stays as it is. -/
theorem plain_plain (text : String) : plain (plain text) = plain text := by
  simp only [plain, String.toList_ofList]
  rw [Reader.plain_start fun c hc => Reader.isBare_of_mem_plain hc]

end HeaderSchema.Control
