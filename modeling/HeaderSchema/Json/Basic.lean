/-!
# JSON documents

A document is a tree. Numbers are kept as they are spelled, since a document
that is only passed over may hold numbers of any size; members of an object
keep their order and may repeat a key.
-/

namespace HeaderSchema

/-- The power of ten at the end of a number: the letter in lower or upper case,
an optional sign, and one or more digits. -/
structure Power where
  upper : Bool
  sign : Option Bool
  first : Fin 10
  others : List (Fin 10)
deriving Repr, DecidableEq

/-- A number as it is spelled: an optional minus, a whole part without leading
zeros, the digits after the point if there is one, and an optional power. -/
structure Numeral where
  negative : Bool
  whole : Nat
  fraction : List (Fin 10)
  power : Option Power
deriving Repr, DecidableEq

/-- The digit as a character. -/
def digitChar (d : Fin 10) : Char :=
  Nat.digitChar d

/-- The spelling of a power of ten; a sign is `true` for plus. -/
def Power.text (p : Power) : List Char :=
  (if p.upper then 'E' else 'e') ::
    ((match p.sign with
      | none => []
      | some true => ['+']
      | some false => ['-']) ++ digitChar p.first :: p.others.map digitChar)

/-- The spelling of a number. -/
def Numeral.text (n : Numeral) : List Char :=
  (if n.negative then ['-'] else []) ++ Nat.toDigits 10 n.whole ++
    (if n.fraction.isEmpty then [] else '.' :: n.fraction.map digitChar) ++
    (match n.power with
      | none => []
      | some p => p.text)

/-- A count, spelled by its digits. -/
def Numeral.ofNat (n : Nat) : Numeral :=
  ⟨false, n, [], none⟩

/-- A JSON document. -/
inductive Json where
  | null
  | boolean (value : Bool)
  | number (numeral : Numeral)
  | string (text : String)
  | array (items : List Json)
  | object (members : List (String × Json))

namespace Json

/-- The document that holds a count. -/
def count (n : Nat) : Json :=
  .number (.ofNat n)

/-- A text, or `null` when there is none. -/
def optional : Option String → Json
  | none => .null
  | some text => .string text

end Json

end HeaderSchema
