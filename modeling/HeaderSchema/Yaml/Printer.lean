import HeaderSchema.Json.Basic
import HeaderSchema.Text.Utf8
import HeaderSchema.Yaml.Scalar

/-!
# Writing YAML

A document in block style. The members of a map stand one below the other; a
map under a key is indented by two, a list under a key is not; what a list item
holds starts after its dash. Empty lists and maps are written in brackets.
-/

namespace HeaderSchema.Yaml

/-- A key that is too long or has a line break is written after a question mark. -/
def isLongKey (key : String) : Bool :=
  (Bytes.ofText key).length > 128 || key.toList.any isBreak

/-- A key with its colon; what follows starts after the colon. -/
def key (indent : Nat) (name : String) : List Char :=
  if isLongKey name then
    ['?', ' '] ++ scalarLine indent name ++ spaces indent ++ [':']
  else
    (scalarLine indent name).dropLast ++ [':']

mutual

/-- What follows a colon in a map with the given indent, to the end of its last line. -/
def underKey (indent : Nat) : Json → List Char
  | .null => " null\n".toList
  | .boolean true => " true\n".toList
  | .boolean false => " false\n".toList
  | .number numeral => ' ' :: (numeral.text ++ ['\n'])
  | .string text => ' ' :: scalarLine indent text
  | .array [] => " []\n".toList
  | .array (x :: xs) => '\n' :: (spaces indent ++ '-' :: (underDash indent x ++ items indent xs))
  | .object [] => [' ', '\x7b', '\x7d', '\n']
  | .object ((k, x) :: ms) =>
    '\n' :: (spaces (indent + 2) ++ key (indent + 2) k ++
      (underKey (indent + 2) x ++ members (indent + 2) ms))

/-- What follows a dash in a list with the given indent, to the end of its last line. -/
def underDash (indent : Nat) : Json → List Char
  | .null => " null\n".toList
  | .boolean true => " true\n".toList
  | .boolean false => " false\n".toList
  | .number numeral => ' ' :: (numeral.text ++ ['\n'])
  | .string text => ' ' :: scalarLine indent text
  | .array [] => " []\n".toList
  | .array (x :: xs) =>
    ' ' :: '-' :: (underDash (indent + 2) x ++ items (indent + 2) xs)
  | .object [] => [' ', '\x7b', '\x7d', '\n']
  | .object ((k, x) :: ms) =>
    ' ' :: (key (indent + 2) k ++ (underKey (indent + 2) x ++ members (indent + 2) ms))

/-- The items after the first. -/
def items (indent : Nat) : List Json → List Char
  | [] => []
  | x :: xs => spaces indent ++ '-' :: (underDash indent x ++ items indent xs)

/-- The members after the first. -/
def members (indent : Nat) : List (String × Json) → List Char
  | [] => []
  | (k, x) :: ms => spaces indent ++ key indent k ++ (underKey indent x ++ members indent ms)

end

/-- The document whose top is a map with the given members. -/
def document (ms : List (String × Json)) : String :=
  String.ofList (members 0 ms)

/-- The members of a map; other documents have none. -/
def topMembers : Json → List (String × Json)
  | .object ms => ms
  | _ => []

end HeaderSchema.Yaml
