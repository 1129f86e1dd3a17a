import HeaderSchema.Json.Basic

/-!
# Writing JSON

The compact form has no spaces. The laid-out form puts each item and member on
a line of its own, two spaces further in than the bracket that opens the list;
an empty array is `[]` and an empty object is a pair of braces. Texts escape
the quote, the backslash and the controls below U+0020, and nothing else.
-/

namespace HeaderSchema.Json

/-- A control below U+0020 that has no letter of its own. -/
def escapeControl (c : Char) : List Char :=
  let n := c.toNat
  ['\\', 'u', '0', '0', Nat.digitChar (n / 16), Nat.digitChar (n % 16)]

/-- How a character is written inside a JSON text. -/
def escapeChar (c : Char) : List Char :=
  if c == '"' then ['\\', '"']
  else if c == '\\' then ['\\', '\\']
  else if c == '\x08' then ['\\', 'b']
  else if c == '\x0c' then ['\\', 'f']
  else if c == '\n' then ['\\', 'n']
  else if c == '\r' then ['\\', 'r']
  else if c == '\t' then ['\\', 't']
  else if c.toNat < 0x20 then escapeControl c
  else [c]

def quote (text : String) : List Char :=
  '"' :: (text.toList.flatMap escapeChar ++ ['"'])

mutual

/-- The compact form of a document. -/
def compactChars : Json → List Char
  | .null => "null".toList
  | .boolean true => "true".toList
  | .boolean false => "false".toList
  | .number numeral => numeral.text
  | .string text => quote text
  | .array [] => "[]".toList
  | .array (x :: xs) => '[' :: (compactChars x ++ compactItems xs)
  | .object [] => ['\x7b', '\x7d']
  | .object ((k, x) :: ms) =>
    '\x7b' :: (quote k ++ ':' :: (compactChars x ++ compactMembers ms))

/-- The items after the first, and the closing bracket. -/
def compactItems : List Json → List Char
  | [] => [']']
  | x :: xs => ',' :: (compactChars x ++ compactItems xs)

/-- The members after the first, and the closing brace. -/
def compactMembers : List (String × Json) → List Char
  | [] => ['\x7d']
  | (k, x) :: ms => ',' :: (quote k ++ ':' :: (compactChars x ++ compactMembers ms))

end

/-- A new line, indented. -/
def newLine (depth : Nat) : List Char :=
  '\n' :: List.replicate (2 * depth) ' '

mutual

/-- The laid-out form of a document that stands at the given depth. -/
def prettyChars (depth : Nat) : Json → List Char
  | .null => "null".toList
  | .boolean true => "true".toList
  | .boolean false => "false".toList
  | .number numeral => numeral.text
  | .string text => quote text
  | .array [] => "[]".toList
  | .array (x :: xs) =>
    '[' :: (newLine (depth + 1) ++ prettyChars (depth + 1) x ++ prettyItems depth xs)
  | .object [] => ['\x7b', '\x7d']
  | .object ((k, x) :: ms) =>
    '\x7b' :: (newLine (depth + 1) ++ quote k ++ ':' :: ' ' ::
      (prettyChars (depth + 1) x ++ prettyMembers depth ms))

/-- The items after the first, and the closing bracket at the depth of the
array. -/
def prettyItems (depth : Nat) : List Json → List Char
  | [] => newLine depth ++ [']']
  | x :: xs =>
    ',' :: (newLine (depth + 1) ++ prettyChars (depth + 1) x ++ prettyItems depth xs)

/-- The members after the first, and the closing brace at the depth of the
object. -/
def prettyMembers (depth : Nat) : List (String × Json) → List Char
  | [] => newLine depth ++ ['\x7d']
  | (k, x) :: ms =>
    ',' :: (newLine (depth + 1) ++ quote k ++ ':' :: ' ' ::
      (prettyChars (depth + 1) x ++ prettyMembers depth ms))

end

def compact (document : Json) : String :=
  String.ofList (compactChars document)

/-- The laid-out form as a text, without a line end after it. -/
def pretty (document : Json) : String :=
  String.ofList (prettyChars 0 document)

end HeaderSchema.Json
