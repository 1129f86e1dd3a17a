import HeaderSchema.Json.Printer
import HeaderSchema.Json.Text

/-!
# How documents may be spelled

A document has many spellings: any white space may stand between its tokens, and
a character of a text may stand for itself, after a backslash, or by its code
units. `Json.Spelled` says which lists of characters spell a document. A number
is spelled as it is kept, and the members of an object in their order; a
document whose members are in another order is another document
(`Json.Reordered`).

The two printers spell the document that they print (`spelled_compact`,
`spelled_pretty`).
-/

namespace HeaderSchema

/-! ## Texts -/

/-- The characters that a letter after a backslash stands for. -/
def escapeLetters : List (Char × Char) :=
  [('"', '"'), ('\\', '\\'), ('/', '/'), ('b', '\x08'), ('f', '\x0c'), ('n', '\n'),
    ('r', '\r'), ('t', '\t')]

/-- A hexadecimal digit of either case. -/
def IsHexDigit (d : Nat) (c : Char) : Prop :=
  d < 16 ∧ (c = Nat.digitChar d ∨ c = (Nat.digitChar d).toUpper)

/-- Four hexadecimal digits that spell a code unit. -/
inductive HexUnit : Nat → List Char → Prop
  | mk {a b c d : Nat} {p q r s : Char} (ha : IsHexDigit a p) (hb : IsHexDigit b q)
      (hc : IsHexDigit c r) (hd : IsHexDigit d s) :
      HexUnit (((a * 16 + b) * 16 + c) * 16 + d) [p, q, r, s]

/-- A character inside a text. Beyond the first plane its code units are a pair
of surrogates. -/
inductive CharSpelled (c : Char) : List Char → Prop
  | plain (hcontrol : 0x20 ≤ c.toNat) (hquote : c ≠ '"') (hbackslash : c ≠ '\\') :
      CharSpelled c [c]
  | letter {l : Char} (h : (l, c) ∈ escapeLetters) : CharSpelled c ['\\', l]
  | unit {t : List Char} (h : HexUnit c.toNat t) : CharSpelled c ('\\' :: 'u' :: t)
  | pair {t t' : List Char} (hplane : 0x10000 ≤ c.toNat)
      (hhigh : HexUnit (0xD800 + (c.toNat - 0x10000) / 0x400) t)
      (hlow : HexUnit (0xDC00 + (c.toNat - 0x10000) % 0x400) t') :
      CharSpelled c ('\\' :: 'u' :: (t ++ '\\' :: 'u' :: t'))

/-- The characters between the quotes of a text. -/
inductive TextSpelled : List Char → List Char → Prop
  | nil : TextSpelled [] []
  | cons {c : Char} {cs s t : List Char} (hc : CharSpelled c s) (hcs : TextSpelled cs t) :
      TextSpelled (c :: cs) (s ++ t)

/-! ## Documents -/

/-- White space between tokens. -/
def IsGap (w : List Char) : Prop :=
  ∀ c ∈ w, c = ' ' ∨ c = '\t' ∨ c = '\n' ∨ c = '\r'

/-- What stands before an item or a member: a comma, unless it is the first. -/
inductive Separator : Bool → List Char → Prop
  | first {w : List Char} (hw : IsGap w) : Separator true w
  | comma {w w' : List Char} (hw : IsGap w) (hw' : IsGap w') :
      Separator false (w ++ ',' :: w')

/-- A part of a document: a whole document, or the rest of an array or of an
object up to and including its closing bracket. A rest is `first` when nothing
stands between it and the opening bracket. -/
inductive Json.Part where
  | value (document : Json)
  | items (first : Bool) (items : List Json)
  | members (first : Bool) (members : List (String × Json))

/-- The characters that spell a part of a document. -/
inductive Json.Part.Spelled : Json.Part → List Char → Prop
  | null : Spelled (.value .null) "null".toList
  | isTrue : Spelled (.value (.boolean true)) "true".toList
  | isFalse : Spelled (.value (.boolean false)) "false".toList
  | number (n : Numeral) : Spelled (.value (.number n)) n.text
  | string {s : String} {t : List Char} (h : TextSpelled s.toList t) :
      Spelled (.value (.string s)) ('"' :: (t ++ ['"']))
  | array {xs : List Json} {t : List Char} (h : Spelled (.items true xs) t) :
      Spelled (.value (.array xs)) ('[' :: t)
  | object {ms : List (String × Json)} {t : List Char} (h : Spelled (.members true ms) t) :
      Spelled (.value (.object ms)) ('\x7b' :: t)
  | endItems {first : Bool} {w : List Char} (hw : IsGap w) :
      Spelled (.items first []) (w ++ [']'])
  | item {first : Bool} {x : Json} {xs : List Json} {w t t' : List Char}
      (hw : Separator first w) (hx : Spelled (.value x) t) (hxs : Spelled (.items false xs) t') :
      Spelled (.items first (x :: xs)) (w ++ (t ++ t'))
  | endMembers {first : Bool} {w : List Char} (hw : IsGap w) :
      Spelled (.members first []) (w ++ ['\x7d'])
  | member {first : Bool} {key : String} {x : Json} {ms : List (String × Json)}
      {w k u v t t' : List Char} (hw : Separator first w) (hk : TextSpelled key.toList k)
      (hu : IsGap u) (hv : IsGap v) (hx : Spelled (.value x) t)
      (hms : Spelled (.members false ms) t') :
      Spelled (.members first ((key, x) :: ms))
        (w ++ '"' :: (k ++ '"' :: (u ++ ':' :: (v ++ (t ++ t')))))

/-- The characters that spell a document, without white space around it. -/
abbrev Json.Spelled (document : Json) (t : List Char) : Prop :=
  Json.Part.Spelled (.value document) t

/-- Two neighbours of an object change places, at any depth. -/
inductive Json.Swapped : Json → Json → Prop
  | members (ms : List (String × Json)) (a b : String × Json) (ms' : List (String × Json)) :
      Swapped (.object (ms ++ a :: b :: ms')) (.object (ms ++ b :: a :: ms'))
  | item (xs : List Json) {x y : Json} (xs' : List Json) (h : Swapped x y) :
      Swapped (.array (xs ++ x :: xs')) (.array (xs ++ y :: xs'))
  | member (ms : List (String × Json)) (key : String) {x y : Json}
      (ms' : List (String × Json)) (h : Swapped x y) :
      Swapped (.object (ms ++ (key, x) :: ms')) (.object (ms ++ (key, y) :: ms'))

/-- The same document with the members of objects in another order. -/
inductive Json.Reordered (x : Json) : Json → Prop
  | refl : Reordered x x
  | step {y z : Json} (h : Reordered x y) (hswap : Json.Swapped y z) : Reordered x z

/-! ## The printers -/

theorem isGap_nil : IsGap [] :=
  nofun

theorem isGap_cons {c : Char} {w : List Char} (hc : c = ' ' ∨ c = '\t' ∨ c = '\n' ∨ c = '\r')
    (hw : IsGap w) : IsGap (c :: w) :=
  List.forall_mem_cons.2 ⟨hc, hw⟩

theorem isGap_blank : IsGap [' '] :=
  isGap_cons (.inl rfl) isGap_nil

theorem isGap_newLine (depth : Nat) : IsGap (Json.newLine depth) :=
  isGap_cons (by decide) fun _ hc => .inl (List.eq_of_mem_replicate hc)

theorem charSpelled_escapeControl {c : Char} (h : c.toNat < 0x20) :
    CharSpelled c (Json.escapeControl c) := by
  have hunit : HexUnit (((0 * 16 + 0) * 16 + c.toNat / 16) * 16 + c.toNat % 16)
      ['0', '0', Nat.digitChar (c.toNat / 16), Nat.digitChar (c.toNat % 16)] :=
    .mk ⟨by decide, .inl rfl⟩ ⟨by decide, .inl rfl⟩ ⟨by omega, .inl rfl⟩ ⟨by omega, .inl rfl⟩
  have hnat : ((0 * 16 + 0) * 16 + c.toNat / 16) * 16 + c.toNat % 16 = c.toNat := by omega
  rw [hnat] at hunit
  exact .unit hunit

theorem charSpelled_escapeChar (c : Char) : CharSpelled c (Json.escapeChar c) := by
  unfold Json.escapeChar
  by_cases hletter : c ∈ ['"', '\\', '\x08', '\x0c', '\n', '\r', '\t']
  · simp only [List.mem_cons, List.not_mem_nil, or_false] at hletter
    rcases hletter with rfl | rfl | rfl | rfl | rfl | rfl | rfl <;> exact .letter (by decide)
  · simp only [List.mem_cons, List.not_mem_nil, or_false, not_or] at hletter
    simp only [beq_iff_eq, hletter, if_false]
    split
    · next hcontrol => exact charSpelled_escapeControl hcontrol
    · next hplain => exact .plain (Nat.not_lt.1 hplain) hletter.1 hletter.2.1

theorem textSpelled_escape (cs : List Char) : TextSpelled cs (cs.flatMap Json.escapeChar) := by
  induction cs with
  | nil => exact .nil
  | cons c cs ih => exact .cons (charSpelled_escapeChar c) ih

namespace Json

/-- A member with its key quoted. -/
theorem spelled_member {first : Bool} {key : String} {x : Json} {ms : List (String × Json)}
    {w u v t t' : List Char} (hw : Separator first w) (hu : IsGap u) (hv : IsGap v)
    (hx : x.Spelled t) (hms : (Part.members false ms).Spelled t') :
    (Part.members first ((key, x) :: ms)).Spelled
      (w ++ (quote key ++ (u ++ ':' :: (v ++ (t ++ t'))))) := by
  rw [quote, List.cons_append, List.append_assoc]
  exact .member hw (textSpelled_escape key.toList) hu hv hx hms

mutual

theorem spelled_compact : (x : Json) → x.Spelled (compactChars x)
  | .null => .null
  | .boolean true => .isTrue
  | .boolean false => .isFalse
  | .number n => .number n
  | .string s => .string (textSpelled_escape s.toList)
  | .array [] => .array (.endItems isGap_nil)
  | .array (x :: xs) =>
    .array (.item (.first isGap_nil) (spelled_compact x) (spelled_compactItems xs))
  | .object [] => .object (.endMembers isGap_nil)
  | .object ((_, x) :: ms) =>
    .object (spelled_member (.first isGap_nil) isGap_nil isGap_nil (spelled_compact x)
      (spelled_compactMembers ms))

theorem spelled_compactItems : (xs : List Json) → (Part.items false xs).Spelled (compactItems xs)
  | [] => .endItems isGap_nil
  | x :: xs => .item (.comma isGap_nil isGap_nil) (spelled_compact x) (spelled_compactItems xs)

theorem spelled_compactMembers : (ms : List (String × Json)) →
    (Part.members false ms).Spelled (compactMembers ms)
  | [] => .endMembers isGap_nil
  | (_, x) :: ms =>
    spelled_member (.comma isGap_nil isGap_nil) isGap_nil isGap_nil (spelled_compact x)
      (spelled_compactMembers ms)

end

mutual

theorem spelled_pretty (depth : Nat) : (x : Json) → x.Spelled (prettyChars depth x)
  | .null => .null
  | .boolean true => .isTrue
  | .boolean false => .isFalse
  | .number n => .number n
  | .string s => .string (textSpelled_escape s.toList)
  | .array [] => .array (.endItems isGap_nil)
  | .array (x :: xs) => by
    rw [prettyChars, List.append_assoc]
    exact .array (.item (.first (isGap_newLine (depth + 1))) (spelled_pretty (depth + 1) x)
      (spelled_prettyItems depth xs))
  | .object [] => .object (.endMembers isGap_nil)
  | .object ((_, x) :: ms) => by
    rw [prettyChars, List.append_assoc]
    exact .object (spelled_member (.first (isGap_newLine (depth + 1))) isGap_nil isGap_blank
      (spelled_pretty (depth + 1) x) (spelled_prettyMembers depth ms))

theorem spelled_prettyItems (depth : Nat) : (xs : List Json) →
    (Part.items false xs).Spelled (prettyItems depth xs)
  | [] => .endItems (isGap_newLine depth)
  | x :: xs => by
    rw [prettyItems, List.append_assoc]
    exact .item (.comma isGap_nil (isGap_newLine (depth + 1))) (spelled_pretty (depth + 1) x)
      (spelled_prettyItems depth xs)

theorem spelled_prettyMembers (depth : Nat) : (ms : List (String × Json)) →
    (Part.members false ms).Spelled (prettyMembers depth ms)
  | [] => .endMembers (isGap_newLine depth)
  | (_, x) :: ms => by
    rw [prettyMembers, List.append_assoc]
    exact spelled_member (.comma isGap_nil (isGap_newLine (depth + 1))) isGap_nil isGap_blank
      (spelled_pretty (depth + 1) x) (spelled_prettyMembers depth ms)

end

end Json

end HeaderSchema
