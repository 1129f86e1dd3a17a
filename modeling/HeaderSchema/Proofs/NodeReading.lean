import HeaderSchema.Extraction.Run
import HeaderSchema.Proofs.MemberOrder
import HeaderSchema.Proofs.ShapeReading

/-!
# Reading syntax nodes

`Node.ofJson` says which documents are nodes, without a table and without a
reader: an object with each of nine members at most once, or a list of seven to
nine items in the order of the fields. Reading any spelling of a document, with
anything after it, gives exactly this node, and a malformed dump where there is
none (`parse_spelled`).
-/

namespace HeaderSchema

open Utf8 (encode encode_append)

/-! ## Which documents are nodes -/

namespace Json

def text? : Json → Option String
  | .string text => some text
  | _ => none

def boolean? : Json → Option Bool
  | .boolean value => some value
  | _ => none

/-- What a document holds where `null` stands for no value. -/
def orNull {α : Type} (x : Json) (value : Option α) : Option (Option α) :=
  if x.isNull then some none else value.map some

def nullable {α : Type} (hold : Json → Option α) (x : Json) : Option (Option α) :=
  x.orNull (hold x)

/-- What the members under a key hold. -/
def under {α : Type} (key : String) (hold : Json → α) (ms : List (String × Json)) : List α :=
  (ms.filter (·.1 = key)).map (hold ·.2)

end Json

/-- What a member holds that comes at most once. -/
def sole {α : Type} (absent : Option α) : List (Option α) → Option α
  | [] => absent
  | [x] => x
  | _ :: _ :: _ => none

/-- A type: an object, or a list of both fields. -/
def QualType.ofJson : Json → Option QualType
  | .object ms => do
    let spelling ← sole none (Json.under "qualType" Json.text? ms)
    let desugared ← sole (some none) (Json.under "desugaredQualType" (Json.nullable Json.text?) ms)
    return ⟨spelling, desugared⟩
  | .array [spelling, desugared] => do
    return ⟨← spelling.text?, ← desugared.nullable Json.text?⟩
  | _ => none

namespace Node

mutual

/-- A node. Written as a list, it may end before its last two fields. -/
def ofJson : Json → Option Node
  | .object ms => do
    let id ← sole (some "") (Json.under "id" Json.text? ms)
    let kind ← sole (some "") (Json.under "kind" Json.text? ms)
    let name ← sole (some none) (Json.under "name" (Json.nullable Json.text?) ms)
    let type ← sole (some none) (Json.under "type" (Json.nullable QualType.ofJson) ms)
    let returnType ← sole (some none) (Json.under "returnType" (Json.nullable QualType.ofJson) ms)
    let interface ← sole (some none) (interfaces ms)
    let isInstance ← sole (some none) (Json.under "instance" (Json.nullable Json.boolean?) ms)
    let isImplicit ← sole (some false) (Json.under "isImplicit" Json.boolean? ms)
    let inner ← sole (some []) (inners ms)
    return ⟨id, kind, name, type, returnType, interface, isInstance, isImplicit, inner⟩
  | .array (id :: kind :: name :: type :: returnType :: interface :: isInstance :: more) => do
    let id ← id.text?
    let kind ← kind.text?
    let name ← name.nullable Json.text?
    let type ← type.nullable QualType.ofJson
    let returnType ← returnType.nullable QualType.ofJson
    let interface ← interface.orNull (ofJson interface)
    let isInstance ← isInstance.nullable Json.boolean?
    let (isImplicit, inner) ← lastFields more
    return ⟨id, kind, name, type, returnType, interface, isInstance, isImplicit, inner⟩
  | _ => none

/-- A list of nodes. -/
def ofItems : List Json → Option (List Node)
  | [] => some []
  | x :: xs => do
    let node ← ofJson x
    let nodes ← ofItems xs
    return node :: nodes

/-- The fields of a list after the first seven. -/
def lastFields : List Json → Option (Bool × List Node)
  | [] => some (false, [])
  | [isImplicit] => do return (← isImplicit.boolean?, [])
  | [isImplicit, .array inner] => do return (← isImplicit.boolean?, ← ofItems inner)
  | _ => none

/-- What the members under `interface` hold. -/
def interfaces : List (String × Json) → List (Option (Option Node))
  | [] => []
  | (key, x) :: ms =>
    if key = "interface" then x.orNull (ofJson x) :: interfaces ms else interfaces ms

/-- What the members under `inner` hold. -/
def inners : List (String × Json) → List (Option (List Node))
  | [] => []
  | (key, .array xs) :: ms => if key = "inner" then ofItems xs :: inners ms else inners ms
  | (key, _) :: ms => if key = "inner" then none :: inners ms else inners ms

end

end Node

/-! ## Nodes are what the table says -/

theorem Field.member?_object (field : Field) (ms : List (String × Json)) :
    field.member? (Json.memberReadings ms) =
      sole field.absentMember (Json.under field.key (·.reading.slot field.slot) ms) := by
  have hfilter : (Json.memberReadings ms).filter (·.1 = field.key) =
      (ms.filter (·.1 = field.key)).map (Prod.map id Json.reading) := by
    rw [Json.memberReadings_eq_map, List.filter_map]
    rfl
  rw [member?, hfilter, Json.under]
  generalize ms.filter (·.1 = field.key) = found
  rcases found with _ | ⟨_, _ | _⟩ <;> rfl

namespace Json

theorem slot_text (x : Json) : x.reading.slot (.plain .text) = x.text? := by
  cases x <;> rfl

theorem slot_nullable_text (x : Json) :
    x.reading.slot (.nullable .text) = x.nullable text? := by
  cases x <;> rfl

theorem slot_boolean (x : Json) : x.reading.slot (.plain .boolean) = x.boolean? := by
  cases x <;> rfl

theorem slot_nullable_boolean (x : Json) :
    x.reading.slot (.nullable .boolean) = x.nullable boolean? := by
  cases x <;> rfl

theorem decode_qualType (x : Json) : x.decode (.record .qualType) = QualType.ofJson x := by
  cases x with
  | object ms =>
    rw [decode, Shape.ofMembers]
    simp only [Record.fields, Values.ofMembers, Field.member?_object, slot_text,
      slot_nullable_text, Field.absentMember, Option.map_bind, Option.map_some,
      Function.comp_def]
    rfl
  | array xs =>
    rw [decode, Shape.ofItems, readings_eq_map]
    rcases xs with _ | ⟨a, _ | ⟨b, _ | ⟨c, xs⟩⟩⟩ <;>
      simp only [List.map_nil, List.map_cons, Record.fields, Values.ofItems, slot_text,
        slot_nullable_text, Field.absentItem, Option.map_bind, Option.map_some, Option.map_none,
         Option.bind_none, Option.bind_fun_none, Function.comp_def] <;> rfl
  | _ => rfl

theorem slot_nullable_qualType (x : Json) :
    x.reading.slot (.nullable (.record .qualType)) = x.nullable QualType.ofJson := by
  rw [nullable, ← decode_qualType]
  rfl

mutual

theorem decode_node : (x : Json) → x.decode (.record .node) = Node.ofJson x
  | .null | .boolean _ | .number _ | .string _ => rfl
  | .object ms => by
    -- both sides are one chain over the nine fields, in their order
    rw [decode, Shape.ofMembers]
    simp only [Record.fields, Values.ofMembers, Field.member?_object, slot_text,
      slot_nullable_text, slot_boolean, slot_nullable_boolean, slot_nullable_qualType,
      interfaces_under ms, inners_under ms, Field.absentMember, Option.map_bind, Option.map_some,
      Function.comp_def]
    rfl
  | .array [] | .array [_] | .array [_, _] | .array [_, _, _] | .array [_, _, _, _]
  | .array [_, _, _, _, _] | .array [_, _, _, _, _, _] => by
    rw [decode, Shape.ofItems, readings_eq_map]
    simp only [List.map_nil, List.map_cons, Record.fields, Values.ofItems, Field.absentItem,
      Option.map_some, Option.map_none, Option.bind_none, Option.bind_some,
      Option.bind_fun_none]
    rfl
  | .array (id :: kind :: name :: type :: returnType :: interface :: isInstance :: more) => by
    have hinterface : interface.reading.slot (.nullable (.record .node)) =
        interface.orNull (Node.ofJson interface) := by
      rw [← decode_node interface]
      rfl
    have hmore := lastFields_items more
    rw [decode, Shape.ofItems, readings_eq_map]
    simp only [List.map_cons, Record.fields, Values.ofItems, slot_text, slot_nullable_text,
      slot_nullable_boolean, slot_nullable_qualType, hinterface, hmore, Option.map_bind,
      Option.map_map, Function.comp_def]
    simp only [Option.map_eq_bind]
    rfl

/-- The last two fields of a node that is written as a list. -/
theorem lastFields_items : (more : List Json) →
    Values.ofItems [.withDefault "isImplicit" (.plain .boolean) false,
      .withDefault "inner" (.plain (.list (.record .node))) []] (more.map reading) =
        (Node.lastFields more).map fun (isImplicit, inner) => (isImplicit, inner, ())
  | [] => rfl
  | [isImplicit] => by
    simp only [List.map_cons, List.map_nil, Values.ofItems, slot_boolean, Field.absentItem,
      Node.lastFields]
    cases isImplicit.boolean? <;> rfl
  | [isImplicit, .array xs] => by
    have hslot : (array xs).reading.slot (.plain (.list (.record .node))) = Node.ofItems xs :=
      decode_nodes xs
    simp only [List.map_cons, List.map_nil, Values.ofItems, slot_boolean, hslot, Node.lastFields]
    cases isImplicit.boolean? <;> cases Node.ofItems xs <;> rfl
  | [isImplicit, .null] | [isImplicit, .boolean _] | [isImplicit, .number _]
  | [isImplicit, .string _] | [isImplicit, .object _] => by
    simp only [List.map_cons, List.map_nil, Values.ofItems, slot_boolean, Node.lastFields]
    cases isImplicit.boolean? <;> rfl
  | isImplicit :: inner :: _ :: _ => by
    simp only [List.map_cons, Values.ofItems, Option.map_none, Option.bind_fun_none]
    cases inner <;> rfl

theorem decode_nodes : (xs : List Json) →
    (readings xs).mapM (·.value (.record .node)) = Node.ofItems xs
  | [] => rfl
  | x :: xs => by
    rw [readings, List.mapM_cons, decode_nodes xs]
    dsimp only
    rw [decode_node x]
    rfl

theorem interfaces_under : (ms : List (String × Json)) →
    under "interface" (·.reading.slot (.nullable (.record .node))) ms = Node.interfaces ms
  | [] => rfl
  | (key, x) :: ms => by
    have ih := interfaces_under ms
    have hslot : x.reading.slot (.nullable (.record .node)) = x.orNull (Node.ofJson x) := by
      rw [← decode_node x]
      rfl
    rw [Node.interfaces, ← ih, ← hslot]
    by_cases hkey : key = "interface" <;> simp [under, hkey]

theorem inners_under : (ms : List (String × Json)) →
    under "inner" (·.reading.slot (.plain (.list (.record .node)))) ms = Node.inners ms
  | [] => rfl
  | (key, .array xs) :: ms => by
    have ih := inners_under ms
    have hslot : (array xs).reading.slot (.plain (.list (.record .node))) = Node.ofItems xs :=
      decode_nodes xs
    rw [Node.inners, ← ih, ← hslot]
    by_cases hkey : key = "inner" <;> simp [under, hkey]
  | (key, .null) :: ms | (key, .boolean _) :: ms | (key, .number _) :: ms
  | (key, .string _) :: ms | (key, .object _) :: ms => by
    have ih := inners_under ms
    change _ = if key = "inner" then none :: Node.inners ms else Node.inners ms
    rw [← ih]
    by_cases hkey : key = "inner"
    · simp [under, hkey]
      rfl
    · simp [under, hkey]

end

end Json

/-! ## Reading dumps -/

namespace Reader

/-- A record is read off its first byte, so it does not matter what follows. -/
theorem record_spelled (r : Record) {x : Json} {t : List Char} (h : x.Spelled t) {w : List Char}
    (hw : IsGap w) (rest : Bytes) :
    (read ((encode (w ++ t) ++ rest).length + 1) (.record r)).Yields (encode (w ++ t) ++ rest)
      (x.decode (.record r)) rest := by
  have hlength := Utf8.length_le_length_encode (w ++ t)
  rw [List.length_append] at hlength
  exact recordValue_spelled (read_spelled _) r h hw (by rw [List.length_append]; omega) rest

end Reader

theorem not_all_blank {x : Json} {t : List Char} (h : x.Spelled t) (w : List Char) (rest : Bytes) :
    ¬ (encode (w ++ t) ++ rest).all Reader.isBlankByte = true := by
  obtain ⟨b, u, hopen, hb⟩ := h.opens
  rw [encode_append, hopen]
  simp [hb.isBlankByte]

namespace Node

/-- The text of a document is a dump of the node that the document is. -/
theorem parse_text {v : Json} {text : List Char} (htext : v.Spelled text) {w : List Char}
    (hw : IsGap w) (rest : Bytes) :
    match ofJson v with
    | some root => parse (encode (w ++ text) ++ rest) = .ok root
    | none => ∃ message, parse (encode (w ++ text) ++ rest) = .error (.malformed message) := by
  have hread := Reader.record_spelled .node htext hw rest
  rw [Json.decode_node] at hread
  rw [parse, if_neg (not_all_blank htext w rest)]
  cases hroot : ofJson v with
  | some root =>
    rw [hroot] at hread
    have hok : (Shape.record .node).parse (encode (w ++ text) ++ rest) = .ok (root, rest) := hread
    dsimp only
    rw [hok]
  | none =>
    rw [hroot] at hread
    obtain ⟨fault, hfault⟩ := hread
    have herror : (Shape.record .node).parse (encode (w ++ text) ++ rest) = .error fault := hfault
    dsimp only
    rw [herror]
    exact ⟨_, rfl⟩

theorem parse_compact {document : Json} {root : Node} (h : ofJson document = some root) :
    parse (.ofText document.compact) = .ok root := by
  have hparse := parse_text (Json.spelled_compact document) isGap_nil []
  rw [h, List.append_nil, List.nil_append, ← String.toList_ofList (l := document.compactChars)]
    at hparse
  exact hparse

/-- A dump is read as the node that its document is, whichever way the document is
spelled, whatever the order of its members and whatever follows it; where the
document is no node, the dump is malformed. -/
theorem parse_spelled {v v' : Json} (horder : v.Reordered v') {text : List Char}
    (htext : v'.Spelled text) {w : List Char} (hw : IsGap w) (rest : Bytes) :
    let input := encode (w ++ text) ++ rest
    match ofJson v with
    | some root => parse input = .ok root ∧ parseStream (.ok input) = .ok root
    | none => ∃ message, parse input = .error (.malformed message) ∧
        parseStream (.ok input) = .error (.malformed message) := by
  intro input
  have hsame : ofJson v' = ofJson v := by
    rw [← Json.decode_node, ← Json.decode_node, Json.decode_reordered horder rfl]
  have hparse := parse_text htext hw rest
  rw [hsame] at hparse
  cases hroot : ofJson v with
  | some root =>
    rw [hroot] at hparse
    exact ⟨hparse, hparse⟩
  | none =>
    rw [hroot] at hparse
    obtain ⟨message, hmessage⟩ := hparse
    exact ⟨message, hmessage, hmessage⟩

theorem parse_spelled_swapped :
    let v := Json.object [("kind", .string "EnumDecl"), ("loc", .array [.null, .boolean true])]
    let v' := Json.object [("loc", .array [.null, .boolean true]), ("kind", .string "EnumDecl")]
    v.Reordered v' ∧ v'.Spelled (Json.prettyChars 0 v') ∧ IsGap [' '] ∧
      parse (encode ([' '] ++ Json.prettyChars 0 v') ++ [Mark.closeList]) =
        .ok ⟨"", "EnumDecl", none, none, none, none, none, false, []⟩ := by
  intro v v'
  have horder : v.Reordered v' := .step .refl (.members [] _ _ [])
  have hspelled : v'.Spelled (Json.prettyChars 0 v') := Json.spelled_pretty 0 v'
  exact ⟨horder, hspelled, isGap_blank,
    (parse_spelled horder hspelled isGap_blank [Mark.closeList]).1⟩

end Node

end HeaderSchema
