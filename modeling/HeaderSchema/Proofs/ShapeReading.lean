import HeaderSchema.Proofs.Decoding
import HeaderSchema.Proofs.Passing
import HeaderSchema.Shape.Read

/-!
# Reading spelled documents

Reading a spelled document as a value of a shape comes to what the document
holds (`read_spelled`), with what follows the document unread; and it fails where
the document holds no such value. The readers of leaves are looked at one by
one. Those of lists, objects and records are loops over items or members, each
of which takes a reader of smaller documents for granted (`ReadsBelow`), so that
one induction on the bound ties them together.
-/

namespace HeaderSchema

open Utf8 (encode encode_append encode_cons)

namespace Reader

variable {α : Type}

/-! ## Starting on a document -/

theorem fails_wrongType (expected : Expected) (input : Bytes) :
    (wrongType expected : Reader α).Fails input := by
  refine fails_bind (fun b? rest => ?_) input
  cases b? with
  | none => exact fails_failNext _ _
  | some b =>
    dsimp only
    repeat' split
    all_goals
      first
        | exact fails_failHere _ _ _
        | exact fails_failNext _ _
        | exact fails_bind (fun _ rest => fails_failHere _ _ rest) _

/-- The first byte of a document is seen past the white space before it. -/
theorem peek_spelled {x : Json} {t : List Char} (h : x.Spelled t) {w : List Char} (hw : IsGap w)
    (rest : Bytes) :
    ∃ b u, x.Opens b ∧ encode t = b :: u ∧
      peek (encode (w ++ t) ++ rest) = .ok (some b, encode t ++ rest) := by
  obtain ⟨b, u, hopen, hb⟩ := h.opens
  refine ⟨b, u, hb, hopen, ?_⟩
  rw [encode_append, hopen, List.append_assoc]
  exact peek_gap hw hb.isBlankByte _

/-- A reader of documents that open with one byte fails on all others. -/
theorem fails_unless {x : Json} {t : List Char} (h : x.Spelled t) {w : List Char} (hw : IsGap w)
    {c : UInt8} (hc : ¬ x.Opens c) (r : Reader α) (expected : Expected) (rest : Bytes) :
    (do if (← peek) == some c then r else wrongType expected : Reader α).Fails
      (encode (w ++ t) ++ rest) := by
  obtain ⟨b, u, hb, -, hpeek⟩ := peek_spelled h hw rest
  have hne : b ≠ c := fun heq => hc (heq ▸ hb)
  refine Fails.of_bind_ok hpeek ?_
  rw [if_neg (by simpa using hne)]
  exact fails_wrongType expected _

/-! ## Leaves -/

theorem textValue_spelled {x : Json} {t : List Char} (h : x.Spelled t) {w : List Char}
    (hw : IsGap w) (rest : Bytes) :
    textValue.Yields (encode (w ++ t) ++ rest) (x.decode .text) rest := by
  by_cases hx : x.Opens Mark.quote
  · obtain ⟨s, rfl⟩ := hx.eq_string
    cases h with
    | string hs =>
      rw [encode_string]
      exact (peek_bind hw rfl _ _).trans (text_spelled hs rest)
  · have hnone : x.decode .text = none := by
      cases x <;> first | rfl | exact absurd rfl hx
    rw [hnone]
    exact fails_unless h hw hx _ _ rest

theorem booleanValue_spelled {x : Json} {t : List Char} (h : x.Spelled t) {w : List Char}
    (hw : IsGap w) (rest : Bytes) :
    booleanValue.Yields (encode (w ++ t) ++ rest) (x.decode .boolean) rest := by
  by_cases hx : ∃ value, x = .boolean value
  · obtain ⟨value, rfl⟩ := hx
    cases h <;>
    · rw [encode_append, List.append_assoc]
      exact peek_bind hw rfl _ _
  · have hnone : x.decode .boolean = none := by
      cases x <;> first | rfl | exact absurd ⟨_, rfl⟩ hx
    obtain ⟨b, u, hb, -, hpeek⟩ := peek_spelled h hw rest
    rw [hnone]
    refine Yields.of_bind_ok hpeek ?_
    split
    · next heq => exact absurd ⟨true, (Option.some.inj heq ▸ hb).eq_true⟩ hx
    · next heq => exact absurd ⟨false, (Option.some.inj heq ▸ hb).eq_false⟩ hx
    · exact fails_wrongType _ _

theorem countValue_spelled {x : Json} {t : List Char} (h : x.Spelled t) {w : List Char}
    (hw : IsGap w) {rest : Bytes} (hrest : Follows x rest) :
    countValue.Yields (encode (w ++ t) ++ rest) (x.decode .count) rest := by
  obtain ⟨b, u, hb, -, hpeek⟩ := peek_spelled h hw rest
  refine Yields.of_bind_ok hpeek ?_
  dsimp only
  by_cases hx : (b == Mark.minus || isDigit b) = true
  · rw [if_pos hx]
    obtain ⟨n, rfl⟩ := hb.eq_number hx
    cases h with
    | number =>
      change Yields _ _ n.count? rest
      cases hcount : n.count? with
      | some k => exact bind_ok (number_count hcount hrest) _
      | none =>
        cases hread : number (encode n.text ++ rest) with
        | error fault => exact Fails.bind ⟨fault, hread⟩ _
        | ok answer =>
          obtain ⟨value, left⟩ := answer
          refine Fails.of_bind_ok hread ?_
          cases value with
          | natural k => exact absurd hread (number_other hcount hrest k left)
          | negative k => exact fails_failHere _ _ _
          | float k => exact fails_failHere _ _ _
  · rw [if_neg hx]
    have hnone : x.decode .count = none := by
      cases x with
      | number n =>
        rcases hb with rfl | hb
        · exact absurd rfl hx
        · exact absurd (by rw [hb, Bool.or_true]) hx
      | _ => rfl
    rw [hnone]
    exact fails_wrongType _ _

/-! ## Lists -/

/-- The reader takes spelled documents of less than so many characters for what
they hold. -/
def ReadsBelow (n : Nat) (r : Reader α) (hold : Json → Option α) : Prop :=
  ∀ (x : Json) (t w : List Char) (rest : Bytes), x.Spelled t → IsGap w → t.length < n →
    Follows x rest → r.Yields (encode (w ++ t) ++ rest) (hold x) rest

/-- What an item comes to between its separator and the items after it. -/
theorem ReadsBelow.item {n : Nat} {r : Reader α} {hold : Json → Option α} (hr : ReadsBelow n r hold)
    {x : Json} {t t' : List Char} {xs : List Json} (hx : x.Spelled t) (hn : t.length < n)
    (hxs : (Json.Part.items false xs).Spelled t') (rest : Bytes) :
    r.Yields (encode t ++ (encode t' ++ rest)) (hold x) (encode t' ++ rest) :=
  hr x t [] _ hx isGap_nil hn (follows_of_endsNumber (endsNumber_items hxs rest))

theorem nextItem_spelled {first : Bool} {x : Json} {w t t' : List Char} (hw : Separator first w)
    (hx : x.Spelled t) (rest : Bytes) :
    nextItem first (encode (w ++ (t ++ t')) ++ rest) =
      .ok (true, encode t ++ (encode t' ++ rest)) := by
  obtain ⟨b, u, hopen, hb⟩ := hx.opens
  rw [encode_append, encode_append, hopen, List.append_assoc, List.append_assoc]
  exact nextItem_item hw hb.isBlankByte hb.ne_close _

theorem items_spelled {item : Reader α} {hold : Json → Option α} {n : Nat}
    (hitem : ReadsBelow n item hold) {first : Bool} {xs : List Json} {t : List Char}
    (h : (Json.Part.items first xs).Spelled t) (hn : t.length < n) {bound : Nat}
    (hbound : t.length ≤ bound) (before : List α) (rest : Bytes) :
    (items item bound first before).Yields (encode t ++ rest)
      ((xs.mapM hold).map (before.reverse ++ ·)) (Mark.closeList :: rest) := by
  induction xs generalizing first t bound before with
  | nil =>
    cases h with
    | @endItems _ w hw =>
      rw [List.length_append, List.length_singleton] at hbound
      obtain ⟨bound, rfl⟩ : ∃ k, bound = k + 1 := ⟨bound - 1, by omega⟩
      refine Yields.of_bind_ok (nextItem_end hw first rest) ?_
      rw [List.mapM_nil, Option.pure_def, Option.map_some, List.append_nil]
      rfl
  | cons x xs ih =>
    cases h with
    | item hw hx hxs =>
      have hpos := Json.Spelled.length_pos hx
      simp only [List.length_append] at hn hbound
      obtain ⟨bound, rfl⟩ : ∃ k, bound = k + 1 := ⟨bound - 1, by omega⟩
      refine Yields.of_bind_ok (nextItem_spelled hw hx rest) ?_
      have hall : ((x :: xs).mapM hold).map (before.reverse ++ ·) =
          (hold x).bind fun v => (xs.mapM hold).map ((v :: before).reverse ++ ·) := by
        rw [List.mapM_cons]
        cases hold x <;> cases xs.mapM hold <;> simp
      rw [hall]
      exact (hitem.item hx (by omega) hxs rest).bind fun v _ =>
        ih hxs (by omega) (by omega) (v :: before)

theorem listValue_spelled {s : Shape} {item : Reader s.Val} {n : Nat}
    (hitem : ReadsBelow n item (Json.decode · s)) {x : Json} {t : List Char} (h : x.Spelled t)
    {w : List Char} (hw : IsGap w) (hn : t.length ≤ n) (rest : Bytes) :
    (listValue item n).Yields (encode (w ++ t) ++ rest) (x.decode (.list s)) rest := by
  by_cases hx : x.Opens Mark.openList
  · obtain ⟨xs, rfl⟩ := hx.eq_array
    cases h with
    | @array _ t ht =>
      rw [List.length_cons] at hn
      have hlist : (Json.array xs).decode (.list s) =
          ((xs.mapM (Json.decode · s)).map ([].reverse ++ ·)).bind some := by
        rw [Json.decode, Shape.ofItems, Json.readings_eq_map, List.mapM_map]
        simp [Function.comp_def, Json.reading]
      rw [hlist, encode_append, List.append_assoc]
      refine Yields.of_bind_ok (peek_gap hw rfl _) ?_
      refine Yields.of_bind_ok (x := ()) rfl ?_
      refine (items_spelled hitem ht (by omega) (by omega) [] rest).bind fun vs _ => ?_
      exact Yields.of_bind_ok (endList_close rest) rfl
  · have hnone : x.decode (.list s) = none := by
      cases x <;> first | rfl | exact absurd rfl hx
    rw [hnone]
    exact fails_unless h hw hx _ _ rest

/-! ## Members -/

theorem nextMember_spelled {first : Bool} {key : String} {w k u v t t' : List Char}
    (hw : Separator first w) (hk : TextSpelled key.toList k) (rest : Bytes) :
    ∃ mid, nextMember first
        (encode (w ++ '"' :: (k ++ '"' :: (u ++ ':' :: (v ++ (t ++ t'))))) ++ rest) =
          .ok (true, mid) ∧
      text mid = .ok (key, encode u ++ Mark.colon :: (encode (v ++ t) ++ (encode t' ++ rest))) := by
  rw [encode_member]
  exact ⟨_, nextMember_member hw _, text_spelled hk _⟩

/-- What the value of a member comes to between its colon and the members after
it. -/
theorem ReadsBelow.member {n : Nat} {r : Reader α} {hold : Json → Option α}
    (hr : ReadsBelow n r hold) {x : Json} {v t t' : List Char} {ms : List (String × Json)}
    (hv : IsGap v) (hx : x.Spelled t) (hn : t.length < n)
    (hms : (Json.Part.members false ms).Spelled t') (rest : Bytes) :
    r.Yields (encode (v ++ t) ++ (encode t' ++ rest)) (hold x) (encode t' ++ rest) :=
  hr x t v _ hx hv hn (follows_of_endsNumber (endsNumber_members hms rest))

theorem readsBelow_countValue (n : Nat) : ReadsBelow n countValue (Json.decode · .count) :=
  fun _ _ _ _ h hw _ hrest => countValue_spelled h hw hrest

theorem tallyMembers_spelled {first : Bool} {ms : List (String × Json)} {t : List Char}
    (h : (Json.Part.members first ms).Spelled t) {bound : Nat} (hbound : t.length ≤ bound)
    (tally : Tally) (rest : Bytes) :
    (tallyMembers bound first tally).Yields (encode t ++ rest)
      (tally.ofMembers (Json.memberReadings ms)) (Mark.closeObject :: rest) := by
  induction ms generalizing first t bound tally with
  | nil =>
    cases h with
    | @endMembers _ w hw =>
      rw [List.length_append, List.length_singleton] at hbound
      obtain ⟨bound, rfl⟩ : ∃ k, bound = k + 1 := ⟨bound - 1, by omega⟩
      exact Yields.of_bind_ok (nextMember_end hw first rest) rfl
  | cons m ms ih =>
    cases h with
    | @member _ key x _ _ _ _ _ _ _ hw hk hu hv hx hms =>
      simp only [List.length_append, List.length_cons] at hbound
      obtain ⟨bound, rfl⟩ : ∃ k, bound = k + 1 := ⟨bound - 1, by omega⟩
      obtain ⟨mid, hnext, hkey⟩ := nextMember_spelled hw hk rest
      refine Yields.of_bind_ok hnext ?_
      refine Yields.of_bind_ok hkey ?_
      refine Yields.of_bind_ok (colon_gap hu _) ?_
      exact ((readsBelow_countValue _).member hv hx (Nat.lt_succ_self _) hms rest).bind
        fun k _ => ih hms (by omega) (tally.set key k)

theorem tallyValue_spelled {x : Json} {t : List Char} (h : x.Spelled t) {w : List Char}
    (hw : IsGap w) {n : Nat} (hn : t.length ≤ n) (rest : Bytes) :
    (tallyValue n).Yields (encode (w ++ t) ++ rest) (x.decode .tally) rest := by
  by_cases hx : x.Opens Mark.openObject
  · obtain ⟨ms, rfl⟩ := hx.eq_object
    cases h with
    | @object _ t ht =>
      rw [List.length_cons] at hn
      have htally : (Json.object ms).decode .tally =
          (Tally.empty.ofMembers (Json.memberReadings ms)).bind some := by
        rw [Json.decode, Shape.ofMembers, Option.bind_fun_some]
      rw [htally, encode_append, List.append_assoc]
      refine Yields.of_bind_ok (peek_gap hw rfl _) ?_
      refine Yields.of_bind_ok (x := ()) rfl ?_
      refine (tallyMembers_spelled ht (by omega) .empty rest).bind fun tally _ => ?_
      exact Yields.of_bind_ok (endObject_close rest) rfl
  · have hnone : x.decode .tally = none := by
      cases x <;> first | rfl | exact absurd rfl hx
    rw [hnone]
    exact fails_unless h hw hx _ _ rest

/-! ## Records -/

/-- The reader takes spelled documents of less than so many characters for what
they hold as values of every shape. -/
def ReadsShapesBelow (n : Nat) (value : (s : Shape) → Reader s.Val) : Prop :=
  ∀ s : Shape, ReadsBelow n (value s) (Json.decode · s)

theorem slotValue_spelled {value : (s : Shape) → Reader s.Val} {n : Nat}
    (hvalue : ReadsShapesBelow n value) (slot : Slot) :
    ReadsBelow n (slotValue value slot) (Json.reading · |>.slot slot) := by
  intro x t w rest h hw hn hrest
  cases slot with
  | plain s => exact hvalue s x t w rest h hw hn hrest
  | nullable s =>
    obtain ⟨b, u, hb, -, hpeek⟩ := peek_spelled h hw rest
    refine Yields.of_bind_ok hpeek ?_
    by_cases hx : b = Mark.n
    · obtain rfl := (hx ▸ hb).eq_null
      cases h
      rw [if_pos (by rw [hx]; rfl)]
      rfl
    · have hnull : x.isNull = false := by
        cases x <;> first | rfl | exact absurd hb hx
      have hslot : x.reading.slot (.nullable s) = (x.decode s).map some := by
        simp only [Reading.slot, Json.reading, hnull, Bool.false_eq_true, if_false]
      rw [if_neg (by simpa using hx)]
      dsimp only
      rw [hslot]
      exact (hvalue s x t [] rest h isGap_nil hn hrest).map some

theorem members_spelled {value : (s : Shape) → Reader s.Val} {n : Nat}
    (hvalue : ReadsShapesBelow n value) {fields : List Field} {first : Bool}
    {ms : List (String × Json)} {t : List Char} (h : (Json.Part.members first ms).Spelled t)
    (hn : t.length < n) {bound : Nat} (hbound : t.length ≤ bound) (values : Partial fields)
    (rest : Bytes) :
    (members value fields bound first values).Yields (encode t ++ rest)
      (Partial.addMembers (Json.memberReadings ms) values) (Mark.closeObject :: rest) := by
  induction ms generalizing first t bound values with
  | nil =>
    cases h with
    | @endMembers _ w hw =>
      rw [List.length_append, List.length_singleton] at hbound
      obtain ⟨bound, rfl⟩ : ∃ k, bound = k + 1 := ⟨bound - 1, by omega⟩
      exact Yields.of_bind_ok (nextMember_end hw first rest) rfl
  | cons m ms ih =>
    cases h with
    | @member _ key x _ _ _ _ _ _ _ hw hk hu hv hx hms =>
      simp only [List.length_append, List.length_cons] at hn hbound
      obtain ⟨bound, rfl⟩ : ∃ k, bound = k + 1 := ⟨bound - 1, by omega⟩
      obtain ⟨mid, hnext, hkey⟩ := nextMember_spelled hw hk rest
      refine Yields.of_bind_ok hnext ?_
      refine Yields.of_bind_ok hkey ?_
      -- the key decides whether the value is read or passed over
      rw [Json.memberReadings, Partial.addMembers]
      cases Placed.find? key fields with
      | none =>
        have hskip := skipValue_spelled hx hv (n := bound) (by omega)
          (follows_of_endsNumber (endsNumber_members hms rest))
        refine Yields.of_bind_ok (colon_gap hu _) ?_
        exact Yields.of_bind_ok hskip (ih hms (by omega) (by omega) values)
      | some placed =>
        obtain ⟨field, place⟩ := placed
        dsimp only
        split
        · exact ⟨_, rfl⟩
        · refine Yields.of_bind_ok (colon_gap hu _) ?_
          exact ((slotValue_spelled hvalue field.slot).member hv hx (by omega) hms rest).bind
            fun v _ => ih hms (by omega) (by omega) (values.set place v)

theorem nodup_keys (r : Record) : (r.fields.map Field.key).Nodup := by
  cases r <;> decide

theorem objectValue_spelled {value : (s : Shape) → Reader s.Val} {n : Nat}
    (hvalue : ReadsShapesBelow n value) (r : Record) {ms : List (String × Json)} {t : List Char}
    (h : (Json.Part.members true ms).Spelled t) (hn : t.length < n) (rest : Bytes) :
    (objectValue value r n).Yields (encode t ++ rest) ((Json.object ms).decode (.record r))
      rest := by
  have hdecode : (Json.object ms).decode (.record r) =
      (Partial.addMembers (Json.memberReadings ms) (.empty r.fields)).bind fun values =>
        (values.complete? Field.absentMember).map r.build := by
    rw [Json.decode, Shape.ofMembers, ← Partial.complete_addMembers (nodup_keys r),
      Option.map_bind]
    rfl
  rw [hdecode]
  refine (members_spelled hvalue h hn (Nat.le_of_lt hn) _ rest).bind fun values _ => ?_
  rw [← Partial.complete_toOption Field.absentMember 0]
  cases values.complete Field.absentMember 0 with
  | error missing => exact ⟨_, rfl⟩
  | ok values => exact Yields.of_bind_ok (endObject_close rest) rfl

/-! ### Records as lists -/

theorem fails_endList {b : UInt8} (hblank : isBlankByte b = false) (hclose : b ≠ Mark.closeList)
    {w : List Char} (hw : IsGap w) (rest : Bytes) : endList.Fails (encode w ++ b :: rest) := by
  refine Fails.of_bind_ok (peek_gap hw hblank rest) ?_
  dsimp only
  rw [if_neg (by simpa using hclose)]
  split
  · refine fails_bind (fun _ rest => ?_) _
    refine fails_bind (fun b? rest => ?_) rest
    cases b? with
    | none => exact fails_failNext _ _
    | some b =>
      dsimp only
      split <;> exact fails_failNext _ _
  · exact fails_failNext _ _

/-- The end of a list is where no items are left. -/
theorem endList_spelled {first : Bool} {xs : List Json} {t : List Char}
    (h : (Json.Part.items first xs).Spelled t) (rest : Bytes) :
    endList.Yields (encode t ++ rest) (if xs.isEmpty then some () else none) rest := by
  cases h with
  | endItems hw =>
    rw [encode_append, List.append_assoc]
    exact peek_bind hw rfl _ _
  | item hw hx hxs =>
    obtain ⟨b, u, hopen, hb⟩ := Json.Spelled.opens hx
    rw [encode_append, encode_append, hopen, List.append_assoc, List.append_assoc]
    cases hw with
    | first hw => exact fails_endList hb.isBlankByte hb.ne_close hw _
    | comma hw _ =>
      rw [encode_append, List.append_assoc]
      exact fails_endList rfl (by decide) hw _

/-- The items that are left stand where the list has to end. -/
theorem fieldItems_spelled {value : (s : Shape) → Reader s.Val} {n : Nat}
    (hvalue : ReadsShapesBelow n value) {fields : List Field} (places : List (Placed fields))
    {first : Bool} {xs : List Json} {t : List Char} (h : (Json.Part.items first xs).Spelled t)
    (hn : t.length < n) (values : Partial fields) (rest : Bytes) :
    match Partial.addItems places (Json.readings xs) values with
    | none => (fieldItems value places first values).Fails (encode t ++ rest)
    | some (values', left) => ∃ mid,
      fieldItems value places first values (encode t ++ rest) = .ok (values', mid) ∧
        endList.Yields mid (if left.isEmpty then some () else none) rest := by
  induction places generalizing first xs t values with
  | nil =>
    refine ⟨_, rfl, ?_⟩
    rw [Json.readings_eq_map, List.isEmpty_map]
    exact endList_spelled h rest
  | cons placed places ih =>
    obtain ⟨field, place⟩ := placed
    cases h with
    | @endItems _ w hw =>
      exact ⟨_, bind_ok (nextItem_end hw first rest) _, endList_close rest⟩
    | @item _ x xs w t t' hw hx hxs =>
      simp only [List.length_append] at hn
      have hnext : nextItem first (encode (w ++ (t ++ t')) ++ rest) =
          .ok (true, encode t ++ (encode t' ++ rest)) := nextItem_spelled hw hx rest
      have hslot := (slotValue_spelled hvalue field.slot).item hx (by omega) hxs rest
      rw [Json.readings, Partial.addItems, ← Json.reading]
      cases hx : x.reading.slot field.slot with
      | none =>
        rw [hx] at hslot
        exact Fails.of_bind_ok hnext (Fails.bind hslot _)
      | some v =>
        rw [hx] at hslot
        have hrest : fieldItems value (⟨field, place⟩ :: places) first values
            (encode (w ++ (t ++ t')) ++ rest) =
              fieldItems value places false (values.set place v) (encode t' ++ rest) :=
          (bind_ok hnext _).trans (bind_ok hslot _)
        unfold Fails
        rw [hrest]
        exact ih hxs (by omega) (values.set place v)

theorem positionalValue_spelled {value : (s : Shape) → Reader s.Val} {n : Nat}
    (hvalue : ReadsShapesBelow n value) (r : Record) {xs : List Json} {t : List Char}
    (h : (Json.Part.items true xs).Spelled t) (hn : t.length < n) (rest : Bytes) :
    (positionalValue value r).Yields (encode t ++ rest) ((Json.array xs).decode (.record r))
      rest := by
  have hdecode : (Json.array xs).decode (.record r) =
      (Partial.addItems (Placed.all r.fields) (Json.readings xs) (.empty r.fields)).bind
        fun read => (Partial.completeItems read).map r.build := by
    rw [Json.decode, Shape.ofItems, ← Partial.complete_addItems, Option.map_bind]
    rfl
  have hitems := fieldItems_spelled hvalue (Placed.all r.fields) h hn (.empty r.fields) rest
  rw [hdecode]
  cases hread : Partial.addItems (Placed.all r.fields) (Json.readings xs) (.empty r.fields) with
  | none =>
    rw [hread] at hitems
    exact Fails.bind hitems _
  | some read =>
    obtain ⟨values, left⟩ := read
    rw [hread] at hitems
    obtain ⟨mid, hfields, hend⟩ := hitems
    refine Yields.of_bind_ok hfields ?_
    rw [Option.bind_some, Partial.completeItems, ← Partial.complete_toOption Field.absentItem 0]
    cases values.complete Field.absentItem 0 with
    | error missing => exact ⟨_, rfl⟩
    | ok values =>
      cases left with
      | nil => exact Yields.of_bind_ok hend rfl
      | cons _ _ => exact Fails.bind hend _

theorem recordValue_spelled {value : (s : Shape) → Reader s.Val} {n : Nat}
    (hvalue : ReadsShapesBelow n value) (r : Record) {x : Json} {t : List Char} (h : x.Spelled t)
    {w : List Char} (hw : IsGap w) (hn : t.length ≤ n) (rest : Bytes) :
    (recordValue value r n).Yields (encode (w ++ t) ++ rest) (x.decode (.record r)) rest := by
  obtain ⟨b, u, hb, -, hpeek⟩ := peek_spelled h hw rest
  refine Yields.of_bind_ok hpeek ?_
  by_cases hobject : b = Mark.openObject
  · obtain ⟨ms, rfl⟩ := (hobject ▸ hb).eq_object
    cases h with
    | @object _ t ht =>
      rw [List.length_cons] at hn
      rw [if_pos (by rw [hobject]; rfl)]
      exact objectValue_spelled hvalue r ht (by omega) rest
  · rw [if_neg (by simpa using hobject)]
    by_cases hlist : b = Mark.openList
    · obtain ⟨xs, rfl⟩ := (hlist ▸ hb).eq_array
      cases h with
      | @array _ t ht =>
        rw [List.length_cons] at hn
        rw [if_pos (by rw [hlist]; rfl)]
        exact positionalValue_spelled hvalue r ht (by omega) rest
    · have hnone : x.decode (.record r) = none := by
        cases x <;> first | rfl | exact absurd hb hobject | exact absurd hb hlist
      rw [if_neg (by simpa using hlist), hnone]
      exact fails_wrongType _ _

/-! ## Choices -/

theorem variant_yields (c : Choice) (word : String) (rest : Bytes) :
    (variant c word).Yields rest (c.words.lookup word) rest := by
  unfold variant
  cases c.words.lookup word with
  | none => exact fails_failHere _ _ _
  | some value => rfl

theorem unitValue_spelled {x : Json} {t : List Char} (h : x.Spelled t) {w : List Char}
    (hw : IsGap w) (rest : Bytes) :
    unitValue.Yields (encode (w ++ t) ++ rest) (if x.isNull then some () else none) rest := by
  by_cases hx : x.Opens Mark.n
  · obtain rfl := hx.eq_null
    cases h
    rw [encode_append, List.append_assoc]
    exact peek_bind hw rfl _ _
  · have hnull : x.isNull = false := by
      cases x <;> first | rfl | exact absurd rfl hx
    rw [hnull]
    exact fails_unless h hw hx _ _ rest

/-- Reads the end of an object that is a choice. -/
def endVariant (value : α) : Reader α := do
  match ← peek with
  | none => failHere .endOfObject
  | some b =>
    if b == Mark.closeObject then do
      skip
      return value
    else
      failHere .valueExpected

/-- Reads an object that is a choice, behind its opening brace. -/
def variantObject (c : Choice) : Reader c.Val := do
  let value ← variant c (← variantKey)
  colon
  unitValue
  endVariant value

/-- After the word and its `null` the object has to close. -/
theorem endVariant_spelled {ms : List (String × Json)} {t : List Char}
    (h : (Json.Part.members false ms).Spelled t) (value : α) (rest : Bytes) :
    (endVariant value).Yields (encode t ++ rest) (if ms.isEmpty then some value else none)
      rest := by
  cases h with
  | endMembers hw =>
    rw [encode_append, List.append_assoc]
    exact peek_bind hw rfl _ _
  | member hw _ _ _ _ _ =>
    cases hw with
    | comma hw _ =>
      rw [encode_append, encode_append, List.append_assoc, List.append_assoc]
      refine Fails.of_bind_ok (peek_gap hw rfl _) ?_
      exact fails_failHere _ _ _

theorem variantKey_end {w : List Char} (hw : IsGap w) (rest : Bytes) :
    variantKey.Fails (encode (w ++ ['\x7d']) ++ rest) := by
  rw [encode_append, List.append_assoc]
  exact Fails.of_bind_ok (peek_gap hw rfl _) (fails_failNext _ _)

/-- A word of a choice as the key of an object. -/
theorem variantObject_spelled (c : Choice) {ms : List (String × Json)} {t : List Char}
    (h : (Json.Part.members true ms).Spelled t) (rest : Bytes) :
    (variantObject c).Yields (encode t ++ rest) ((Json.object ms).decode (.choice c)) rest := by
  cases h with
  | endMembers hw => exact Fails.bind (variantKey_end hw rest) _
  | @member _ key x ms w k u v t t' hw hk hu hv hx hms =>
    have hdecode : (Json.object ((key, x) :: ms)).decode (.choice c) =
        (c.words.lookup key).bind fun value =>
          (if x.isNull then some () else none).bind fun () =>
            if ms.isEmpty then some value else none := by
      cases ms with
      | nil =>
        change (if x.isNull then c.words.lookup key else none) = _
        cases x.isNull <;> cases c.words.lookup key <;> rfl
      | cons m ms =>
        change none = _
        cases x.isNull <;> cases c.words.lookup key <;> rfl
    have hw : IsGap w := by
      cases hw
      assumption
    have hkey : variantKey (encode w ++ Mark.quote :: (encode k ++ Mark.quote :: (encode u ++
        Mark.colon :: (encode (v ++ t) ++ (encode t' ++ rest))))) =
          .ok (key, encode u ++ Mark.colon :: (encode (v ++ t) ++ (encode t' ++ rest))) :=
      (peek_bind hw rfl _ _).trans (text_spelled hk _)
    rw [hdecode, encode_member]
    refine Yields.of_bind_ok hkey ?_
    refine (variant_yields c key _).bind fun value _ => ?_
    refine Yields.of_bind_ok (colon_gap hu _) ?_
    exact (unitValue_spelled hx hv _).bind fun _ _ => endVariant_spelled hms value rest

theorem choiceValue_spelled (c : Choice) {x : Json} {t : List Char} (h : x.Spelled t)
    {w : List Char} (hw : IsGap w) (rest : Bytes) :
    (choiceValue c).Yields (encode (w ++ t) ++ rest) (x.decode (.choice c)) rest := by
  obtain ⟨b, u, hb, -, hpeek⟩ := peek_spelled h hw rest
  refine Yields.of_bind_ok hpeek ?_
  dsimp only
  by_cases hstring : b = Mark.quote
  · obtain ⟨s, rfl⟩ := (hstring ▸ hb).eq_string
    cases h with
    | @string _ t hs =>
      have htext : text (encode ('"' :: (t ++ ['"'])) ++ rest) = .ok (s, rest) := by
        have hsplit := encode_string [] t rest
        rw [List.nil_append] at hsplit
        rw [hsplit]
        exact text_spelled hs rest
      rw [if_pos (by rw [hstring]; rfl)]
      exact Yields.of_bind_ok htext (variant_yields c s rest)
  · rw [if_neg (by simpa using hstring)]
    by_cases hobject : b = Mark.openObject
    · obtain ⟨ms, rfl⟩ := (hobject ▸ hb).eq_object
      cases h with
      | object ht =>
        rw [if_pos (by rw [hobject]; rfl)]
        exact variantObject_spelled c ht rest
    · have hnone : x.decode (.choice c) = none := by
        cases x <;> first | rfl | exact absurd hb hstring | exact absurd hb hobject
      rw [if_neg (by simpa using hobject), hnone]
      exact fails_failNext _ _

/-! ## Every shape -/

theorem read_spelled (n : Nat) : ReadsShapesBelow n (read n) := by
  -- the induction is on the bound, which goes down with every value that is entered
  induction n with
  | zero => exact fun _ _ _ _ _ _ _ hn _ => absurd hn (Nat.not_lt_zero _)
  | succ n ih =>
    intro s x t w rest h hw hn hrest
    have hn : t.length ≤ n := Nat.le_of_lt_succ hn
    cases s with
    | text => exact textValue_spelled h hw rest
    | boolean => exact booleanValue_spelled h hw rest
    | count => exact countValue_spelled h hw hrest
    | tally => exact tallyValue_spelled h hw hn rest
    | list item => exact listValue_spelled (ih item) h hw hn rest
    | record r => exact recordValue_spelled ih r h hw hn rest
    | choice c => exact choiceValue_spelled c h hw rest

end Reader

end HeaderSchema
