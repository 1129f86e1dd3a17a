import HeaderSchema.Extraction.Run
import HeaderSchema.Proofs.NumberLookahead
import HeaderSchema.Proofs.ShapeReading
import Mathlib.Data.List.TakeWhile

/-!
# Where a root ends

Reading a value and passing over one repeat their answers on every input that
begins with the same bytes, whatever the bound (`Reader.repeats_read`,
`Reader.repeats_skipNested`). The induction is on the bound: every step into a
value takes a byte, so the bound that is left is large enough for the bytes that
are left.

A record ends with a bracket, so it does not depend on the byte after it either
(`Reader.enclosed_of_recordValue`). So what follows the root of a dump makes no
difference, and no part of a root can be taken for the whole of one: it would
leave over what is missing (`Node.parse_cut`).
-/

namespace HeaderSchema

namespace Reader

variable {α : Type} {b? : Option UInt8} {m L : Nat}

/-! ## Passing over values -/

theorem repeats_skipStart : Repeats 1 L skipStart skipStart := by
  apply Repeats.peek_cases .failNext
  intro b
  have hword {tail : Bytes} (htail : tail ≠ []) :
      RepeatsAt (some b) 1 L (word tail >>= fun _ => pure none)
        (word tail >>= fun _ => pure (none : Option Bracket)) :=
    (repeats_word htail _).bind_taken fun _ => .pure none
  have hskip (bracket? : Option Bracket) : RepeatsAt (some b) 1 L
      (skip >>= fun _ => pure bracket?) (skip >>= fun _ => pure bracket?) :=
    (repeatsAt_skip b).bind_taken fun _ => .pure bracket?
  apply RepeatsAt.ite
  · exact (repeats_skipText _).bind_taken fun _ => .pure none
  apply RepeatsAt.ite (hskip (some .object))
  apply RepeatsAt.ite (hskip (some .list))
  apply RepeatsAt.ite
  · exact (repeats_skipNumber _).bind_taken fun _ => .pure none
  apply RepeatsAt.ite (hword (by decide))
  apply RepeatsAt.ite (hword (by decide))
  exact .ite (hword (by decide)) .failNext

theorem repeats_closeBrackets (fresh : Bool) (outer : List Bracket) :
    Repeats 0 L (closeBrackets fresh outer) (closeBrackets fresh outer) := by
  induction outer generalizing fresh with
  | nil => cases fresh <;> exact .pure []
  | cons b outer ih =>
    rw [closeBrackets]
    apply Repeats.peek_cases .failNext
    intro c
    apply RepeatsAt.ite ((repeats_skip _).bind fun _ => ih false)
    apply RepeatsAt.ite (.pure _)
    exact .ite ((repeats_skip _).bind fun _ => .pure _) .failNext

theorem repeats_skipKey : Repeats 1 L skipKey skipKey := by
  apply Repeats.peek_cases .failNext
  intro b
  apply RepeatsAt.ite _ .failNext
  exact (repeats_skipText _).bind fun _ => repeats_colon

theorem repeats_skipNested (n : Nat) (outer : List Bracket) {n' L : Nat} (hL : L ≤ n') :
    Repeats 1 L (skipNested n outer) (skipNested n' outer) := by
  induction n generalizing outer n' L with
  | zero => exact fun _ => .failNext
  | succ n ih =>
    refine Repeats.of_succ (f := fun n' => skipNested n' outer) (fun n' L _ hL => ?_) hL
    -- the start of a value takes a byte, which pays for one more value behind it
    have hafter (fresh : Bool) (outer : List Bracket) :
        Repeats 0 (L - 1) (afterValue n fresh outer) (afterValue n' fresh outer) := by
      have hnested (outer : List Bracket) :
          Repeats 1 (L - 1) (skipNested n outer) (skipNested n' outer) :=
        ih outer (by omega)
      apply (repeats_closeBrackets fresh outer).bind
      intro still
      rcases still with _ | ⟨_ | _, still⟩
      · exact .pure ()
      · exact fun b? => (hnested _ b?).forget
      · exact fun b? => (repeats_skipKey.bind (fun _ => hnested _) b?).forget
    rw [skipNested_succ, skipNested_succ]
    apply repeats_skipStart.bind_taken
    intro bracket?
    cases bracket? with
    | none => exact hafter false outer
    | some b => exact hafter true (b :: outer)

/-! ## Leaves -/

theorem repeats_wrongType {r' : Reader α} (expected : Expected) :
    Repeats m L (wrongType expected) r' :=
  .of_fails (fails_wrongType expected)

theorem repeats_textValue : Repeats 1 L textValue textValue :=
  .peek_ite (repeats_text _) (repeats_wrongType _)

theorem repeats_booleanValue : Repeats 1 L booleanValue booleanValue := by
  apply Repeats.peek_bind
  intro b?
  have hword {tail : Bytes} (htail : tail ≠ []) (value : Bool) :
      RepeatsAt b? 1 L (word tail >>= fun _ => pure value) (word tail >>= fun _ => pure value) :=
    (repeats_word htail _).bind_taken fun _ => .pure value
  split
  · exact hword (by decide) true
  · exact hword (by decide) false
  · exact repeats_wrongType _ _

theorem repeats_countValue : Repeats 1 L countValue countValue := by
  apply Repeats.peek_cases .failNext
  intro b
  apply RepeatsAt.ite _ (repeats_wrongType _ _)
  apply (repeats_number _).bind_taken
  intro n
  cases n with
  | natural k => exact .pure k
  | negative k => exact fun _ => .failHere
  | float x => exact fun _ => .failHere

theorem repeats_variant (c : Choice) (name : String) :
    Repeats 0 L (variant c name) (variant c name) := by
  unfold variant
  split
  · exact .pure _
  · exact fun _ => .failHere

theorem repeats_variantKey : Repeats 1 L variantKey variantKey := by
  apply Repeats.peek_cases .failNext
  intro b
  exact .ite (repeats_text _) (.ite .failNext .failNext)

theorem repeats_unitValue : Repeats 1 L unitValue unitValue :=
  .peek_ite (repeats_word (by decide) _) (repeats_wrongType _)

theorem repeats_choiceValue (c : Choice) : Repeats 1 L (choiceValue c) (choiceValue c) := by
  apply Repeats.peek_cases .failNext
  intro b
  apply RepeatsAt.ite ((repeats_text _).bind_taken fun _ => repeats_variant c _)
  apply RepeatsAt.ite _ .failNext
  apply (repeatsAt_skip b).bind_taken
  intro _
  apply repeats_variantKey.bind
  intro name
  apply (repeats_variant c name).bind
  intro value
  apply repeats_colon.bind
  intro _
  apply repeats_unitValue.bind
  intro _
  apply Repeats.peek_cases .failHere
  intro b
  exact .ite ((repeatsAt_skip b).bind fun _ => .pure value) .failHere

/-! ## Lists and tallies -/

theorem repeats_items {item item' : Reader α} (hitem : Repeats 1 L item item') (n : Nat)
    (first : Bool) (before : List α) {n' K : Nat} (hn : K ≤ n') (hK : K ≤ L) :
    Repeats 0 K (items item n first before) (items item' n' first before) := by
  induction n generalizing first before n' K with
  | zero => exact fun _ => .failNext
  | succ n ih =>
    refine Repeats.of_succ (f := fun n' => items item' n' first before) (fun n' J hJ hn => ?_) hn
    apply (repeats_nextItem first).bind
    intro more b?
    apply RepeatsAt.ite _ (.pure _)
    have hfirst : RepeatsAt b? 1 J item item' := (hitem b?).weaken (Nat.le_refl 1) (by omega)
    apply RepeatsAt.forget
    apply hfirst.bind_taken
    intro x
    exact ih false (x :: before) (by omega) (by omega)

theorem repeats_listValue {item item' : Reader α} (hitem : Repeats 1 (L - 1) item item') (n : Nat)
    {n' : Nat} (hn : L ≤ n' + 1) : Repeats 1 L (listValue item n) (listValue item' n') := by
  apply Repeats.peek_ite _ (repeats_wrongType _)
  apply (repeatsAt_skip _).bind_taken
  intro _
  apply (repeats_items hitem n true [] (by omega) (Nat.le_refl _)).bind
  intro xs
  exact closes_endList.repeats.bind fun _ => .pure xs

theorem repeats_tallyMembers (n : Nat) (first : Bool) (tally : Tally) {n' : Nat} (hn : L ≤ n') :
    Repeats 0 L (tallyMembers n first tally) (tallyMembers n' first tally) := by
  induction n generalizing first tally n' L with
  | zero => exact fun _ => .failNext
  | succ n ih =>
    refine Repeats.of_succ (f := fun n' => tallyMembers n' first tally) (fun n' K _ hn => ?_) hn
    apply (repeats_nextMember first).bind
    intro more b?
    apply RepeatsAt.ite _ (.pure _)
    apply RepeatsAt.forget
    apply (repeats_text b?).bind_taken
    intro name
    apply repeats_colon.bind
    intro _
    apply repeats_countValue.bind
    intro k
    exact ih false _ (by omega)

theorem repeats_tallyValue (n : Nat) {n' : Nat} (hn : L ≤ n' + 1) :
    Repeats 1 L (tallyValue n) (tallyValue n') := by
  apply Repeats.peek_ite _ (repeats_wrongType _)
  apply (repeatsAt_skip _).bind_taken
  intro _
  apply (repeats_tallyMembers n true .empty (by omega)).bind
  intro tally
  exact closes_endObject.repeats.bind fun _ => .pure tally

/-! ## Records -/

def Bracket.opening : Bracket → UInt8
  | .list => Mark.openList
  | .object => Mark.openObject

theorem Bracket.isBlankByte_opening (b : Bracket) : isBlankByte b.opening = false := by
  cases b <;> rfl

section Records
variable {value value' : (s : Shape) → Reader s.Val}
  (hvalue : ∀ s : Shape, Repeats 1 L (value s) (value' s))
include hvalue

theorem repeats_slotValue (slot : Slot) :
    Repeats 1 L (slotValue value slot) (slotValue value' slot) := by
  cases slot with
  | plain s => exact hvalue s
  | nullable s =>
    apply Repeats.peek_ite
    · exact (repeats_word (by decide) _).bind_taken fun _ => .pure none
    · exact (hvalue s).bind_taken fun x => .pure (some x)

theorem repeats_members (fields : List Field) (n : Nat) (first : Bool) (values : Partial fields)
    {n' K : Nat} (hn : K ≤ n') (hK : K ≤ L) :
    Repeats 0 K (members value fields n first values) (members value' fields n' first values) := by
  induction n generalizing first values n' K with
  | zero => exact fun _ => .failNext
  | succ n ih =>
    refine Repeats.of_succ (f := fun n' => members value' fields n' first values)
      (fun n' J hJ hn => ?_) hn
    apply (repeats_nextMember first).bind
    intro more b?
    apply RepeatsAt.ite _ (.pure _)
    apply RepeatsAt.forget
    apply (repeats_text b?).bind_taken
    intro key
    split
    · apply repeats_colon.bind
      intro _
      apply (repeats_skipNested n [] (by omega)).bind
      intro _
      exact ih false values (by omega) (by omega)
    · next field place _ =>
      split
      · exact .of_fails fun u => ⟨_, rfl⟩
      · have hslot : Repeats 1 (J - 1) (slotValue value field.slot) (slotValue value' field.slot) :=
          (repeats_slotValue hvalue field.slot).weaken (Nat.le_refl 1) (by omega)
        apply repeats_colon.bind
        intro _
        apply hslot.bind
        intro x
        exact ih false (values.set place x) (by omega) (by omega)

theorem closes_objectValue (r : Record) (n : Nat) {n' : Nat} (hn : L ≤ n') :
    Closes Mark.closeObject L (objectValue value r n) (objectValue value' r n') := by
  apply Closes.of_bind (repeats_members hvalue r.fields n true _ hn (Nat.le_refl L))
  intro values
  split
  · exact .of_fails fun u => ⟨_, rfl⟩
  · next values _ => exact closes_endObject.map fun _ => r.build values

theorem repeats_fieldItems {fields : List Field} (places : List (Placed fields)) (first : Bool)
    (values : Partial fields) :
    Repeats 0 L (fieldItems value places first values) (fieldItems value' places first values) := by
  induction places generalizing first values with
  | nil => exact .pure values
  | cons placed places ih =>
    apply (repeats_nextItem first).bind
    intro more b?
    apply RepeatsAt.ite _ (.pure values)
    apply (repeats_slotValue hvalue placed.1.slot b?).bind
    intro x
    exact ih false _

theorem closes_positionalValue (r : Record) :
    Closes Mark.closeList L (positionalValue value r) (positionalValue value' r) := by
  apply Closes.of_bind (repeats_fieldItems hvalue _ true _)
  intro values
  split
  · exact .of_fails fun u => ⟨_, rfl⟩
  · next values _ => exact closes_endList.map fun _ => r.build values

/-- A record behind its opening bracket. -/
def recordBehind (value : (s : Shape) → Reader s.Val) (r : Record) (n : Nat) :
    Bracket → Reader r.Val
  | .list => positionalValue value r
  | .object => objectValue value r n

theorem closes_recordBehind (r : Record) (n : Nat) {n' : Nat} (hn : L ≤ n') (b : Bracket) :
    Closes b.closing L (recordBehind value r n b) (recordBehind value' r n' b) := by
  cases b with
  | list => exact closes_positionalValue hvalue r
  | object => exact closes_objectValue hvalue r n hn

end Records

/-- The bytes are a pair of brackets with something between them and white space
before them. -/
def Enclosed (y : Bytes) : Prop :=
  ∃ w b c, (∀ a ∈ w, isBlankByte a = true) ∧ y = w ++ Bracket.opening b :: (c ++ [b.closing])

theorem recordValue_opening (value : (s : Shape) → Reader s.Val) (r : Record) (n : Nat)
    {w : Bytes} (hw : ∀ a ∈ w, isBlankByte a = true) (b : Bracket) (t : Bytes) :
    recordValue value r n (w ++ b.opening :: t) = recordBehind value r n b t := by
  have hpeek : peek (w ++ b.opening :: t) = .ok (some b.opening, b.opening :: t) := by
    have hskip : skipBlanks (w ++ b.opening :: t) = b.opening :: t :=
      (List.dropWhile_append_of_pos hw).trans (skipBlanks_cons b.isBlankByte_opening t)
    unfold peek
    rw [hskip]
    rfl
  unfold recordValue
  rw [bind_ok hpeek]
  cases b <;> rfl

/-- A record begins with a bracket. -/
theorem exists_opening_of_recordValue {value : (s : Shape) → Reader s.Val} {r : Record} {n : Nat}
    {u s : Bytes} {v : r.Val} (h : recordValue value r n u = .ok (v, s)) :
    ∃ (w : Bytes) (b : Bracket) (t : Bytes), (∀ a ∈ w, isBlankByte a = true) ∧
      u = w ++ b.opening :: t := by
  have hu : u.takeWhile isBlankByte ++ skipBlanks u = u := List.takeWhile_append_dropWhile
  have hw : ∀ a ∈ u.takeWhile isBlankByte, isBlankByte a = true := fun a ha =>
    List.mem_takeWhile_imp ha
  have hopening (b : Bracket) (hb : (skipBlanks u).head? = some b.opening) :
      ∃ t, u = u.takeWhile isBlankByte ++ b.opening :: t := by
    obtain ⟨t, ht⟩ := List.head?_eq_some_iff.1 hb
    exact ⟨t, by rw [← ht, hu]⟩
  have hpeek : peek u = .ok ((skipBlanks u).head?, skipBlanks u) := rfl
  unfold recordValue at h
  rw [bind_ok hpeek] at h
  split at h
  · next hobject =>
    obtain ⟨t, ht⟩ := hopening .object (eq_of_beq hobject)
    exact ⟨_, .object, t, hw, ht⟩
  split at h
  · next hlist =>
    obtain ⟨t, ht⟩ := hopening .list (eq_of_beq hlist)
    exact ⟨_, .list, t, hw, ht⟩
  · exact absurd h (fails_wrongType (.record r.name) (skipBlanks u)).ne_ok

/-- A record is enclosed in brackets, and what follows the closing one makes no
difference. -/
theorem enclosed_of_recordValue {value value' : (s : Shape) → Reader s.Val}
    (hvalue : ∀ s : Shape, Repeats 1 (L - 1) (value s) (value' s)) {r : Record} {n n' : Nat}
    (hn : L ≤ n' + 1) {u s : Bytes} {v : r.Val} (h : recordValue value r n u = .ok (v, s)) :
    ∃ y, Enclosed y ∧ u = y ++ s ∧
      (y.length < L → ∀ s', recordValue value' r n' (y ++ s') = .ok (v, s')) := by
  obtain ⟨w, b, t, hw, rfl⟩ := exists_opening_of_recordValue h
  rw [recordValue_opening value r n hw b t] at h
  obtain ⟨c, rfl, hsame⟩ := closes_recordBehind hvalue r n (by omega : L - 1 ≤ n') b t s v h
  refine ⟨w ++ b.opening :: (c ++ [b.closing]), ⟨w, b, c, hw, rfl⟩, by simp, fun hlt s' => ?_⟩
  simp only [List.length_append, List.length_cons] at hlt
  have hsplit : w ++ b.opening :: (c ++ [b.closing]) ++ s' =
      w ++ b.opening :: (c ++ b.closing :: s') := by simp
  rw [hsplit, recordValue_opening value' r n' hw b]
  exact hsame (by omega) s'

/-! ## Shapes -/

theorem repeats_read (n : Nat) (s : Shape) {n' : Nat} (hn : L ≤ n') :
    Repeats 1 L (read n s) (read n' s) := by
  induction n generalizing s n' L with
  | zero => exact fun _ => .failNext
  | succ n ih =>
    refine Repeats.of_succ (f := fun n' => read n' s) (fun n' L _ hn => ?_) hn
    have hvalue (s : Shape) : Repeats 1 (L - 1) (read n s) (read n' s) := ih s (by omega)
    cases s with
    | text => exact repeats_textValue
    | boolean => exact repeats_booleanValue
    | count => exact repeats_countValue
    | tally => exact repeats_tallyValue n hn
    | list item => exact repeats_listValue (hvalue item) n hn
    | choice c => exact repeats_choiceValue c
    | record r =>
      intro b? u s v _ hu
      obtain ⟨y, hy, rfl, hsame⟩ := enclosed_of_recordValue hvalue hn hu
      refine ⟨y, rfl, ?_, fun hlt s' _ => hsame hlt s'⟩
      obtain ⟨w, b, c, -, rfl⟩ := hy
      rw [List.length_append, List.length_cons]
      omega

end Reader

/-! ## Roots -/

open Reader (Enclosed)

namespace Shape

variable {r : Record}

/-- A record at the beginning of the input ends with its closing bracket, and
the rest of the input could be anything. -/
theorem enclosed_of_parse {input rest : Bytes} {value : r.Val}
    (h : (Shape.record r).parse input = .ok (value, rest)) :
    ∃ y, Enclosed y ∧ input = y ++ rest ∧
      ∀ rest', (Shape.record r).parse (y ++ rest') = .ok (value, rest') := by
  have hread (n n' : Nat) (s : Shape) :
      Reader.Repeats 1 n' (Reader.read n s) (Reader.read n' s) :=
    Reader.repeats_read n s (Nat.le_refl n')
  obtain ⟨y, hy, rfl, -⟩ := Reader.enclosed_of_recordValue (hread _ 0) (Nat.le_refl 1) h
  refine ⟨y, hy, rfl, fun rest' => ?_⟩
  -- another input has another bound
  obtain ⟨y', -, hsplit, hsame⟩ := Reader.enclosed_of_recordValue
    (hread _ (y ++ rest').length) (Nat.le_refl _) h
  rw [← List.append_cancel_right hsplit] at hsame
  refine hsame ?_ rest'
  rw [List.length_append]
  omega

/-- No part of a record is a record: the bytes that are missing would have been
left over. -/
theorem parse_cut_fails {y : Bytes} {value : r.Val}
    (h : (Shape.record r).parse y = .ok (value, [])) {z : Bytes} (hpart : z <+: y)
    (hne : z ≠ y) : ∃ fault, (Shape.record r).parse z = .error fault := by
  cases hz : (Shape.record r).parse z with
  | error fault => exact ⟨fault, rfl⟩
  | ok answer =>
    obtain ⟨value', rest⟩ := answer
    obtain ⟨d, rfl⟩ := hpart
    obtain ⟨c, -, rfl, hsame⟩ := enclosed_of_parse hz
    rw [List.append_assoc, hsame] at h
    have hnil : rest ++ d = [] := congrArg Prod.snd (Except.ok.inj h)
    rw [(List.append_eq_nil_iff.1 hnil).2, List.append_nil] at hne
    exact absurd rfl hne

end Shape

namespace Node

theorem parse_eq_ok {input : Bytes} {root : Node} (h : parse input = .ok root) :
    ∃ rest, (Shape.record .node).parse input = .ok (root, rest) := by
  unfold parse at h
  split at h
  · cases h
  · cases hparse : (Shape.record .node).parse input with
    | error fault =>
      rw [hparse] at h
      cases h
    | ok answer =>
      rw [hparse] at h
      cases h
      exact ⟨answer.2, rfl⟩

/-- **What follows the root makes no difference, and a root that is cut off is
noticed.** An input that is read as a root begins with the root between its
brackets. Whatever stands behind them, the root is the same; and if a part of them
is missing, the input is refused: as empty if it is blank, as malformed otherwise. -/
theorem parse_cut {input : Bytes} {root : Node} (h : parseStream (.ok input) = .ok root) :
    ∃ y, y <+: input ∧ Enclosed y ∧
      (∀ z : Bytes, y <+: z → parseStream (.ok z) = .ok root) ∧
      ∀ z : Bytes, z <+: y → z ≠ y →
        ((∀ b ∈ z, Reader.isBlankByte b = true) → parseStream (.ok z) = .error .emptyInput) ∧
        ((∃ b ∈ z, Reader.isBlankByte b = false) →
          ∃ message, parseStream (.ok z) = .error (.malformed message)) := by
  obtain ⟨rest, hparse⟩ := parse_eq_ok h
  obtain ⟨y, hy, rfl, hsame⟩ := Shape.enclosed_of_parse hparse
  have hblank : ∀ z : Bytes, (∃ b ∈ z, Reader.isBlankByte b = false) →
      z.all Reader.isBlankByte = false := by
    intro z ⟨b, hb, hne⟩
    exact List.all_eq_false.2 ⟨b, hb, by simp [hne]⟩
  refine ⟨y, List.prefix_append y rest, hy, ?_, fun z hz hne => ⟨fun hall => ?_, fun hbyte => ?_⟩⟩
  · rintro z ⟨rest', rfl⟩
    have hopening : ∃ b ∈ y ++ rest', Reader.isBlankByte b = false := by
      obtain ⟨w, b, c, -, rfl⟩ := hy
      exact ⟨b.opening, by simp, b.isBlankByte_opening⟩
    change parse _ = _
    rw [parse, hblank _ hopening, if_neg Bool.false_ne_true, hsame rest']
  · exact if_pos (List.all_eq_true.2 hall)
  · have hwhole := hsame []
    rw [List.append_nil] at hwhole
    obtain ⟨fault, hfault⟩ := Shape.parse_cut_fails hwhole hz hne
    change ∃ message, parse z = _
    rw [parse, hblank z hbyte, if_neg Bool.false_ne_true, hfault]
    exact ⟨_, rfl⟩

theorem parse_cut_behind_blanks :
    let input : Bytes := [0x20, Mark.openObject, Mark.closeObject, 0xFF]
    let root : Node := ⟨"", "", none, none, none, none, none, false, []⟩
    parseStream (.ok input) = .ok root ∧
      ∃ y, y <+: input ∧ Enclosed y ∧
        (∀ z : Bytes, y <+: z → parseStream (.ok z) = .ok root) ∧
        ∀ z : Bytes, z <+: y → z ≠ y →
          ((∀ b ∈ z, Reader.isBlankByte b = true) → parseStream (.ok z) = .error .emptyInput) ∧
          ((∃ b ∈ z, Reader.isBlankByte b = false) →
            ∃ message, parseStream (.ok z) = .error (.malformed message)) := by
  intro input root
  have hparse : parseStream (.ok input) = .ok root := rfl
  exact ⟨hparse, parse_cut hparse⟩

end Node

end HeaderSchema
