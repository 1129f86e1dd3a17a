import Mathlib.Data.List.Basic
import Mathlib.Data.List.Forall2

/-!
# Texts made of lines

A text in which every line is ended can be cut into its lines in one way only
(`Lines.text_injective`). The lines are cut further where one of them is of a kind
that the lines before it are not of: once (`append_inj_of_head`), or again and
again, each block of lines being opened by a line of its own kind
(`forall₂_of_blocks`). Within a line, items that show where they end are read one
after another (`eq_of_flatMap_eq`).
-/

namespace HeaderSchema

/-! ## Where a list can be cut -/

section Cuts
variable {α β : Type} {p : α → Prop}

/-- Two lists are cut at the same place if all before the cut satisfies `p` and
what opens the rest does not. -/
theorem append_inj_of_head {xs xs' ys ys' : List α} (hxs : ∀ x ∈ xs, p x)
    (hxs' : ∀ x ∈ xs', p x) (hys : ∀ y ∈ ys.head?, ¬p y) (hys' : ∀ y ∈ ys'.head?, ¬p y)
    (h : xs ++ ys = xs' ++ ys') : xs = xs' ∧ ys = ys' := by
  induction xs generalizing xs' with
  | nil =>
    cases xs' with
    | nil => exact ⟨rfl, h⟩
    | cons x' xs' =>
      have hhead : x' ∈ ys.head? := by
        rw [List.nil_append] at h
        simp [h]
      exact absurd (hxs' x' List.mem_cons_self) (hys x' hhead)
  | cons x xs ih =>
    cases xs' with
    | nil =>
      have hhead : x ∈ ys'.head? := by
        rw [List.nil_append] at h
        simp [← h]
      exact absurd (hxs x List.mem_cons_self) (hys' x hhead)
    | cons x' xs' =>
      rw [List.cons_append, List.cons_append] at h
      obtain ⟨rfl, hrest⟩ := List.cons_eq_cons.1 h
      obtain ⟨rfl, rfl⟩ := ih (List.forall_mem_cons.1 hxs).2 (List.forall_mem_cons.1 hxs').2 hrest
      exact ⟨rfl, rfl⟩

/-- What stands before the first `a` and what stands behind it. -/
theorem append_cons_inj_of_not_mem {a : α} {xs xs' ys ys' : List α} (hxs : a ∉ xs)
    (hxs' : a ∉ xs') (h : xs ++ a :: ys = xs' ++ a :: ys') : xs = xs' ∧ ys = ys' := by
  obtain ⟨hbefore, hbehind⟩ := append_inj_of_head (p := (· ≠ a))
    (fun x hx heq => hxs (heq ▸ hx)) (fun x hx heq => hxs' (heq ▸ hx))
    (by simp) (by simp) h
  exact ⟨hbefore, (List.cons_eq_cons.1 hbehind).2⟩

/-- Lists that a function maps to the same list are the same, if the function can be
undone on their items. -/
theorem eq_of_map_eq {f : β → α} {as bs : List β} (hf : ∀ a ∈ as, ∀ b ∈ bs, f a = f b → a = b)
    (h : as.map f = bs.map f) : as = bs := by
  induction as generalizing bs with
  | nil => exact (List.map_eq_nil_iff.1 h.symm).symm
  | cons a as ih =>
    cases bs with
    | nil => cases h
    | cons b bs =>
      obtain ⟨hhead, htail⟩ := List.cons_eq_cons.1 h
      rw [hf a List.mem_cons_self b List.mem_cons_self hhead, ih (fun a' ha' b' hb' =>
        hf a' (List.mem_cons_of_mem a ha') b' (List.mem_cons_of_mem b hb')) htail]

theorem map_eq_of_forall₂ {R : β → β → Prop} {f : β → α} {as bs : List β}
    (hf : ∀ a b, R a b → f a = f b) (h : List.Forall₂ R as bs) : as.map f = bs.map f := by
  rw [← List.forall₂_eq_eq_eq, List.forall₂_map_left_iff, List.forall₂_map_right_iff]
  exact h.imp hf

/-- Items are read in one way, one after another, if each of them shows where it ends
and none is empty. -/
theorem eq_of_flatMap_eq {f : β → List α} {as bs : List β} (hne : ∀ b, f b ≠ [])
    (hf : ∀ a ∈ as, ∀ b ∈ bs, ∀ xs ys, f a ++ xs = f b ++ ys → a = b ∧ xs = ys)
    (h : as.flatMap f = bs.flatMap f) : as = bs := by
  induction as generalizing bs with
  | nil =>
    cases bs with
    | nil => rfl
    | cons b bs =>
      rw [List.flatMap_nil, List.flatMap_cons] at h
      exact absurd (List.append_eq_nil_iff.1 h.symm).1 (hne b)
  | cons a as ih =>
    cases bs with
    | nil =>
      rw [List.flatMap_nil, List.flatMap_cons] at h
      exact absurd (List.append_eq_nil_iff.1 h).1 (hne a)
    | cons b bs =>
      rw [List.flatMap_cons, List.flatMap_cons] at h
      obtain ⟨rfl, hrest⟩ := hf a List.mem_cons_self b List.mem_cons_self _ _ h
      rw [ih (fun a' ha' b' hb' => hf a' (List.mem_cons_of_mem a ha') b'
        (List.mem_cons_of_mem a hb')) hrest]

/-- A block is opened by an item that does not satisfy `p`, and all behind it does. -/
structure IsBlock (p : α → Prop) (block : α × List α) : Prop where
  opens : ¬p block.1
  inside : ∀ x ∈ block.2, p x

/-- The items of a block. -/
def blockItems (block : α × List α) : List α :=
  block.1 :: block.2

theorem not_of_mem_head?_blocks {bs : List β} {block : β → α × List α}
    (h : ∀ b ∈ bs, ¬p (block b).1) :
    ∀ y ∈ (bs.flatMap fun b => blockItems (block b)).head?, ¬p y := by
  cases bs with
  | nil => simp
  | cons b bs =>
    intro y hy
    obtain rfl : (block b).1 = y := by simpa [blockItems] using hy
    exact h b List.mem_cons_self

/-- Two lists of blocks with the same items are alike block by block, in whatever
way two blocks with the same items are. -/
theorem forall₂_of_blocks {R : β → β → Prop} {block : β → α × List α} {as bs : List β}
    (has : ∀ a ∈ as, IsBlock p (block a)) (hbs : ∀ b ∈ bs, IsBlock p (block b))
    (halike : ∀ a ∈ as, ∀ b ∈ bs, block a = block b → R a b)
    (h : as.flatMap (fun a => blockItems (block a)) =
      bs.flatMap fun b => blockItems (block b)) :
    List.Forall₂ R as bs := by
  induction as generalizing bs with
  | nil =>
    cases bs with
    | nil => exact .nil
    | cons b bs => simp [blockItems] at h
  | cons a as ih =>
    cases bs with
    | nil => simp [blockItems] at h
    | cons b bs =>
      obtain ⟨ha, has⟩ := List.forall_mem_cons.1 has
      obtain ⟨hb, hbs⟩ := List.forall_mem_cons.1 hbs
      rw [List.flatMap_cons, List.flatMap_cons, blockItems, blockItems, List.cons_append,
        List.cons_append] at h
      obtain ⟨hopens, hrest⟩ := List.cons_eq_cons.1 h
      obtain ⟨hinside, hrest⟩ := append_inj_of_head ha.inside hb.inside
        (not_of_mem_head?_blocks fun a' ha' => (has a' ha').opens)
        (not_of_mem_head?_blocks fun b' hb' => (hbs b' hb').opens) hrest
      refine .cons (halike a List.mem_cons_self b List.mem_cons_self
        (Prod.ext hopens hinside)) ?_
      exact ih has hbs (fun a' ha' b' hb' => halike a' (List.mem_cons_of_mem a ha') b'
        (List.mem_cons_of_mem b hb')) hrest

/-- With one more separator in front, each part is opened by a separator. -/
theorem append_intercalate (sep : List α) {f : β → List α} {bs : List β} (h : bs ≠ []) :
    sep ++ sep.intercalate (bs.map f) = bs.flatMap fun b => sep ++ f b := by
  induction bs with
  | nil => exact absurd rfl h
  | cons b bs ih =>
    cases bs with
    | nil => simp
    | cons c cs =>
      rw [List.flatMap_cons, ← ih (by simp)]
      simp

theorem not_mem_intercalate {a : α} {sep : List α} {f : β → List α} {bs : List β}
    (hsep : a ∉ sep) (hf : ∀ b ∈ bs, a ∉ f b) : a ∉ sep.intercalate (bs.map f) := by
  intro ha
  have hne : bs ≠ [] := by
    rintro rfl
    exact List.not_mem_nil ha
  have hmem : a ∈ bs.flatMap fun b => sep ++ f b := by
    rw [← append_intercalate sep hne]
    exact List.mem_append_right sep ha
  obtain ⟨b, hb, hmem⟩ := List.mem_flatMap.1 hmem
  exact (List.mem_append.1 hmem).elim hsep (hf b hb)

end Cuts

/-! ## Lines -/

namespace Lines

/-- The text of some lines, each with its line end. -/
def text (lines : List (List Char)) : List Char :=
  lines.flatMap (· ++ ['\n'])

theorem text_cons (l : List Char) (ls : List (List Char)) :
    text (l :: ls) = l ++ '\n' :: text ls :=
  List.append_assoc l ['\n'] (text ls)

theorem text_append (ls ls' : List (List Char)) : text (ls ++ ls') = text ls ++ text ls' :=
  List.flatMap_append

theorem text_flatMap {α : Type} (as : List α) (lines : α → List (List Char)) :
    text (as.flatMap lines) = as.flatMap fun a => text (lines a) :=
  List.flatMap_assoc

theorem getLast?_text {ls : List (List Char)} (h : ls ≠ []) :
    (text ls).getLast? = some '\n' := by
  rcases List.eq_nil_or_concat ls with rfl | ⟨before, last, rfl⟩
  · exact absurd rfl h
  · simp [text, List.getLast?_append]

/-- **Lines are cut in one way.** -/
theorem text_injective {ls ls' : List (List Char)} (hls : ∀ l ∈ ls, '\n' ∉ l)
    (hls' : ∀ l ∈ ls', '\n' ∉ l) (h : text ls = text ls') : ls = ls' := by
  induction ls generalizing ls' with
  | nil =>
    cases ls' with
    | nil => rfl
    | cons l' ls' => simp [text] at h
  | cons l ls ih =>
    cases ls' with
    | nil => simp [text] at h
    | cons l' ls' =>
      rw [text_cons, text_cons] at h
      obtain ⟨rfl, hrest⟩ := append_cons_inj_of_not_mem (hls l List.mem_cons_self)
        (hls' l' List.mem_cons_self) h
      rw [ih (List.forall_mem_cons.1 hls).2 (List.forall_mem_cons.1 hls').2 hrest]

end Lines

end HeaderSchema
