/-!
# Tallies

A tally counts by name. Its entries are sorted by name, each name once, so two
tallies that count alike are equal. Names are ordered by their characters' code
points, which is also the order of their UTF-8 bytes.
-/

namespace HeaderSchema

namespace Tally

/-- Entries in strictly increasing order of their names. -/
def Sorted (entries : List (String × Nat)) : Prop :=
  entries.Pairwise fun a b => a.1 < b.1

/-- Changes the count of a name, which is zero if the name is new. -/
def alterEntries (name : String) (f : Nat → Nat) : List (String × Nat) → List (String × Nat)
  | [] => [(name, f 0)]
  | (key, n) :: rest =>
    if name < key then (name, f 0) :: (key, n) :: rest
    else if key < name then (key, n) :: alterEntries name f rest
    else (key, f n) :: rest

theorem mem_alterEntries {name : String} {f : Nat → Nat} {entries : List (String × Nat)}
    {e : String × Nat} (h : e ∈ alterEntries name f entries) :
    e.1 = name ∨ ∃ d ∈ entries, e.1 = d.1 := by
  induction entries with
  | nil =>
    simp only [alterEntries, List.mem_singleton] at h
    exact .inl (by rw [h])
  | cons d rest ih =>
    obtain ⟨key, n⟩ := d
    simp only [alterEntries] at h
    split at h
    · rcases List.mem_cons.1 h with h | h
      · exact .inl (by rw [h])
      · exact .inr ⟨e, h, rfl⟩
    · split at h
      · rcases List.mem_cons.1 h with h | h
        · exact .inr ⟨(key, n), by simp, by rw [h]⟩
        · rcases ih h with h | ⟨d, hd, h⟩
          · exact .inl h
          · exact .inr ⟨d, by simp [hd], h⟩
      · rcases List.mem_cons.1 h with h | h
        · exact .inr ⟨(key, n), by simp, by rw [h]⟩
        · exact .inr ⟨e, by simp [h], rfl⟩

theorem sorted_alterEntries (name : String) (f : Nat → Nat) {entries : List (String × Nat)}
    (h : Sorted entries) : Sorted (alterEntries name f entries) := by
  induction entries with
  | nil => simp [alterEntries, Sorted]
  | cons d rest ih =>
    obtain ⟨key, n⟩ := d
    have hc := List.pairwise_cons.1 h
    simp only [alterEntries]
    split
    · rename_i hlt
      refine List.pairwise_cons.2 ⟨fun e he => ?_, h⟩
      rcases List.mem_cons.1 he with he | he
      · rw [he]; exact hlt
      · exact String.lt_trans hlt (hc.1 e he)
    · split
      · rename_i hlt
        refine List.pairwise_cons.2 ⟨fun e he => ?_, ih hc.2⟩
        rcases mem_alterEntries he with he | ⟨d, hd, he⟩
        · rw [he]; exact hlt
        · rw [he]; exact hc.1 d hd
      · exact List.pairwise_cons.2 ⟨fun e he => hc.1 e he, hc.2⟩

end Tally

/-- Counts by name, in increasing order of the names. -/
structure Tally where
  entries : List (String × Nat)
  sorted : Tally.Sorted entries

namespace Tally

theorem ext {a b : Tally} (h : a.entries = b.entries) : a = b := by
  cases a
  cases b
  cases h
  rfl

instance : DecidableEq Tally := fun a b =>
  if h : a.entries = b.entries then isTrue (ext h)
  else isFalse fun e => h (congrArg entries e)

/-- The tally in which nothing was counted. -/
def empty : Tally := ⟨[], .nil⟩

def alter (t : Tally) (name : String) (f : Nat → Nat) : Tally :=
  ⟨alterEntries name f t.entries, sorted_alterEntries name f t.sorted⟩

def count (t : Tally) (name : String) : Tally :=
  t.alter name (· + 1)

def set (t : Tally) (name : String) (n : Nat) : Tally :=
  t.alter name fun _ => n

def get (t : Tally) (name : String) : Nat :=
  (t.entries.lookup name).getD 0

def total (t : Tally) : Nat :=
  t.entries.foldr (fun e n => e.2 + n) 0

def isEmpty (t : Tally) : Bool :=
  t.entries.isEmpty

end Tally

end HeaderSchema
