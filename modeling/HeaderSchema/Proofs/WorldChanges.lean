import HeaderSchema.CommandLine.World
import Mathlib.Data.List.TakeWhile

/-!
# What a change does to a world

A tree is looked at place by place: there is nothing, a directory, or a file with
its content (`FileTree.spot`). To put a file or an empty directory where no
directory was changes this place alone (`FileTree.spot_put`). So directories stay
directories, and a path that led somewhere still leads there
(`World.Extends.place`). Both operations that change a world come down to such a
change at the place that their path leads to then (`World.makeDirectory_cases`,
`World.writeFile_cases`); or else they fail and nothing is changed.
-/

namespace HeaderSchema

/-- What there is at a place. -/
inductive Spot where
  | nothing
  | directory
  | file (content : Bytes)
deriving Repr, DecidableEq

/-- What a tree is by itself, whatever its entries are. -/
def Spot.of : Option FileTree → Spot
  | none => .nothing
  | some (.directory _) => .directory
  | some (.file content) => .file content

namespace FileTree

/-- What there is at a place of a tree. -/
def spot (tree : FileTree) (place : List String) : Spot :=
  .of (tree.get? place)

/-- There is nothing below the tree: it is a file or an empty directory. -/
def IsLeaf (tree : FileTree) : Prop :=
  ∀ name below, tree.get? (name :: below) = none

theorem isLeaf_file (content : Bytes) : (file content).IsLeaf :=
  fun _ _ => rfl

theorem isLeaf_directory : (directory []).IsLeaf :=
  fun _ _ => rfl

theorem spot_eq_directory_iff {tree : FileTree} {place : List String} :
    tree.spot place = .directory ↔ ∃ entries, tree.get? place = some (directory entries) := by
  unfold spot
  cases tree.get? place with
  | none => simp [Spot.of]
  | some found => cases found <;> simp [Spot.of]

theorem spot_eq_file_iff {tree : FileTree} {place : List String} {content : Bytes} :
    tree.spot place = .file content ↔ tree.get? place = some (file content) := by
  unfold spot
  cases tree.get? place with
  | none => simp [Spot.of]
  | some found => cases found <;> simp [Spot.of]

theorem spot_eq_nothing_iff {tree : FileTree} {place : List String} :
    tree.spot place = .nothing ↔ tree.get? place = none := by
  unfold spot
  cases tree.get? place with
  | none => simp [Spot.of]
  | some found => cases found <;> simp [Spot.of]

theorem spot_nil_ne (tree : FileTree) : tree.spot [] ≠ .nothing := by
  rw [Ne, spot_eq_nothing_iff]
  exact Option.some_ne_none tree

/-! ## Changes of a tree -/

theorem lookup_setEntry (name key : String) (new : FileTree) (entries : List (String × FileTree)) :
    (setEntry name new entries).lookup key =
      if key = name then some new else entries.lookup key := by
  induction entries with
  | nil =>
    by_cases h : key = name
    · simp [setEntry, h]
    · simp [setEntry, List.lookup_cons, h, beq_eq_false_iff_ne.2 h]
  | cons e entries ih =>
    obtain ⟨other, tree⟩ := e
    rw [setEntry]
    by_cases hother : other = name
    · rw [if_pos hother, hother]
      by_cases h : key = name
      · simp [h]
      · simp [List.lookup_cons, h, beq_eq_false_iff_ne.2 h]
    · rw [if_neg hother, List.lookup_cons, List.lookup_cons, ih]
      by_cases h : key = other
      · simp [h, hother]
      · simp [beq_eq_false_iff_ne.2 h]

theorem put_of_lookup {name : String} {names : List String} (hnames : names ≠ [])
    {entries : List (String × FileTree)} {inner : FileTree}
    (hinner : entries.lookup name = some inner) (new : FileTree) :
    (directory entries).put (name :: names) new =
      directory (setEntry name (inner.put names new) entries) := by
  obtain ⟨next, names, rfl⟩ := List.exists_cons_of_ne_nil hnames
  rw [put, hinner]

theorem get?_cons_eq_some {name : String} {names : List String} {tree found : FileTree}
    (h : tree.get? (name :: names) = some found) :
    ∃ entries inner, tree = directory entries ∧ entries.lookup name = some inner ∧
      inner.get? names = some found := by
  cases tree with
  | file content => cases h
  | directory entries =>
    obtain ⟨inner, hinner, hfound⟩ := Option.bind_eq_some_iff.1 h
    exact ⟨entries, inner, rfl, hinner, hfound⟩

theorem get?_append (tree : FileTree) (place below : List String) :
    tree.get? (place ++ below) = (tree.get? place).bind (get? below) := by
  induction place generalizing tree with
  | nil => rfl
  | cons name place ih =>
    rw [List.cons_append, get?, get?, Option.bind_assoc]
    exact Option.bind_congr fun inner _ => ih inner

theorem spot_directory_cons (entries : List (String × FileTree)) (name : String)
    (below : List String) :
    (directory entries).spot (name :: below) = .of ((entries.lookup name).bind (get? below)) :=
  rfl

/-- There is nothing below what is no directory. -/
theorem spot_eq_nothing_of_ne {tree : FileTree} {place : List String}
    (h : tree.spot place ≠ .directory) (name : String) (below : List String) :
    tree.spot (place ++ name :: below) = .nothing := by
  rw [spot_eq_nothing_iff, get?_append]
  cases hplace : tree.get? place with
  | none => rfl
  | some found =>
    cases found with
    | file content => rfl
    | directory entries => exact absurd (spot_eq_directory_iff.2 ⟨entries, hplace⟩) h

/-- **One change, one place.** What is put where no directory was is there, and
all else is as it was. -/
theorem spot_put {place : List String} {last : String} {tree new : FileTree}
    (hplace : tree.spot place = .directory) (hfree : tree.spot (place ++ [last]) ≠ .directory)
    (hnew : new.IsLeaf) (other : List String) :
    (tree.put (place ++ [last]) new).spot other =
      if other = place ++ [last] then new.spot [] else tree.spot other := by
  induction place generalizing tree other with
  | nil =>
    obtain ⟨entries, hentries⟩ := spot_eq_directory_iff.1 hplace
    cases hentries
    rw [List.nil_append] at hfree ⊢
    rw [put]
    cases other with
    | nil => rfl
    | cons first below =>
      rw [spot_directory_cons, lookup_setEntry]
      by_cases hfirst : first = last
      · subst hfirst
        rw [if_pos rfl, Option.bind_some]
        cases below with
        | nil => rw [if_pos rfl, spot]
        | cons name below =>
          -- nothing is below the new tree, and nothing was below the old one
          rw [if_neg (by simp), hnew name below]
          exact (spot_eq_nothing_of_ne hfree name below).symm
      · rw [if_neg hfirst, if_neg (by simp [hfirst]), spot_directory_cons]
  | cons name place ih =>
    obtain ⟨_, hget⟩ := spot_eq_directory_iff.1 hplace
    obtain ⟨siblings, inner, rfl, hinner, hget⟩ := get?_cons_eq_some hget
    have hspot (below : List String) :
        (directory siblings).spot (name :: below) = inner.spot below := by
      rw [spot_directory_cons, hinner]
      rfl
    rw [List.cons_append, hspot] at hfree
    rw [List.cons_append, put_of_lookup (by simp) hinner]
    cases other with
    | nil => rfl
    | cons first below =>
      rw [spot_directory_cons, lookup_setEntry]
      by_cases hfirst : first = name
      · subst hfirst
        rw [if_pos rfl, hspot]
        exact (ih (hspot place ▸ hplace) hfree below).trans (by simp)
      · rw [if_neg hfirst, if_neg (by simp [hfirst]), spot_directory_cons]

end FileTree

namespace World

/-- What there is at a place of a world. -/
def spot (w : World) (place : List String) : Spot :=
  w.root.spot place

/-! ## Where a path leads to -/

theorem tree_of_place {w : World} {path : String} {place : List String} {content : Bytes}
    (hplace : w.place path = .ok place) (hspot : w.spot place = .file content) :
    w.tree path = .ok (.file content) := by
  rw [tree, hplace]
  dsimp only
  rw [FileTree.spot_eq_file_iff.1 hspot]

theorem step_eq (w : World) (place : List String) (piece : String) :
    w.step place piece =
      match w.spot place with
      | .nothing => .error .notFound
      | .file _ => .error .notADirectory
      | .directory =>
        if Path.isIdle piece then .ok place
        else if piece = ".." then .ok place.dropLast
        else if w.spot (place ++ [piece]) = .nothing then .error .notFound
        else .ok (place ++ [piece]) := by
  unfold step spot
  cases hplace : w.root.get? place with
  | none => rw [FileTree.spot_eq_nothing_iff.2 hplace]
  | some found =>
    cases found with
    | file content => rw [FileTree.spot_eq_file_iff.2 hplace]
    | directory entries =>
      have hget : w.root.get? (place ++ [piece]) = entries.lookup piece := by
        rw [FileTree.get?_append, hplace]
        exact Option.bind_fun_some _
      rw [FileTree.spot_eq_directory_iff.2 ⟨entries, hplace⟩]
      simp only [FileTree.spot_eq_nothing_iff, hget]
      cases entries.lookup piece <;> simp

theorem walk_append {w : World} {start place : List String} {pieces : List String}
    (h : w.walk start pieces = .ok place) (more : List String) :
    w.walk start (pieces ++ more) = w.walk place more := by
  induction pieces generalizing start with
  | nil =>
    cases h
    rfl
  | cons piece pieces ih =>
    rw [List.cons_append]
    rw [walk] at h ⊢
    split at h
    · exact ih h
    · cases h

/-- Empty pieces lead nowhere else. -/
theorem walk_replicate {w : World} {place : List String} (h : w.spot place = .directory) (n : Nat) :
    w.walk place (List.replicate n "") = .ok place := by
  induction n with
  | zero => rfl
  | succ n ih =>
    rw [List.replicate_succ, walk, step_eq, h]
    exact ih

theorem startOf_append (w : World) {pieces : List String} (h : pieces ≠ []) (more : List String) :
    w.startOf (pieces ++ more) = w.startOf pieces := by
  obtain ⟨first, pieces, rfl⟩ := List.exists_cons_of_ne_nil h
  by_cases hfirst : first = ""
  · subst hfirst
    rfl
  · simp [startOf, hfirst]

/-- Everything is still there, and it is still a directory where it was one. -/
structure Extends (w w' : World) : Prop where
  workingDirectory : w'.workingDirectory = w.workingDirectory
  directory : ∀ place, w.spot place = .directory → w'.spot place = .directory
  something : ∀ place, w.spot place ≠ .nothing → w'.spot place ≠ .nothing

namespace Extends
variable {w w' : World} (hextends : w.Extends w')
include hextends

theorem step {start next : List String} {piece : String} (h : w.step start piece = .ok next) :
    w'.step start piece = .ok next := by
  rw [step_eq] at h ⊢
  cases hstart : w.spot start with
  | nothing => rw [hstart] at h; cases h
  | file content => rw [hstart] at h; cases h
  | directory =>
    rw [hstart] at h
    rw [hextends.directory start hstart]
    dsimp only at h ⊢
    split at h
    · next hidle => rw [if_pos hidle, h]
    · next hidle =>
      rw [if_neg hidle]
      split at h
      · next hparent => rw [if_pos hparent, h]
      · next hparent =>
        rw [if_neg hparent]
        split at h
        · cases h
        · next hthere => rw [if_neg (hextends.something _ hthere), h]

theorem walk {start place : List String} {pieces : List String}
    (h : w.walk start pieces = .ok place) : w'.walk start pieces = .ok place := by
  induction pieces generalizing start with
  | nil => exact h
  | cons piece pieces ih =>
    rw [World.walk] at h ⊢
    split at h
    · next next hstep =>
      rw [hextends.step hstep]
      exact ih h
    · cases h

theorem startOf (pieces : List String) : w'.startOf pieces = w.startOf pieces := by
  unfold World.startOf
  rw [hextends.workingDirectory]

/-- A path that leads somewhere still leads there. -/
theorem place {path : String} {place : List String} (h : w.place path = .ok place) :
    w'.place path = .ok place := by
  unfold World.place at h ⊢
  split at h
  · cases h
  · next hpath =>
    rw [if_neg hpath, hextends.startOf]
    exact hextends.walk h

end Extends

/-! ## Changes of a world -/

theorem extends_of_spot {w w' : World} {place : List String} {there : Spot}
    (hworking : w'.workingDirectory = w.workingDirectory) (hfree : w.spot place ≠ .directory)
    (hthere : there ≠ .nothing)
    (hspot : ∀ other, w'.spot other = if other = place then there else w.spot other) :
    w.Extends w' := by
  refine ⟨hworking, ?directory, ?something⟩
  case directory =>
    intro other hother
    have hne : other ≠ place := fun heq => hfree (heq ▸ hother)
    rw [hspot, if_neg hne, hother]
  case something =>
    intro other hother
    rw [hspot]
    split
    · exact hthere
    · exact hother

/-- One place was changed, at which there was no directory; the path leads there
now. -/
structure Placed (w w' : World) (path : String) (place : List String) (there : Spot) : Prop where
  workingDirectory : w'.workingDirectory = w.workingDirectory
  free : w.spot place ≠ .directory
  spot : ∀ other, w'.spot other = if other = place then there else w.spot other
  leads : w'.place path = .ok place

namespace Placed
variable {w w' : World} {path : String} {place : List String} {there : Spot}
  (h : Placed w w' path place there)
include h

theorem spot_self : w'.spot place = there := by
  rw [h.spot, if_pos rfl]

theorem spot_of_ne {other : List String} (hother : other ≠ place) :
    w'.spot other = w.spot other := by
  rw [h.spot, if_neg hother]

theorem isExtension (hthere : there ≠ .nothing) : w.Extends w' :=
  extends_of_spot h.workingDirectory h.free hthere h.spot

end Placed

section LastPiece
variable {w : World} {path last : String} {before place : List String} {n : Nat}
  (hpieces : Path.pieces path = before ++ [last] ++ List.replicate n "")
  (hwalk : w.walk (w.startOf (before ++ [last])) before = .ok place)
  (hplace : w.spot place = .directory) (hname : (Path.isIdle last || last == "..") = false)
  (hfree : w.spot (place ++ [last]) ≠ .directory)
include hpieces hwalk hplace hname hfree

/-- What is put at the last piece of a path, in the directory that the pieces
before it lead to. -/
theorem placed_put (hpath : path ≠ "") {new : FileTree} (hnew : new.IsLeaf)
    (hends : n = 0 ∨ new.spot [] = .directory) :
    Placed w (w.put (place ++ [last]) new) path (place ++ [last]) (new.spot []) := by
  have hspot := FileTree.spot_put hplace hfree hnew
  have hthere := new.spot_nil_ne
  have hextends : w.Extends (w.put (place ++ [last]) new) :=
    extends_of_spot rfl hfree hthere hspot
  have hself : (w.put (place ++ [last]) new).spot (place ++ [last]) = new.spot [] :=
    (hspot _).trans (if_pos rfl)
  refine ⟨rfl, hfree, hspot, ?leads⟩
  case leads =>
    rw [Bool.or_eq_false_iff] at hname
    have hstep : (w.put (place ++ [last]) new).step place last = .ok (place ++ [last]) := by
      rw [step_eq, hextends.directory place hplace]
      simp [hname.1, beq_eq_false_iff_ne.1 hname.2, hself, hthere]
    have hlast : (w.put (place ++ [last]) new).walk (w.startOf (before ++ [last]))
        (before ++ [last]) = .ok (place ++ [last]) := by
      rw [walk_append (hextends.walk hwalk), walk, hstep]
      rfl
    rw [World.place, if_neg hpath, hextends.startOf, hpieces, startOf_append _ (by simp),
      walk_append hlast]
    rcases hends with rfl | hdirectory
    · rfl
    · exact walk_replicate (hself.trans hdirectory) n

end LastPiece

theorem lookupLast_eq_ok {w : World} {pieces place : List String} {last : String}
    (h : w.lookupLast pieces = .ok (place, last)) :
    ∃ before, pieces = before ++ [last] ∧ w.walk (w.startOf pieces) before = .ok place ∧
      w.spot place = .directory := by
  unfold lookupLast at h
  split at h
  · cases h
  · next _ before hpieces =>
    split at h
    · cases h
    · next _ hwalk =>
      split at h
      · cases h
      · cases h
      · next entries hentries =>
        cases h
        refine ⟨before.reverse, ?_, hwalk, FileTree.spot_eq_directory_iff.2 ⟨entries, hentries⟩⟩
        rw [← List.reverse_cons, ← hpieces, List.reverse_reverse]

/-- Only empty pieces were trimmed away. -/
theorem pieces_eq_trimmed (path : String) :
    ∃ n, Path.pieces path = trimmed path ++ List.replicate n "" := by
  have hempty : ∀ piece ∈ (Path.pieces path).reverse.takeWhile (· == ""), piece = "" := by
    intro piece hpiece
    have hends := List.mem_takeWhile_imp (p := (· == "")) hpiece
    exact beq_iff_eq.1 hends
  refine ⟨((Path.pieces path).reverse.takeWhile (· == "")).length, ?_⟩
  rw [← List.reverse_replicate, ← List.eq_replicate_of_mem hempty, trimmed,
    ← List.reverse_append, List.takeWhile_append_dropWhile, List.reverse_reverse]

theorem makeDirectory_cases (w : World) (path : String) :
    (∃ e, w.makeDirectory path = (.error e, w)) ∨
      ∃ w', w.makeDirectory path = (.ok (), w') ∧
        ∃ place, w.spot place = .nothing ∧ Placed w w' path place .directory := by
  unfold makeDirectory
  split
  · exact .inl ⟨_, rfl⟩
  · next hpath =>
    split
    · exact .inl ⟨_, rfl⟩
    · split
      · exact .inl ⟨_, rfl⟩
      · next place last hlast =>
        split
        · exact .inl ⟨_, rfl⟩
        · next hname =>
          split
          · exact .inl ⟨_, rfl⟩
          · next hfree =>
            rw [Bool.not_eq_true] at hname
            have hnothing : w.spot (place ++ [last]) = .nothing :=
              FileTree.spot_eq_nothing_iff.2 (Option.not_isSome_iff_eq_none.1 hfree)
            obtain ⟨before, htrimmed, hwalk, hplace⟩ := lookupLast_eq_ok hlast
            obtain ⟨n, hpieces⟩ := pieces_eq_trimmed path
            rw [htrimmed] at hpieces hwalk
            exact .inr ⟨_, rfl, _, hnothing, placed_put hpieces hwalk hplace hname
              (by simp [hnothing]) hpath FileTree.isLeaf_directory (.inr rfl)⟩

theorem writeFile_cases (w : World) (path : String) (content : Bytes) :
    (∃ e, w.writeFile path content = (.error e, w)) ∨
      ∃ w', w.writeFile path content = (.ok (), w') ∧
        ∃ place, Placed w w' path place (.file content) := by
  unfold writeFile
  split
  · exact .inl ⟨_, rfl⟩
  · next hpath =>
    split
    · exact .inl ⟨_, rfl⟩
    · split
      · exact .inl ⟨_, rfl⟩
      · next place last hlast =>
        split
        · exact .inl ⟨_, rfl⟩
        · next hname =>
          split
          · exact .inl ⟨_, rfl⟩
          · next hfree =>
            rw [Bool.not_eq_true, Bool.or_eq_false_iff, bne_eq_false_iff_eq] at hname
            obtain ⟨before, htrimmed, hwalk, hplace⟩ := lookupLast_eq_ok hlast
            have hpieces : Path.pieces path = before ++ [last] ++ List.replicate 0 "" := by
              rw [← hname.2, htrimmed, List.replicate_zero, List.append_nil]
            have hfile : w.spot (place ++ [last]) ≠ .directory := by
              intro hdirectory
              obtain ⟨entries, hentries⟩ := FileTree.spot_eq_directory_iff.1 hdirectory
              exact hfree entries hentries
            rw [htrimmed] at hwalk
            exact .inr ⟨_, rfl, _, placed_put hpieces hwalk hplace hname.1 hfile hpath
              (FileTree.isLeaf_file content) (.inl rfl)⟩

end World

end HeaderSchema
