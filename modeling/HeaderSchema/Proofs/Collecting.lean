import HeaderSchema.Proofs.FileViews
import HeaderSchema.Proofs.PathOrder
import Mathlib.Data.List.Nodup

/-!
# Which package files are collected

An input stands for the package files `FileView.packagePaths`. If every input can stand
for some (`FileView.Admits`) and every directory among them is listed (`Host.Lists`),
their paths are inserted into one list, in which each stands in one of its spellings
(`FileView.Collected`, `collectPaths_answers`). So every path that was found is
collected once, and in a world no two of them lead to one place unless they begin
differently or go up (`collected_once`). If they do, one file may be collected twice,
and an entry of a directory is not asked what it is (`collected_twice`).
-/

namespace HeaderSchema

/-! ## What inputs stand for -/

namespace FileView
variable {v : FileView} {input path : String}

/-- The input can stand for package files: it is a directory or a package file. -/
def Admits (v : FileView) (input : String) : Prop :=
  v.isDirectory input ∨ v.isFile input ∧ Path.isJson input

instance (v : FileView) (input : String) : Decidable (v.Admits input) :=
  inferInstanceAs (Decidable (_ ∨ _))

/-- The package files that an input stands for: the file itself, or what a directory
has under the names of package files. -/
def packagePaths (v : FileView) (input : String) : List String :=
  match v.find? input with
  | some (.directory names) => (names.map (Path.child input)).filter Path.isJson
  | some .file => [input]
  | none => []

theorem packagePaths_of_isFile (h : v.isFile path) : v.packagePaths path = [path] := by
  rw [packagePaths, isFile_iff.1 h]

theorem mem_packagePaths (h : path ∈ v.packagePaths input) :
    (path = input ∧ v.isFile path) ∨ ∃ names, v.find? input = some (.directory names) ∧
      ∃ name ∈ names, path = Path.child input name := by
  unfold packagePaths at h
  split at h
  · next names hfind =>
    obtain ⟨name, hname, rfl⟩ := List.mem_map.1 (List.mem_filter.1 h).1
    exact .inr ⟨names, hfind, name, hname, rfl⟩
  · next hfind =>
    cases List.mem_singleton.1 h
    exact .inl ⟨rfl, isFile_iff.2 hfind⟩
  · cases h

theorem isJson_of_mem_packagePaths (hadmits : v.Admits input) (h : path ∈ v.packagePaths input) :
    Path.isJson path := by
  unfold packagePaths at h
  split at h
  · exact (List.mem_filter.1 h).2
  · next hfile =>
    cases List.mem_singleton.1 h
    refine (hadmits.resolve_left fun hdirectory => ?_).2
    obtain ⟨names, hnames⟩ := isDirectory_iff.1 hdirectory
    cases hfile.symm.trans hnames
  · cases h

/-- What an input stands for is there. -/
theorem has_of_mem_packagePaths (hnamed : v.Named) (h : path ∈ v.packagePaths input) :
    v.Has path := by
  rcases mem_packagePaths h with ⟨-, hfile⟩ | ⟨names, hfind, name, hname, hpath⟩
  · exact .inl hfile
  · exact .inr ⟨input, names, hfind, name, hname, hnamed input names hfind name hname, hpath⟩

/-- The paths are what the inputs stand for, each in one of its spellings and in the
order of paths. -/
structure Collected (v : FileView) (inputs paths : List String) : Prop where
  sorted : Path.Sorted paths
  found : ∀ path ∈ paths, path ∈ inputs.flatMap v.packagePaths
  all : ∀ path ∈ inputs.flatMap v.packagePaths, Path.parts path ∈ paths.map Path.parts

theorem Collected.of_perm {inputs listed : List String}
    (h : listed.Perm (inputs.flatMap v.packagePaths)) :
    v.Collected inputs (Path.insertAll listed []) where
  sorted := Path.sorted_insertAll Path.sorted_nil
  found _ hpath :=
    h.mem_iff.1 ((Path.mem_of_mem_insertAll hpath).resolve_right List.not_mem_nil)
  all _ hpath :=
    Path.parts_mem_insertAll_iff.2 (.inl (List.mem_map_of_mem (h.mem_iff.2 hpath)))

end FileView

namespace Host
variable {σ : Type} [Host (StateM σ)] (view : σ → FileView) (v : FileView)

/-- The system never refuses to list a path. -/
def Lists (path : String) : Prop :=
  Answers view v (Host.entries path) fun answer => ∃ listed, answer = .ok listed

/-- The input can stand for package files, and if it is a directory it is listed. -/
def Admits (input : String) : Prop :=
  v.Admits input ∧ (v.isDirectory input → Lists view v input)

end Host

namespace World
variable {w : World} {refused : List Path.Part → Option FileError} {input : String}

/-- The package files that an input stands for in a world. -/
def packagePaths (w : World) (input : String) : List String :=
  match w.tree input with
  | .ok (.directory entries) =>
    (entries.map fun e => Path.child input e.1).filter fun path => Path.isJson path
  | .ok (.file _) => [input]
  | .error _ => []

theorem packagePaths_view : (w.view refused).packagePaths input = w.packagePaths input := by
  rw [FileView.packagePaths, find?_view, find?, packagePaths]
  rcases w.tree input with e | content | entries
  · rfl
  · rfl
  · dsimp only
    rw [List.map_map]
    rfl

/-- A world by itself lists all directories. -/
theorem admits_iff {v : FileView} : Host.Admits openView v input ↔ v.Admits input := by
  refine and_iff_left fun hdirectory s hs => ?_
  subst hs
  obtain ⟨names, hfind⟩ := FileView.isDirectory_iff.1 hdirectory
  obtain ⟨entries, htree, -⟩ := find?_eq_directory.1 hfind
  refine ⟨⟨entries.map (·.1), ?_⟩, rfl⟩
  change s.entries input = _
  rw [World.entries, htree]

end World

/-! ## Collecting -/

section Collecting
variable {σ : Type} [Host (StateM σ)] {view : σ → FileView}

section Views
variable (hsystem : Host.Presents view)
include hsystem

/-- An error in place of a list of names is an answer of a system that may refuse. -/
theorem entries_answers {v : FileView} {path : String} {names : List String}
    (hnames : v.find? path = some (.directory names)) :
    Answers view v (Host.entries path) fun answer =>
      (∃ listed, answer = .ok listed ∧ listed.Perm names) ∨
      (¬Host.Lists view v path ∧ ∃ e, answer = .error e) := by
  have hanswers := hsystem.entries v path names hnames
  by_cases hlists : Host.Lists view v path
  · refine (hanswers.and hlists).mono ?_
    rintro _ ⟨hlisted | ⟨e, rfl⟩, listed, hok⟩
    · exact .inl hlisted
    · cases hok
  · exact hanswers.mono fun _ => Or.imp_right fun herror => ⟨hlists, herror⟩

/-- What an input stands for is added in some order, or the input is refused. -/
theorem addInput_answers (v : FileView) (input : String) (paths : List String) :
    Answers view v (addInput input paths) fun answer =>
      (v.Admits input ∧ ∃ listed, listed.Perm (v.packagePaths input) ∧
        answer = .ok (Path.insertAll listed paths)) ∨
      (¬Host.Admits view v input ∧ ∃ reason, answer = .error reason) := by
  unfold addInput Host.Admits FileView.Admits
  refine (hsystem.isDirectory v input).bind fun _ h => ?_
  subst h
  by_cases hdirectory : v.isDirectory input
  · obtain ⟨names, hfind⟩ := FileView.isDirectory_iff.1 hdirectory
    rw [if_pos hdirectory, FileView.packagePaths, hfind]
    refine (entries_answers hsystem hfind).bind ?_
    rintro _ (⟨listed, rfl, hperm⟩ | ⟨hunlisted, e, rfl⟩)
    · exact .pure (.inl ⟨.inl hdirectory, _, (hperm.map _).filter _, rfl⟩)
    · exact .pure (.inr ⟨fun hadmits => hunlisted (hadmits.2 hdirectory), _, rfl⟩)
  · rw [if_neg hdirectory]
    refine (hsystem.isFile v input).bind fun _ h => ?_
    subst h
    by_cases hfile : v.isFile input
    · rw [if_pos hfile, FileView.packagePaths_of_isFile hfile]
      by_cases hjson : Path.isJson input
      · rw [if_pos hjson]
        exact .pure (.inl ⟨.inr ⟨hfile, hjson⟩, [input], .refl _, rfl⟩)
      · rw [if_neg hjson]
        exact .pure (.inr ⟨by simp [hdirectory, hjson], _, rfl⟩)
    · rw [if_neg hfile]
      exact .pure (.inr ⟨by simp [hdirectory, hfile], _, rfl⟩)

/-- What the inputs stand for is inserted input by input, in some order for each. -/
theorem collectPaths_inserts (v : FileView) (inputs paths : List String) :
    Answers view v (collectPaths paths inputs) fun answer =>
      ((∀ input ∈ inputs, v.Admits input) ∧ ∃ listed,
        listed.Perm (inputs.flatMap v.packagePaths) ∧
          answer = .ok (Path.insertAll listed paths)) ∨
      ((∃ input ∈ inputs, ¬Host.Admits view v input) ∧ ∃ reason, answer = .error reason) := by
  induction inputs generalizing paths with
  | nil => exact .pure (.inl ⟨nofun, [], .refl _, rfl⟩)
  | cons input inputs ih =>
    refine (addInput_answers hsystem v input paths).bind ?_
    rintro _ (⟨hadmits, listed, hperm, rfl⟩ | ⟨hadmits, reason, rfl⟩)
    · refine (ih (Path.insertAll listed paths)).mono ?_
      rintro _ (⟨hall, more, hmore, rfl⟩ | ⟨⟨other, hother, hrefused⟩, hfails⟩)
      · refine .inl ⟨List.forall_mem_cons.2 ⟨hadmits, hall⟩, listed ++ more, ?_, ?_⟩
        · exact hperm.append hmore
        · rw [Path.insertAll_append]
      · exact .inr ⟨⟨other, List.mem_cons_of_mem input hother, hrefused⟩, hfails⟩
    · exact .pure (.inr ⟨⟨input, List.mem_cons_self, hadmits⟩, reason, rfl⟩)

/-- **What is collected**, if every input can stand for package files; and there is an
error else, or over a directory that may not be listed. -/
theorem collectPaths_answers (v : FileView) (inputs : List String) :
    Answers view v (collectPaths [] inputs) fun answer =>
      ((∀ input ∈ inputs, v.Admits input) ∧ ∃ paths, answer = .ok paths ∧
        v.Collected inputs paths) ∨
      ((∃ input ∈ inputs, ¬Host.Admits view v input) ∧ ∃ reason, answer = .error reason) := by
  refine (collectPaths_inserts hsystem v inputs []).mono ?_
  rintro _ (⟨hadmits, listed, hperm, rfl⟩ | hrefused)
  · exact .inl ⟨hadmits, _, rfl, .of_perm hperm⟩
  · exact .inr hrefused

/-- What was collected without an error. -/
theorem collected_of_ok {s : σ} {inputs paths : List String}
    (h : (runOn s (collectPaths [] inputs)).1 = .ok paths) :
    (∀ input ∈ inputs, (view s).Admits input) ∧ (view s).Collected inputs paths := by
  rcases (collectPaths_answers hsystem (view s) inputs s rfl).1 with
    ⟨hadmits, collected, hok, hcollected⟩ | ⟨-, reason, hfails⟩
  · cases h.symm.trans hok
    exact ⟨hadmits, hcollected⟩
  · cases h.symm.trans hfails

end Views

/-- A success of `validate` says how many paths were collected. -/
theorem runValidate_counts {s : σ} {inputs paths : List String}
    (h : (runOn s (collectPaths [] inputs)).1 = .ok paths)
    (hexit : (runOn s (runValidate inputs)).1.exit = 0) :
    ∃ total : Nat, (runOn s (runValidate inputs)).1 =
      .success s!"Validated {paths.length} package file(s) with {total} container(s).\n" := by
  unfold runValidate at hexit ⊢
  rw [runOn_bind, h] at hexit ⊢
  cases paths with
  | nil => cases hexit
  | cons path paths =>
    dsimp only at hexit ⊢
    rw [runOn_bind] at hexit ⊢
    split at hexit
    · cases hexit
    · next total _ => exact ⟨total, rfl⟩

/-- **Each path once.** A collected path is that of a package file among the inputs, or
of an entry of a directory among them, whatever that entry is. Whatever an input stands
for is collected in exactly one of its spellings, and this is what a success of
`validate` counts. Two collected paths can only lead to one place if they begin
differently or if one of them goes up. -/
theorem collected_once {world : σ → World} {refused : List Path.Part → Option FileError}
    (hsystem : Host.Shows world refused) {s : σ} {inputs paths : List String}
    (h : (runOn s (collectPaths [] inputs)).1 = .ok paths) :
    let w := world s
    (∀ path ∈ paths, Path.isJson path ∧
      ((path ∈ inputs ∧ w.isFile path) ∨
        ∃ input ∈ inputs, ∃ entries, w.tree input = .ok (.directory entries) ∧
          ∃ e ∈ entries, path = Path.child input e.1)) ∧
    (∀ input ∈ inputs, ∀ path ∈ w.packagePaths input,
      ∃! found, found ∈ paths ∧ Path.parts found = Path.parts path) ∧
    (paths.map Path.parts).Nodup ∧
    (∀ path ∈ paths, ∀ other ∈ paths, path ≠ other → ∀ place, w.place path = .ok place →
      w.place other = .ok place →
        Path.beginning path ≠ Path.beginning other ∨ ¬Path.Direct path ∨ ¬Path.Direct other) ∧
    ((runOn s (runValidate inputs)).1.exit = 0 → ∃ total : Nat,
      (runOn s (runValidate inputs)).1 =
        .success s!"Validated {paths.length} package file(s) with {total} container(s).\n") := by
  intro w
  obtain ⟨hadmits, hcollected⟩ := collected_of_ok hsystem.presents h
  have hnodup := hcollected.sorted.nodup
  have hunique : ∀ path ∈ paths, ∀ other ∈ paths, Path.parts path = Path.parts other →
      path = other := fun _ hpath _ hother => List.inj_on_of_nodup_map hnodup hpath hother
  refine ⟨fun path hpath => ?found, fun input hinput path hpath => ?all, hnodup, ?apart,
    runValidate_counts h⟩
  case found =>
    obtain ⟨input, hinput, hpath⟩ := List.mem_flatMap.1 (hcollected.found path hpath)
    refine ⟨FileView.isJson_of_mem_packagePaths (hadmits input hinput) hpath, ?_⟩
    rcases FileView.mem_packagePaths hpath with ⟨rfl, hfile⟩ | ⟨names, hfind, name, hname, rfl⟩
    · exact .inl ⟨hinput, World.isFile_view.symm.trans hfile⟩
    · obtain ⟨entries, htree, rfl⟩ := World.find?_eq_directory.1 hfind
      obtain ⟨e, he, rfl⟩ := List.mem_map.1 hname
      exact .inr ⟨input, hinput, entries, htree, e, he, rfl⟩
  case all =>
    rw [← World.packagePaths_view] at hpath
    obtain ⟨found, hfound, hparts⟩ := List.mem_map.1
      (hcollected.all path (List.mem_flatMap.2 ⟨input, hinput, hpath⟩))
    refine ⟨found, ⟨hfound, hparts⟩, fun other hother => ?_⟩
    exact hunique other hother.1 found hfound (hother.2.trans hparts.symm)
  case apart =>
    intro path hpath other hother hne place hplace hplace'
    by_contra hsame
    simp only [not_or, not_not] at hsame
    obtain ⟨hbeginning, hdirect, hdirect'⟩ := hsame
    exact hne (hunique path hpath other hother
      (World.parts_eq_of_place_eq hplace hplace' hbeginning hdirect hdirect'))

end Collecting

/-- A package file that is named twice and is in a listed directory too. -/
theorem collected_once_covered :
    let w : World := ⟨.directory [("p.json", .file []),
      ("d", .directory [("x.json", .file []), ("notes.txt", .file [])])], [], .ok [], "now"⟩
    let inputs := ["p.json", "d/x.json", "d", "d/x.json"]
    (runOn w (collectPaths [] inputs)).1 = .ok ["d/x.json", "p.json"] ∧
    ∃! found, found ∈ ["d/x.json", "p.json"] ∧ Path.parts found = Path.parts "d/x.json" := by
  intro w inputs
  have hpaths : (runOn w (collectPaths [] inputs)).1 = .ok ["d/x.json", "p.json"] := rfl
  obtain ⟨-, hall, -⟩ := collected_once World.shows hpaths
  exact ⟨hpaths, hall "d" (by decide) "d/x.json" (by decide)⟩

/-- Paths that begin differently are two, though they lead to one file; and a directory
among the entries is collected by its name. -/
theorem collected_twice :
    let w : World := ⟨.directory [("p.json", .file []),
      ("d", .directory [("z.json", .directory [])])], [], .ok [], "now"⟩
    (runOn w (collectPaths [] ["p.json", "./p.json"])).1 = .ok ["./p.json", "p.json"] ∧
    w.place "./p.json" = w.place "p.json" ∧
    (runOn w (collectPaths [] ["d"])).1 = .ok ["d/z.json"] ∧ w.isFile "d/z.json" = false := by
  refine ⟨rfl, rfl, rfl, rfl⟩

end HeaderSchema
