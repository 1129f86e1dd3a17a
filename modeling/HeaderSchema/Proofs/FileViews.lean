import HeaderSchema.Proofs.Footprint
import HeaderSchema.Proofs.Places

/-!
# What a system shows of its files

A command that only asks leaves what it asks about as it is, so its parts can be taken
one by one (`Answers.bind`).

A view says what is found at each path, and what is read where the parts of a path lead
(`FileView`). How paths lead to files is left open: there may be links, and files that
may not be read. A system presents a view if it answers by it, except that it lists
directories in an order of its own and may refuse to list a directory
(`Host.Presents`).

A world has a view (`World.view`), given which files may not be read. Paths with the same
parts lead to one place in it, so a system that shows a world presents its view
(`Host.Shows.presents`). Such a system is the world itself (`World.shows`), and so is a
world with closed directories (`GuardedWorld.shows`).
-/

namespace HeaderSchema

/-! ## Asking -/

section Answers
variable {σ ω α β : Type} {view : σ → ω} {v : ω}

/-- Run in a system with a view, a command answers as it should, and the view stays as
it is. -/
def Answers (view : σ → ω) (v : ω) (command : StateM σ α) (P : α → Prop) : Prop :=
  ∀ s, view s = v → P (runOn s command).1 ∧ view (runOn s command).2 = v

namespace Answers
variable {P Q : α → Prop} {command : StateM σ α}

theorem pure {a : α} (h : P a) : Answers view v (pure a) P :=
  fun _ hs => ⟨h, hs⟩

theorem bind {R : β → Prop} {f : α → StateM σ β} (h : Answers view v command P)
    (hf : ∀ a, P a → Answers view v (f a) R) : Answers view v (command >>= f) R := by
  intro s hs
  obtain ⟨ha, hs⟩ := h s hs
  exact hf _ ha _ hs

theorem mono (h : Answers view v command P) (hPQ : ∀ a, P a → Q a) :
    Answers view v command Q :=
  fun s hs => (h s hs).imp_left (hPQ _)

theorem and (hP : Answers view v command P) (hQ : Answers view v command Q) :
    Answers view v command fun a => P a ∧ Q a :=
  fun s hs => ⟨⟨(hP s hs).1, (hQ s hs).1⟩, (hP s hs).2⟩

/-- The answers to a view of a view are those to all views behind it. -/
theorem through {υ : Type} (f : ω → υ) {u : υ}
    (h : ∀ v, f v = u → Answers view v command P) : Answers (fun s => f (view s)) u command P := by
  intro s hs
  obtain ⟨hanswer, hstays⟩ := h (view s) hs s rfl
  exact ⟨hanswer, (congrArg f hstays).trans hs⟩

end Answers
end Answers

/-! ## Views -/

/-- What is found at a path. -/
inductive Finding where
  | file
  | directory (names : List String)
deriving Repr, DecidableEq

/-- What is to be known of files. -/
structure FileView where
  /-- What is found at a path, if anything. -/
  find? : String → Option Finding
  /-- What is read where the parts of a path lead. -/
  contentAt : List Path.Part → Except FileError Bytes

namespace FileView
variable {v : FileView} {path : String}

def isDirectory (v : FileView) (path : String) : Bool :=
  match v.find? path with
  | some (.directory _) => true
  | _ => false

def isFile (v : FileView) (path : String) : Bool :=
  match v.find? path with
  | some .file => true
  | _ => false

/-- All directories have proper names in them. -/
def Named (v : FileView) : Prop :=
  ∀ path names, v.find? path = some (.directory names) → ∀ name ∈ names, Path.IsName name

/-- The path is that of a file, or of what a directory has under a name. -/
def Has (v : FileView) (path : String) : Prop :=
  v.isFile path ∨ ∃ directory names, v.find? directory = some (.directory names) ∧
    ∃ name ∈ names, Path.IsName name ∧ path = Path.child directory name

theorem isDirectory_iff :
    v.isDirectory path ↔ ∃ names, v.find? path = some (.directory names) := by
  unfold isDirectory
  split
  · next h => simp [h]
  · next h => simpa using h

theorem isFile_iff : v.isFile path ↔ v.find? path = some .file := by
  unfold isFile
  split
  · next h => simp [h]
  · next h => simpa using h

end FileView

/-- A system that presents a view. It may list a directory in any order or refuse to.
What is read at a path that is there depends on the parts of the path alone. -/
structure Host.Presents {σ : Type} [Host (StateM σ)] (view : σ → FileView) : Prop where
  isDirectory : ∀ v path, Answers view v (Host.isDirectory path) (· = v.isDirectory path)
  isFile : ∀ v path, Answers view v (Host.isFile path) (· = v.isFile path)
  entries : ∀ v path names, v.find? path = some (.directory names) →
    Answers view v (Host.entries path) fun answer =>
      (∃ listed, answer = .ok listed ∧ listed.Perm names) ∨ ∃ e, answer = .error e
  readFile : ∀ v path, v.Has path →
    Answers view v (Host.readFile path) (· = v.contentAt (Path.parts path))

/-! ## Worlds -/

namespace World
variable (w : World) (refused : List Path.Part → Option FileError)

/-- What a system reads at a path if it refuses to read some of what is there. -/
def readUnless (path : String) : Except FileError Bytes :=
  match w.tree path with
  | .error e => .error e
  | .ok _ =>
    match refused (Path.parts path) with
    | some e => .error e
    | none => w.readFile path

/-- What is read where parts lead, by a system that may refuse to. -/
def contentAt (parts : List Path.Part) : Except FileError Bytes :=
  match refused parts with
  | some e => .error e
  | none => w.fileAt parts

/-- What is found at a path of a world. -/
def find? (path : String) : Option Finding :=
  match w.tree path with
  | .ok (.directory entries) => some (.directory (entries.map (·.1)))
  | .ok (.file _) => some .file
  | .error _ => none

/-- A world as it is seen by those who may not read some of it. -/
def view : FileView where
  find? := w.find?
  contentAt := w.contentAt refused

/-- A world as it is seen by those who may read all of it. -/
def openView : FileView :=
  w.view fun _ => none

variable {w refused} {path : String}

@[simp]
theorem find?_view : (w.view refused).find? path = w.find? path :=
  rfl

theorem find?_eq_directory {names : List String} :
    w.find? path = some (.directory names) ↔
      ∃ entries, w.tree path = .ok (.directory entries) ∧ entries.map (·.1) = names := by
  unfold find?
  split
  · next entries htree => simp [htree]
  · next htree => simp [htree]
  · next htree => simp [htree]

theorem find?_eq_file :
    w.find? path = some .file ↔ ∃ content, w.tree path = .ok (.file content) := by
  unfold find?
  split
  · next htree => simp [htree]
  · next content htree => simp [htree]
  · next htree => simp [htree]

@[simp]
theorem isDirectory_view : (w.view refused).isDirectory path = w.isDirectory path := by
  rw [FileView.isDirectory, find?_view, find?, isDirectory]
  rcases w.tree path with _ | _ | _ <;> rfl

@[simp]
theorem isFile_view : (w.view refused).isFile path = w.isFile path := by
  rw [FileView.isFile, find?_view, find?, isFile]
  rcases w.tree path with _ | _ | _ <;> rfl

theorem named_view (hnamed : w.Named) : (w.view refused).Named := by
  intro path names hfind name hname
  obtain ⟨entries, htree, rfl⟩ := find?_eq_directory.1 hfind
  obtain ⟨e, he, rfl⟩ := List.mem_map.1 hname
  obtain ⟨place, -, hplace⟩ := tree_eq_ok htree
  exact hnamed place entries hplace e he

theorem tree_of_has (h : (w.view refused).Has path) : ∃ tree, w.tree path = .ok tree := by
  rcases h with hfile | ⟨directory, names, hfind, name, hname, hproper, rfl⟩
  · obtain ⟨content, htree⟩ := find?_eq_file.1 (FileView.isFile_iff.1 hfile)
    exact ⟨_, htree⟩
  · obtain ⟨entries, htree, rfl⟩ := find?_eq_directory.1 hfind
    obtain ⟨e, he, rfl⟩ := List.mem_map.1 hname
    exact tree_child htree he hproper

theorem readUnless_eq {tree : FileTree} (h : w.tree path = .ok tree) :
    w.readUnless refused path = w.contentAt refused (Path.parts path) := by
  unfold readUnless contentAt
  cases refused (Path.parts path) with
  | some e => simp only [h]
  | none =>
    simp only [h]
    exact readFile_eq_fileAt h

end World

/-- A system that shows a world. It may list a directory in any order or refuse to, and
it may refuse to read a file that is there, whatever spelling of the path is used. -/
structure Host.Shows {σ : Type} [Host (StateM σ)] (world : σ → World)
    (refused : List Path.Part → Option FileError) : Prop where
  isDirectory : ∀ w path, Answers world w (Host.isDirectory path) (· = w.isDirectory path)
  isFile : ∀ w path, Answers world w (Host.isFile path) (· = w.isFile path)
  entries : ∀ w path names, w.entries path = .ok names →
    Answers world w (Host.entries path) fun answer =>
      (∃ listed, answer = .ok listed ∧ listed.Perm names) ∨ ∃ e, answer = .error e
  readFile : ∀ w path, Answers world w (Host.readFile path) (· = w.readUnless refused path)

theorem Host.Shows.presents {σ : Type} [Host (StateM σ)] {world : σ → World}
    {refused : List Path.Part → Option FileError} (h : Host.Shows world refused) :
    Host.Presents fun s => (world s).view refused where
  isDirectory v path := .through (World.view · refused) fun w hw => by
    rw [← hw, World.isDirectory_view]
    exact h.isDirectory w path
  isFile v path := .through (World.view · refused) fun w hw => by
    rw [← hw, World.isFile_view]
    exact h.isFile w path
  entries v path names hnames := .through (World.view · refused) fun w hw => by
    subst hw
    obtain ⟨entries, htree, rfl⟩ := World.find?_eq_directory.1 hnames
    exact h.entries w path _ (by rw [World.entries, htree])
  readFile v path hhas := .through (World.view · refused) fun w hw => by
    subst hw
    obtain ⟨tree, htree⟩ := World.tree_of_has hhas
    have hread := h.readFile w path
    rwa [World.readUnless_eq htree] at hread

/-- A world shows itself, and refuses nothing. -/
theorem World.shows : Host.Shows (id : World → World) fun _ => none where
  isDirectory _ _ s hs := ⟨by cases hs; rfl, hs⟩
  isFile _ _ s hs := ⟨by cases hs; rfl, hs⟩
  entries w path names hnames s hs := by
    cases hs
    exact ⟨.inl ⟨names, hnames, .refl names⟩, rfl⟩
  readFile w path s hs := by
    cases hs
    refine ⟨?_, rfl⟩
    change s.readFile path = s.readUnless (fun _ => none) path
    unfold World.readUnless World.readFile
    cases s.tree path <;> rfl

theorem World.presents : Host.Presents World.openView :=
  World.shows.presents

/-- A world in which the directories at some places may not be listed. -/
structure GuardedWorld where
  world : World
  closed : List (List String)

namespace GuardedWorld

/-- A command that the guard has nothing to do with. -/
def inside {α : Type} (command : StateM World α) : StateM GuardedWorld α := fun g =>
  ((runOn g.world command).1, { g with world := (runOn g.world command).2 })

def entries (g : GuardedWorld) (path : String) : Except FileError (List String) :=
  match g.world.place path with
  | .error e => .error e
  | .ok place =>
    if place ∈ g.closed then .error (.other "Permission denied (os error 13)")
    else g.world.entries path

instance : Host (StateM GuardedWorld) where
  input := inside Host.input
  readFile path := inside (Host.readFile path)
  isDirectory path := inside (Host.isDirectory path)
  isFile path := inside (Host.isFile path)
  entries path := do return (← get).entries path
  makeDirectory path := inside (Host.makeDirectory path)
  writeFile path content := inside (Host.writeFile path content)
  now := inside Host.now

theorem answers_inside {α : Type} {w : World} {command : StateM World α} {P : α → Prop}
    (h : Answers id w command P) : Answers GuardedWorld.world w (inside command) P :=
  fun g hg => h g.world hg

theorem shows : Host.Shows GuardedWorld.world fun _ => none where
  isDirectory w path := answers_inside (World.shows.isDirectory w path)
  isFile w path := answers_inside (World.shows.isFile w path)
  readFile w path := answers_inside (World.shows.readFile w path)
  entries w path names hnames g hg := by
    refine ⟨?_, hg⟩
    change (∃ listed, g.entries path = .ok listed ∧ _) ∨ ∃ e, g.entries path = .error e
    unfold entries
    cases g.world.place path with
    | error e => exact .inr ⟨e, rfl⟩
    | ok place =>
      dsimp only
      split
      · exact .inr ⟨_, rfl⟩
      · exact .inl ⟨names, hg ▸ hnames, .refl names⟩

end GuardedWorld

end HeaderSchema
