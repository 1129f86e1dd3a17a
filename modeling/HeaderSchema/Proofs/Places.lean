import HeaderSchema.Proofs.WorldChanges

/-!
# Where the parts of a path lead

A path leads where its parts lead: the pieces that say nothing only ask for a
directory (`World.placeOf_parts`). So two spellings of one path that both lead
somewhere lead to the same place, and a file is read alike through both
(`World.readFile_eq_fileAt`). The entries of a directory that is there are there too,
if they bear proper names (`World.tree_child`).

The other way round, paths that lead to one place may have different parts. But if
they start alike and never go up, they have the same parts
(`World.parts_eq_of_place_eq`).
-/

namespace HeaderSchema

namespace Path

/-- The piece that spells a part. -/
def Part.piece : Part → String
  | .root => ""
  | .here => "."
  | .parent => ".."
  | .name text => text

theorem pieces_ne_nil (path : String) : pieces path ≠ [] := by
  simp [pieces, List.splitOnP_ne_nil]

theorem piece_of_ofPiece? {piece : String} {part : Part} (h : Part.ofPiece? piece = some part) :
    part.piece = piece := by
  unfold Part.ofPiece? at h
  split at h
  · cases h
  · split at h
    · next hparent =>
      cases h
      exact hparent.symm
    · cases h
      rfl

theorem ofPiece?_eq_none_iff {piece : String} :
    Part.ofPiece? piece = none ↔ isIdle piece = true := by
  unfold Part.ofPiece? isIdle
  by_cases hidle : piece = "" ∨ piece = "."
  · simp [hidle]
  · by_cases hparent : piece = ".." <;> simp [hidle, hparent]

theorem map_piece_filterMap (rest : List String) :
    (rest.filterMap Part.ofPiece?).map Part.piece = rest.filter (!isIdle ·) := by
  induction rest with
  | nil => rfl
  | cons piece rest ih =>
    cases hpart : Part.ofPiece? piece with
    | none =>
      have hidle := ofPiece?_eq_none_iff.1 hpart
      rw [List.filterMap_cons_none hpart, ih, List.filter_cons_of_neg (by simp [hidle])]
    | some part =>
      have hidle : ¬isIdle piece = true := by
        rw [← ofPiece?_eq_none_iff, hpart]
        exact Option.some_ne_none part
      rw [List.filterMap_cons_some hpart, List.map_cons, piece_of_ofPiece? hpart, ih,
        List.filter_cons_of_pos (by simp [hidle])]

theorem parts_eq {path first : String} {rest : List String} (h : pieces path = first :: rest) :
    parts path = (Part.ofFirst? path first).toList ++ rest.filterMap Part.ofPiece? := by
  unfold parts
  rw [h]

/-- The parts spell the path, without the pieces that say nothing. -/
theorem map_piece_parts {path first : String} {rest : List String} (hpath : path ≠ "")
    (h : pieces path = first :: rest) :
    (parts path).map Part.piece = first :: rest.filter (!isIdle ·) := by
  have hfirst : (Part.ofFirst? path first).toList.map Part.piece = [first] := by
    unfold Part.ofFirst?
    rw [if_neg hpath]
    split
    · next hroot => simp [hroot, Part.piece]
    · next hroot =>
      split
      · next hhere => simp [hhere, Part.piece]
      · next hhere =>
        have hsome : Part.ofPiece? first ≠ none := by
          simp [Ne, ofPiece?_eq_none_iff, isIdle, hroot, hhere]
        obtain ⟨part, hpart⟩ := Option.ne_none_iff_exists'.1 hsome
        simp [hpart, piece_of_ofPiece? hpart]
  rw [parts_eq h, List.map_append, hfirst, map_piece_filterMap]
  rfl

/-! ## Names -/

/-- What an entry of a directory may be called. -/
def IsName (name : String) : Prop :=
  isIdle name = false ∧ name ≠ ".." ∧ '/' ∉ name.toList

instance (name : String) : Decidable (IsName name) :=
  inferInstanceAs (Decidable (_ ∧ _))

theorem pieces_append_name (path : String) {name : String} (h : IsName name) :
    (path.toList ++ '/' :: name.toList).splitOnP (· == '/') =
      path.toList.splitOnP (· == '/') ++ [name.toList] := by
  have hname : name.toList.splitOnP (· == '/') = [name.toList] := by
    refine List.splitOnP_eq_singleton fun c hc => beq_eq_false_iff_ne.2 ?_
    rintro rfl
    exact h.2.2 hc
  rw [List.splitOnP_append_cons _ _ (by decide), hname]

/-- The path of an entry goes on from the pieces of the directory's path, of which an
empty one at the end is left out. -/
theorem pieces_child (directory : String) {name : String} (h : IsName name) :
    ∃ before, before ≠ [] ∧ pieces (child directory name) = before ++ [name] ∧
      (pieces directory = before ∨ pieces directory = before ++ [""]) := by
  by_cases hslash : directory.toList.getLast? = some '/'
  · obtain ⟨before, hbefore⟩ := List.getLast?_eq_some_iff.1 hslash
    refine ⟨pieces (String.ofList before), pieces_ne_nil _, ?_, .inr ?_⟩
    · have happend := pieces_append_name (String.ofList before) h
      rw [String.toList_ofList] at happend
      simp [child, pieces, hbefore, happend]
    · simp only [pieces, hbefore, String.toList_ofList]
      rw [List.splitOnP_append_cons _ _ (by decide), List.splitOnP_nil]
      simp
  · refine ⟨pieces directory, pieces_ne_nil _, ?_, .inl rfl⟩
    have happend := pieces_append_name directory h
    simp [child, pieces, hslash, happend]

end Path

namespace FileTree

/-- All entries of directories in the tree bear proper names. -/
def Named (tree : FileTree) : Prop :=
  ∀ place entries, tree.get? place = some (.directory entries) → ∀ e ∈ entries, Path.IsName e.1

theorem named_file (content : Bytes) : (file content).Named := by
  intro place entries h
  cases place <;> cases h

theorem named_directory {entries : List (String × FileTree)}
    (h : ∀ e ∈ entries, Path.IsName e.1 ∧ e.2.Named) : (directory entries).Named := by
  intro place found hfound
  cases place with
  | nil =>
    cases hfound
    exact fun e he => (h e he).1
  | cons name below =>
    obtain ⟨siblings, inner, hsiblings, hinner, hbelow⟩ := get?_cons_eq_some hfound
    cases hsiblings
    obtain ⟨before, after, rfl, -⟩ := List.lookup_eq_some_iff.1 hinner
    exact (h (name, inner) (by simp)).2 below found hbelow

end FileTree

namespace World
variable {w : World} {path : String} {place : List String}

/-- Where parts lead. -/
def placeOf (w : World) (parts : List Path.Part) : Except FileError (List String) :=
  w.walk (w.startOf (parts.map Path.Part.piece)) (parts.map Path.Part.piece)

/-- The content of the file that parts lead to. -/
def fileAt (w : World) (parts : List Path.Part) : Except FileError Bytes :=
  match w.placeOf parts with
  | .error e => .error e
  | .ok place =>
    match w.root.get? place with
    | none => .error .notFound
    | some (.file content) => .ok content
    | some (.directory _) => .error .isADirectory

/-! ## Walking -/

theorem step_idle {next : List String} {piece : String} (hidle : Path.isIdle piece = true)
    (h : w.step place piece = .ok next) : next = place := by
  rw [step_eq, if_pos hidle] at h
  split at h
  · cases h
  · cases h
  · exact (Except.ok.inj h).symm

theorem walk_filter {start : List String} {pieces : List String}
    (h : w.walk start pieces = .ok place) :
    w.walk start (pieces.filter (!Path.isIdle ·)) = .ok place := by
  induction pieces generalizing start with
  | nil => exact h
  | cons piece pieces ih =>
    rw [walk] at h
    split at h
    · next next hstep =>
      by_cases hidle : Path.isIdle piece = true
      · obtain rfl := step_idle hidle hstep
        rw [List.filter_cons_of_neg (by simp [hidle])]
        exact ih h
      · rw [List.filter_cons_of_pos (by simp [hidle]), walk, hstep]
        exact ih h
    · cases h

theorem walk_append_eq_ok {start : List String} {pieces more : List String}
    (h : w.walk start (pieces ++ more) = .ok place) :
    ∃ mid, w.walk start pieces = .ok mid ∧ w.walk mid more = .ok place := by
  induction pieces generalizing start with
  | nil => exact ⟨start, rfl, h⟩
  | cons piece pieces ih =>
    rw [List.cons_append, walk] at h
    split at h
    · next next hstep =>
      obtain ⟨mid, hmid, hmore⟩ := ih h
      exact ⟨mid, by rw [walk, hstep]; exact hmid, hmore⟩
    · cases h

theorem startOf_cons (w : World) (first : String) (rest rest' : List String) :
    w.startOf (first :: rest) = w.startOf (first :: rest') := by
  by_cases hfirst : first = ""
  · subst hfirst
    rfl
  · simp [startOf, hfirst]

theorem place_eq_ok (h : w.place path = .ok place) :
    path ≠ "" ∧ w.walk (w.startOf (Path.pieces path)) (Path.pieces path) = .ok place := by
  unfold World.place at h
  split at h
  · cases h
  · next hpath => exact ⟨hpath, h⟩

/-- **A path leads where its parts lead.** -/
theorem placeOf_parts (h : w.place path = .ok place) :
    w.placeOf (Path.parts path) = .ok place := by
  obtain ⟨hpath, hwalk⟩ := place_eq_ok h
  obtain ⟨first, rest, hpieces⟩ := List.exists_cons_of_ne_nil (Path.pieces_ne_nil path)
  rw [placeOf, Path.map_piece_parts hpath hpieces, w.startOf_cons first _ rest, ← hpieces]
  rw [hpieces] at hwalk ⊢
  rw [walk] at hwalk ⊢
  split at hwalk
  · next next hstep => exact walk_filter hwalk
  · cases hwalk

theorem tree_eq_ok {tree : FileTree} (h : w.tree path = .ok tree) :
    ∃ place, w.place path = .ok place ∧ w.root.get? place = some tree := by
  unfold World.tree at h
  split at h
  · cases h
  · next place hplace =>
    split at h
    · cases h
    · next found hfound =>
      cases h
      exact ⟨place, hplace, hfound⟩

theorem readFile_eq_fileAt {tree : FileTree} (h : w.tree path = .ok tree) :
    w.readFile path = w.fileAt (Path.parts path) := by
  obtain ⟨place, hplace, hfound⟩ := tree_eq_ok h
  rw [readFile, h, fileAt, placeOf_parts hplace]
  dsimp only
  rw [hfound]
  cases tree <;> rfl

/-! ## Entries -/

/-- All entries of directories bear proper names. -/
def Named (w : World) : Prop :=
  w.root.Named

theorem place_child {name : String} (hname : Path.IsName name) (h : w.place path = .ok place)
    (hspot : w.spot place = .directory) (hthere : w.spot (place ++ [name]) ≠ .nothing) :
    w.place (Path.child path name) = .ok (place ++ [name]) := by
  obtain ⟨before, hsome, hchild, hpath⟩ := Path.pieces_child path hname
  have hwalk : w.walk (w.startOf before) before = .ok place := by
    have h := (place_eq_ok h).2
    rcases hpath with hpath | hpath
    · rwa [hpath] at h
    · rw [hpath, startOf_append _ hsome] at h
      obtain ⟨mid, hmid, hlast⟩ := walk_append_eq_ok h
      rw [walk] at hlast
      split at hlast
      · next next hstep =>
        cases hlast
        rw [hmid, step_idle rfl hstep]
      · cases hlast
  have hstep : w.step place name = .ok (place ++ [name]) := by
    rw [step_eq, hspot]
    simp [hname.1, hname.2.1, hthere]
  have hnonempty : Path.child path name ≠ "" := by
    intro hempty
    rw [hempty] at hchild
    have hlast := congrArg List.getLast? hchild
    rw [List.getLast?_append, List.getLast?_singleton, Option.some_or] at hlast
    have hname' : name = "" := (Option.some.inj hlast).symm
    exact absurd hname.1 (by simp [hname', Path.isIdle])
  rw [World.place, if_neg hnonempty, hchild, startOf_append _ hsome, walk_append hwalk, walk, hstep]
  rfl

/-- What stands in a directory under a name is found there. -/
theorem tree_child {entries : List (String × FileTree)}
    (h : w.tree path = .ok (.directory entries)) {e : String × FileTree} (he : e ∈ entries)
    (hname : Path.IsName e.1) : ∃ tree, w.tree (Path.child path e.1) = .ok tree := by
  obtain ⟨place, hplace, hfound⟩ := tree_eq_ok h
  obtain ⟨tree, htree⟩ : ∃ tree, w.root.get? (place ++ [e.1]) = some tree := by
    rw [FileTree.get?_append, hfound]
    have hsome : (entries.lookup e.1).isSome = true :=
      List.lookup_isSome_iff.2 ⟨e, he, beq_self_eq_true e.1⟩
    obtain ⟨tree, htree⟩ := Option.isSome_iff_exists.1 hsome
    exact ⟨tree, by simp [FileTree.get?, FileTree.entry?, htree]⟩
  have hthere : w.spot (place ++ [e.1]) ≠ .nothing := by
    rw [spot, Ne, FileTree.spot_eq_nothing_iff, htree]
    exact Option.some_ne_none tree
  have hdirectory : w.spot place = .directory :=
    FileTree.spot_eq_directory_iff.2 ⟨entries, hfound⟩
  refine ⟨tree, ?_⟩
  rw [World.tree, place_child hname hplace hdirectory hthere]
  dsimp only
  rw [htree]

end World

/-! ## From places back to parts -/

namespace Path

/-- How a path begins, if it begins at the root or with a dot. -/
def beginning (path : String) : Option Part :=
  match parts path with
  | .root :: _ => some .root
  | .here :: _ => some .here
  | _ => none

/-- The path never goes up. -/
def Direct (path : String) : Prop :=
  .parent ∉ parts path

instance (path : String) : Decidable (Direct path) :=
  inferInstanceAs (Decidable (_ ∉ _))

theorem ofPiece?_of_not_idle {piece : String} (h : isIdle piece = false) :
    Part.ofPiece? piece = some (if piece = ".." then .parent else .name piece) := by
  simp only [isIdle, Bool.or_eq_false_iff, beq_eq_false_iff_ne] at h
  unfold Part.ofPiece?
  rw [if_neg (by simp [h])]
  split <;> rfl

/-- The pieces that say something, if none of them goes up, are names. -/
theorem filterMap_ofPiece? {pieces : List String}
    (h : .parent ∉ pieces.filterMap Part.ofPiece?) :
    pieces.filterMap Part.ofPiece? = (pieces.filter (!isIdle ·)).map .name ∧
      ".." ∉ pieces := by
  induction pieces with
  | nil => exact ⟨rfl, List.not_mem_nil⟩
  | cons piece pieces ih =>
    cases hidle : isIdle piece with
    | true =>
      rw [List.filterMap_cons_none (ofPiece?_eq_none_iff.2 hidle)] at h ⊢
      rw [List.filter_cons_of_neg (by simp [hidle])]
      obtain ⟨hnames, hup⟩ := ih h
      refine ⟨hnames, List.not_mem_cons_of_ne_of_not_mem ?_ hup⟩
      rintro rfl
      cases hidle
    | false =>
      have hsome := ofPiece?_of_not_idle hidle
      rw [List.filterMap_cons_some hsome] at h ⊢
      obtain ⟨hnames, hup⟩ := ih (List.not_mem_of_not_mem_cons h)
      have hname : piece ≠ ".." := by
        rintro rfl
        exact h List.mem_cons_self
      rw [List.filter_cons_of_pos (by simp [hidle]), List.map_cons, if_neg hname, hnames]
      exact ⟨rfl, List.not_mem_cons_of_ne_of_not_mem hname.symm hup⟩

section Pieces
variable {path first : String} {rest : List String} (hpath : path ≠ "")
  (h : pieces path = first :: rest)
include hpath h

theorem beginning_eq_some_root_iff : beginning path = some .root ↔ first = "" := by
  unfold beginning
  rw [parts_eq h, Part.ofFirst?, if_neg hpath]
  by_cases hroot : first = ""
  · simp [hroot]
  · by_cases hhere : first = "."
    · simp [hhere]
    · have hidle : isIdle first = false := by simp [isIdle, hroot, hhere]
      rw [if_neg hroot, if_neg hhere, ofPiece?_of_not_idle hidle]
      by_cases hup : first = ".." <;> simp [hup, hroot]

/-- A path that never goes up is its beginning and names. -/
theorem parts_of_direct (hdirect : Direct path) :
    parts path = (beginning path).toList ++ ((first :: rest).filter (!isIdle ·)).map .name ∧
      ".." ∉ first :: rest := by
  unfold Direct at hdirect
  unfold beginning
  rw [parts_eq h, Part.ofFirst?, if_neg hpath] at hdirect ⊢
  -- an idle first piece is the beginning, any other is a name like those behind it
  by_cases hroot : first = ""
  · subst hroot
    obtain ⟨hnames, hup⟩ := filterMap_ofPiece? fun hmem => hdirect (List.mem_cons_of_mem _ hmem)
    rw [List.filter_cons_of_neg (by decide), ← hnames]
    exact ⟨rfl, List.not_mem_cons_of_ne_of_not_mem (by decide) hup⟩
  · rw [if_neg hroot] at hdirect ⊢
    by_cases hhere : first = "."
    · subst hhere
      obtain ⟨hnames, hup⟩ := filterMap_ofPiece? fun hmem => hdirect (List.mem_cons_of_mem _ hmem)
      rw [List.filter_cons_of_neg (by decide), ← hnames]
      exact ⟨rfl, List.not_mem_cons_of_ne_of_not_mem (by decide) hup⟩
    · rw [if_neg hhere] at hdirect ⊢
      have hparts : (Part.ofPiece? first).toList ++ rest.filterMap Part.ofPiece? =
          (first :: rest).filterMap Part.ofPiece? := by
        cases hfirst : Part.ofPiece? first <;> simp [hfirst]
      rw [hparts] at hdirect ⊢
      obtain ⟨hnames, hup⟩ := filterMap_ofPiece? hdirect
      have hidle : isIdle first = false := by simp [isIdle, hroot, hhere]
      rw [hnames, List.filter_cons_of_pos (by simp [hidle])]
      exact ⟨rfl, hup⟩

end Pieces

end Path

namespace World
variable {w : World} {path : String} {place : List String}

/-- Names lead down, one by one. -/
theorem walk_names {start names : List String} (hidle : ∀ name ∈ names, Path.isIdle name = false)
    (hup : ".." ∉ names) (h : w.walk start names = .ok place) : place = start ++ names := by
  induction names generalizing start with
  | nil =>
    cases h
    exact (List.append_nil _).symm
  | cons name names ih =>
    rw [walk] at h
    split at h
    · next next hstep =>
      have hnext : next = start ++ [name] := by
        rw [step_eq, if_neg (by simp [hidle name List.mem_cons_self]),
          if_neg (List.ne_of_not_mem_cons hup).symm] at hstep
        split at hstep
        · cases hstep
        · cases hstep
        · split at hstep
          · cases hstep
          · exact (Except.ok.inj hstep).symm
      rw [ih (fun other hother => hidle other (List.mem_cons_of_mem _ hother))
        (List.not_mem_of_not_mem_cons hup) h, hnext, List.append_assoc]
      rfl
    · cases h

theorem startOf_pieces (hpath : path ≠ "") :
    w.startOf (Path.pieces path) =
      if Path.beginning path = some .root then [] else w.workingDirectory := by
  obtain ⟨first, rest, hpieces⟩ := List.exists_cons_of_ne_nil (Path.pieces_ne_nil path)
  rw [hpieces]
  by_cases hroot : first = ""
  · rw [if_pos ((Path.beginning_eq_some_root_iff hpath hpieces).2 hroot), hroot]
    rfl
  · rw [if_neg fun h => hroot ((Path.beginning_eq_some_root_iff hpath hpieces).1 h)]
    simp [startOf, hroot]

/-- A path that never goes up says in its parts where it leads. -/
theorem parts_of_place (h : w.place path = .ok place) (hdirect : Path.Direct path) :
    ∃ names : List String,
      Path.parts path = (Path.beginning path).toList ++ names.map .name ∧
      place = (if Path.beginning path = some .root then [] else w.workingDirectory) ++ names := by
  obtain ⟨hpath, hwalk⟩ := place_eq_ok h
  obtain ⟨first, rest, hpieces⟩ := List.exists_cons_of_ne_nil (Path.pieces_ne_nil path)
  obtain ⟨hparts, hup⟩ := Path.parts_of_direct hpath hpieces hdirect
  refine ⟨(first :: rest).filter (!Path.isIdle ·), hparts, ?place⟩
  case place =>
    have hwalk := walk_filter hwalk
    rw [startOf_pieces hpath, hpieces] at hwalk
    exact walk_names (fun name hname => by simpa using (List.mem_filter.1 hname).2)
      (fun hmem => hup (List.mem_filter.1 hmem).1) hwalk

/-- **Paths to one place**, if they begin alike and never go up, have the same parts. -/
theorem parts_eq_of_place_eq {other : String} (hpath : w.place path = .ok place)
    (hother : w.place other = .ok place) (hbeginning : Path.beginning path = Path.beginning other)
    (hdirect : Path.Direct path) (hdirect' : Path.Direct other) :
    Path.parts path = Path.parts other := by
  obtain ⟨names, hparts, hplace⟩ := parts_of_place hpath hdirect
  obtain ⟨names', hparts', hplace'⟩ := parts_of_place hother hdirect'
  rw [hplace, hbeginning] at hplace'
  rw [hparts, hparts', hbeginning, List.append_cancel_left hplace']

end World

end HeaderSchema
