import HeaderSchema.Proofs.Conversion
import HeaderSchema.Proofs.Registry
import Mathlib.Data.List.Basic

/-!
# Interleaved operations

A registry is used through operations: changes of a container, bodies whose
members are appended to one, and questions. An operation that is addressed to a
name changes the container of that name at most (`Operation.get?_run_of_ne`), and
what it makes of that container and what it answers depends on that container
alone (`Operation.run_congr`). So the operations on different names do not
disturb each other, however they are interleaved: every name has the container,
and gets the answers, that its own operations give by themselves
(`operations_local`). Only the order of the containers tells which name was
addressed first.
-/

namespace HeaderSchema

/-! ## Operations -/

/-- A question to a registry. -/
inductive Query where
  | get (name : String)
  | contains (name : String)
  | size
  | isEmpty
  | names
  | containers
deriving Repr, DecidableEq

/-- One use of a registry. -/
inductive Operation where
  /-- Changes the container of a name, which is created first if need be. -/
  | edit (name : String) (change : Edit)
  /-- Appends the members of a body to the container of a name, unless a field is
  missing in the body. -/
  | populate (name : String) (options : ExtractOptions) (body : Node)
  | ask (query : Query)

/-- What an operation gives back. A change gives the container as it is then. -/
inductive Answer where
  | container (c : Container)
  | found (c : Option Container)
  | holds (b : Bool)
  | count (n : Nat)
  | names (names : List String)
  | containers (cs : List Container)
deriving Repr, DecidableEq

namespace Query

/-- The name that a question is about. -/
def target? : Query → Option String
  | .get name | .contains name => some name
  | .size | .isEmpty | .names | .containers => none

def answer (r : Registry) : Query → Answer
  | .get name => .found (r.get? name)
  | .contains name => .holds (r.contains name)
  | .size => .count r.size
  | .isEmpty => .holds r.isEmpty
  | .names => .names r.names
  | .containers => .containers r.containers

end Query

namespace Operation

/-- The name that an operation is addressed to. -/
def target? : Operation → Option String
  | .edit name _ | .populate name _ _ => some name
  | .ask query => query.target?

def isQuestion : Operation → Bool
  | .ask _ => true
  | .edit .. | .populate .. => false

/-- The name whose container an operation makes sure of. A body in which a field
is missing creates nothing. -/
def creates? : Operation → Option String
  | .edit name _ => some name
  | .populate name options body =>
    match Members.ofBody options body with
    | .ok _ => some name
    | .error _ => none
  | .ask _ => none

/-- The registry after an operation, and what the operation gives back. -/
def run (r : Registry) : Operation → Registry × Except MissingField Answer
  | .edit name change =>
    (r.edit name change, .ok (.container ((r.edit name change).getOrNew name)))
  | .populate name options body =>
    match Members.ofBody options body with
    | .ok members =>
      (r.edit name (.append members),
        .ok (.container ((r.edit name (.append members)).getOrNew name)))
    | .error missing => (r, .error missing)
  | .ask query => (r, .ok (query.answer r))

/-- The changes that an operation makes: at most one. -/
def edits : Operation → List (String × Edit)
  | .edit name change => [(name, change)]
  | .populate name options body =>
    match Members.ofBody options body with
    | .ok members => [(name, .append members)]
    | .error _ => []
  | .ask _ => []

end Operation

namespace Registry

/-- The registry after a list of operations. -/
def runAll (r : Registry) (ops : List Operation) : Registry :=
  ops.foldl (fun r op => (op.run r).1) r

/-- What each of a list of operations gives back. -/
def answers (r : Registry) : List Operation → List (Operation × Except MissingField Answer)
  | [] => []
  | op :: ops => (op, (op.run r).2) :: answers (op.run r).1 ops

end Registry

/-- Every name is addressed by the same operations in the same order. -/
def SameHistories (ops ops' : List Operation) : Prop :=
  ∀ name, ops.filter (·.target? = some name) = ops'.filter (·.target? = some name)

/-! ## One operation -/

namespace Operation

theorem run_eq_editAll (r : Registry) (op : Operation) : (op.run r).1 = r.editAll op.edits := by
  cases op with
  | edit name change => rfl
  | populate name options body =>
    rw [run, edits]
    cases Members.ofBody options body <;> rfl
  | ask query => rfl

theorem map_fst_edits (op : Operation) : op.edits.map (·.1) = op.creates?.toList := by
  cases op with
  | edit name change => rfl
  | populate name options body =>
    rw [edits, creates?]
    cases Members.ofBody options body <;> rfl
  | ask query => rfl

/-- Whatever does not succeed, or only asks, changes nothing. -/
theorem run_of_idle {r : Registry} {op : Operation}
    (h : op.isQuestion = true ∨ ∃ missing, (op.run r).2 = .error missing) : (op.run r).1 = r := by
  cases op with
  | edit name change =>
    rcases h with h | ⟨missing, h⟩ <;> cases h
  | populate name options body =>
    rcases h with h | ⟨missing, h⟩
    · cases h
    · rw [run] at h ⊢
      cases hbody : Members.ofBody options body with
      | ok members =>
        rw [hbody] at h
        cases h
      | error missing => rfl
  | ask query => rfl

/-- An operation does not touch the containers of other names. -/
theorem get?_run_of_ne {op : Operation} {name : String} (h : op.target? ≠ some name)
    (r : Registry) : (op.run r).1.get? name = r.get? name := by
  have hedit {other : String} (hother : some other ≠ some name) (e : Edit) :
      (r.edit other e).get? name = r.get? name := by
    unfold Registry.edit
    rw [Registry.get?_update, if_neg fun heq => hother (congrArg some heq.symm)]
  cases op with
  | edit other change => exact hedit h change
  | populate other options body =>
    rw [run]
    cases Members.ofBody options body with
    | ok members => exact hedit h _
    | error missing => rfl
  | ask query => rfl

/-- What an operation does at its own name depends on the container that is
there, and so does its answer. -/
theorem run_congr {op : Operation} {name : String} (h : op.target? = some name)
    {r r' : Registry} (hr : r.get? name = r'.get? name) :
    (op.run r).1.get? name = (op.run r').1.get? name ∧ (op.run r).2 = (op.run r').2 := by
  have hedit (e : Edit) : (r.edit name e).get? name = (r'.edit name e).get? name := by
    unfold Registry.edit
    rw [Registry.get?_update, Registry.get?_update, if_pos rfl, if_pos rfl, Registry.getOrNew,
      Registry.getOrNew, hr]
  have hanswer (e : Edit) : (r.edit name e).getOrNew name = (r'.edit name e).getOrNew name := by
    rw [Registry.getOrNew, Registry.getOrNew, hedit e]
  cases op with
  | edit other change =>
    cases h
    refine ⟨hedit change, ?_⟩
    rw [run, run, hanswer change]
  | populate other options body =>
    cases h
    rw [run, run]
    cases Members.ofBody options body with
    | ok members =>
      refine ⟨hedit _, ?_⟩
      dsimp only
      rw [hanswer]
    | error missing => exact ⟨hr, rfl⟩
  | ask query =>
    refine ⟨hr, ?_⟩
    rw [run, run]
    cases query with
    | get other | contains other =>
      cases h
      simp only [Query.answer, Registry.contains, hr]
    | size | isEmpty | names | containers => cases h

end Operation

/-! ## Lists of operations -/

namespace Registry

theorem runAll_cons (r : Registry) (op : Operation) (ops : List Operation) :
    r.runAll (op :: ops) = (op.run r).1.runAll ops :=
  rfl

theorem runAll_eq_editAll (r : Registry) (ops : List Operation) :
    r.runAll ops = r.editAll (ops.flatMap Operation.edits) := by
  induction ops generalizing r with
  | nil => rfl
  | cons op ops ih =>
    rw [runAll_cons, ih, List.flatMap_cons, editAll_append, Operation.run_eq_editAll]

theorem wellFormed_runAll (ops : List Operation) : (empty.runAll ops).WellFormed := by
  rw [runAll_eq_editAll]
  exact WellFormed.empty.editAll _

theorem names_runAll (ops : List Operation) :
    (empty.runAll ops).names = (ops.filterMap Operation.creates?).eraseDups := by
  have hnames : (ops.flatMap Operation.edits).map (·.1) = ops.filterMap Operation.creates? := by
    rw [List.map_flatMap, List.filterMap_eq_flatMap_toList]
    exact List.flatMap_congr fun op _ => op.map_fst_edits
  have hnew : (ops.filterMap Operation.creates?).filter (· ∉ empty.names) =
      ops.filterMap Operation.creates? :=
    List.filter_eq_self.2 fun _ _ => decide_eq_true List.not_mem_nil
  rw [runAll_eq_editAll, names_editAll, hnames, hnew]
  rfl

/-- **A name follows its own history**: the operations addressed to it are all
that it takes to know its container and the answers that they give. -/
theorem runAll_local {r r' : Registry} {name : String} (h : r.get? name = r'.get? name)
    (ops : List Operation) :
    (r.runAll ops).get? name = (r'.runAll (ops.filter (·.target? = some name))).get? name ∧
      (r.answers ops).filter (·.1.target? = some name) =
        r'.answers (ops.filter (·.target? = some name)) := by
  induction ops generalizing r r' with
  | nil => exact ⟨h, rfl⟩
  | cons op ops ih =>
    rw [runAll_cons, answers]
    by_cases hop : op.target? = some name
    · obtain ⟨hget, hanswer⟩ := Operation.run_congr hop h
      rw [List.filter_cons_of_pos (by simpa using hop),
        List.filter_cons_of_pos (by simpa using hop), runAll_cons, answers, hanswer, (ih hget).2]
      exact ⟨(ih hget).1, rfl⟩
    · -- the operation is none of this name's, so the run by itself stays where it is
      have hget := (Operation.get?_run_of_ne hop r).trans h
      rw [List.filter_cons_of_neg (by simpa using hop),
        List.filter_cons_of_neg (by simpa using hop)]
      exact ih hget

end Registry

section Interleaved
variable {ops ops' : List Operation} (h : SameHistories ops ops')
include h

theorem SameHistories.get?_runAll (name : String) :
    (Registry.empty.runAll ops).get? name = (Registry.empty.runAll ops').get? name := by
  rw [(Registry.runAll_local rfl ops).1, (Registry.runAll_local rfl ops').1, h name]

theorem SameHistories.names_perm :
    (Registry.empty.runAll ops).names.Perm (Registry.empty.runAll ops').names := by
  refine (List.perm_ext_iff_of_nodup (Registry.wellFormed_runAll ops).nodup
    (Registry.wellFormed_runAll ops').nodup).2 fun name => ?_
  rw [← Registry.contains_iff, ← Registry.contains_iff, Registry.contains, Registry.contains,
    h.get?_runAll]

theorem SameHistories.containers_perm :
    (Registry.empty.runAll ops).containers.Perm (Registry.empty.runAll ops').containers := by
  have hcontainer :
      (Registry.empty.runAll ops).getOrNew = (Registry.empty.runAll ops').getOrNew := by
    funext name
    rw [Registry.getOrNew, Registry.getOrNew, h.get?_runAll]
  rw [(Registry.wellFormed_runAll ops).containers_eq,
    (Registry.wellFormed_runAll ops').containers_eq, hcontainer]
  exact h.names_perm.map _

end Interleaved

/-- **Locality and order.** Operations on an empty registry leave each name once
that one of them created, in the order of the first, every container under its own name;
what is under a name, and what its operations have answered, is what they give
without the others. Operations that fail or ask change nothing. So if two lists
of operations have the same ones for each name in the same order, then the
registries compare equal and have the same containers up to their order. -/
theorem operations_local (ops : List Operation) :
    let r := Registry.empty.runAll ops
    (r.names = (ops.filterMap Operation.creates?).eraseDups ∧ r.names.Nodup) ∧
    (∀ e ∈ r.entries, e.2.name = e.1) ∧
    (∀ name,
      let own := ops.filter (·.target? = some name)
      r.get? name = (Registry.empty.runAll own).get? name ∧
      (Registry.empty.answers ops).filter (·.1.target? = some name) =
        Registry.empty.answers own) ∧
    (∀ (s : Registry) (op : Operation),
      (op.isQuestion = true ∨ ∃ missing, (op.run s).2 = .error missing) → (op.run s).1 = s) ∧
    ∀ ops', SameHistories ops ops' →
      r.same (Registry.empty.runAll ops') = true ∧
      r.containers.Perm (Registry.empty.runAll ops').containers := by
  intro r
  have hr : r.WellFormed := Registry.wellFormed_runAll ops
  refine ⟨⟨Registry.names_runAll ops, hr.nodup⟩, fun e he => hr.name_eq_of_mem he, ?own, ?idle,
    ?interleaved⟩
  case own =>
    intro name
    exact Registry.runAll_local rfl ops
  case idle =>
    intro s op h
    exact Operation.run_of_idle h
  case interleaved =>
    intro ops' h
    exact ⟨Registry.same_of_get?_eq hr.nodup h.names_perm h.get?_runAll, h.containers_perm⟩

/-- Two histories, one with a body that lacks a type, in two interleavings. -/
theorem operations_local_two :
    let property : Node := { Node.ofKind "ObjCPropertyDecl" with name := some "p" }
    let typed : Node := { property with type := some ⟨"int", none⟩ }
    let body (members : List Node) : Node :=
      { Node.ofKind "ObjCCategoryDecl" with inner := members }
    let a : List Operation :=
      [.populate "A" ⟨false⟩ (body [typed, property]), .ask (.contains "A"),
        .populate "A" ⟨false⟩ (body [typed])]
    let b : List Operation := [.edit "B" .touch, .edit "B" .markInterface]
    let r := Registry.empty.runAll (a ++ b)
    let r' := Registry.empty.runAll (b ++ a)
    SameHistories (a ++ b) (b ++ a) ∧
      r.names = ["A", "B"] ∧ r'.names = ["B", "A"] ∧ r.same r' = true := by
  intro property typed body a b r r'
  have hsame : SameHistories (a ++ b) (b ++ a) := by
    intro name
    rw [List.filter_append, List.filter_append]
    by_cases ha : name = "A"
    · subst ha
      rfl
    · have hnone : a.filter (·.target? = some name) = [] := by
        simp [a, Operation.target?, Query.target?, Ne.symm ha]
      rw [hnone, List.append_nil, List.nil_append]
  refine ⟨hsame, rfl, rfl, ((operations_local (a ++ b)).2.2.2.2 (b ++ a) hsame).1⟩

end HeaderSchema
