import HeaderSchema.Proofs.Counters
import HeaderSchema.Proofs.Naming
import HeaderSchema.Proofs.Session
import Mathlib.Algebra.GroupWithZero.Nat

/-!
# What the counters say about the registry

The counters and the registry are kept apart, and they agree all the same
(`Extraction.Accounted`): members and categories are counted one by one, a
container is an interface only if an interface was counted, and every other
container has a category or a protocol to its name. One declaration keeps the
agreement (`Accounted.absorb`), so it holds after any session, whatever roots
were converted and whichever of them failed (`session_accounted`).

A container that is changed changes a total by what it measures more than
before (`Registry.total_edit`). This one equation gives all totals.
-/

namespace HeaderSchema

namespace Registry

/-! ## Totals over a registry -/

/-- The sum of what the containers measure. -/
def total (r : Registry) (measure : Container → Nat) : Nat :=
  (r.containers.map measure).sum

/-- What the container of a name measures, if there is one. -/
def share (r : Registry) (measure : Container → Nat) (name : String) : Nat :=
  ((r.get? name).map measure).getD 0

section Total
variable (measure : Container → Nat) (r : Registry) (name : String)

theorem total_eq_sum : r.total measure = (r.entries.map fun e => measure e.2).sum := by
  unfold total containers
  rw [List.map_map]
  rfl

theorem sum_updateEntries (f : Container → Container) (entries : List (String × Container)) :
    ((updateEntries name f entries).map fun e => measure e.2).sum +
        ((entries.lookup name).map measure).getD 0 =
      (entries.map fun e => measure e.2).sum +
        measure (f ((entries.lookup name).getD (.ofName name))) := by
  induction entries with
  | nil => simp [updateEntries]
  | cons e entries ih =>
    obtain ⟨key, c⟩ := e
    rw [updateEntries]
    by_cases h : key = name
    · subst h
      simp
      omega
    · have hne : (name == key) = false := beq_eq_false_iff_ne.2 (Ne.symm h)
      rw [if_neg h, List.lookup_cons, hne]
      simp only [List.map_cons, List.sum_cons]
      omega

/-- **A change counts once**, for the container that it is addressed to. -/
theorem total_edit (e : Edit) :
    (r.edit name e).total measure + r.share measure name =
      r.total measure + measure (e.apply (r.getOrNew name)) := by
  rw [total_eq_sum, total_eq_sum]
  exact sum_updateEntries measure name e.apply r.entries

theorem share_le_total : r.share measure name ≤ r.total measure := by
  rw [total_eq_sum]
  unfold share get?
  induction r.entries with
  | nil => simp
  | cons e entries ih =>
    obtain ⟨key, c⟩ := e
    rw [List.lookup_cons, List.map_cons, List.sum_cons]
    split
    · exact Nat.le_add_right _ _
    · exact Nat.le_trans ih (Nat.le_add_left _ _)

/-- Two changes of one container. -/
theorem total_edit_edit (e e' : Edit) :
    ((r.edit name e).edit name e').total measure + r.share measure name =
      r.total measure + measure (e'.apply (e.apply (r.getOrNew name))) := by
  have hfirst := total_edit measure r name e
  have hsecond := total_edit measure (r.edit name e) name e'
  have hnow : (r.edit name e).share measure name = measure (e.apply (r.getOrNew name)) := by
    unfold share edit
    rw [get?_update, if_pos rfl]
    rfl
  rw [hnow, getOrNew_edit, if_pos rfl] at hsecond
  omega

/-- What a new container has no part in is shared by what an edit starts from. -/
theorem share_eq_getOrNew (h : measure (.ofName name) = 0) :
    r.share measure name = measure (r.getOrNew name) := by
  unfold share getOrNew
  cases r.get? name with
  | none => exact h.symm
  | some c => rfl

end Total

theorem countP_eq_total (p : Container → Bool) (r : Registry) :
    r.containers.countP p = r.total fun c => (p c).toNat := by
  unfold total
  induction r.containers with
  | nil => rfl
  | cons c cs ih =>
    rw [List.countP_cons, List.map_cons, List.sum_cons, ih, Nat.add_comm]
    cases p c <;> rfl

/-! ## What a declaration adds to the totals -/

/-- The number of containers that are no interfaces. -/
def protocolCount (r : Registry) : Nat :=
  r.containers.countP (!·.isInterface)

theorem size_eq_add (r : Registry) : r.size = r.interfaceCount + r.protocolCount := by
  have hlength : r.size = r.containers.length := (List.length_map _).symm
  rw [hlength, List.length_eq_countP_add_countP (·.isInterface)]
  simp [interfaceCount, protocolCount]

/-- The registry after a declaration of a container. -/
def merge (r : Registry) (origin : Origin) (target : String) (members : Members) : Registry :=
  (r.edit target origin.edit).edit target (.append members)

section Merge
variable (r : Registry) (origin : Origin) (target : String) (members : Members)

theorem total_merge (measure : Container → Nat) :
    (r.merge origin target members).total measure + r.share measure target =
      r.total measure + measure ((origin.edit.apply (r.getOrNew target)).append members) :=
  total_edit_edit measure r target origin.edit (.append members)

/-- A measure that a new container has none of, and that every declaration adds
to. -/
theorem total_merge_of_add {measure : Container → Nat} {added : Nat}
    (hnew : measure (.ofName target) = 0)
    (hadd : ∀ c, measure ((origin.edit.apply c).append members) = measure c + added) :
    (r.merge origin target members).total measure = r.total measure + added := by
  have htotal := total_merge r origin target members measure
  have hshare := share_eq_getOrNew measure r target hnew
  rw [hadd] at htotal
  omega

theorem total_merge_properties :
    (r.merge origin target members).total (·.properties.length) =
      r.total (·.properties.length) + members.properties.length := by
  apply total_merge_of_add
  · rfl
  · intro c
    cases origin <;> exact List.length_append

theorem total_merge_methods :
    (r.merge origin target members).total (·.methods.length) =
      r.total (·.methods.length) + members.methods.length := by
  apply total_merge_of_add
  · rfl
  · intro c
    cases origin <;> exact List.length_append

theorem total_merge_categories :
    (r.merge origin target members).total (·.categories.length) =
      r.total (·.categories.length) +
        match origin with
        | .category _ => 1
        | .interface | .protocol => 0 := by
  apply total_merge_of_add
  · rfl
  · intro c
    cases origin
    case category name => exact List.length_append
    all_goals rfl

/-- A declaration of another kind leaves it to the container whether it is an
interface. -/
theorem interfaceCount_merge_of_ne (h : origin ≠ .interface) :
    (r.merge origin target members).interfaceCount = r.interfaceCount := by
  unfold interfaceCount
  rw [countP_eq_total, countP_eq_total]
  refine (total_merge_of_add r origin target members rfl fun c => ?_).trans (Nat.add_zero _)
  cases origin
  case interface => exact absurd rfl h
  all_goals rfl

/-- An interface declaration makes its container an interface, if it was none. -/
theorem interfaceCount_merge_interface :
    0 < (r.merge .interface target members).interfaceCount ∧
      (r.merge .interface target members).interfaceCount ≤ r.interfaceCount + 1 := by
  have htotal := total_merge r .interface target members (·.isInterface.toNat)
  have hshare := share_le_total (·.isInterface.toNat) r target
  have hnew : ((Origin.interface.edit.apply (r.getOrNew target)).append members).isInterface.toNat
      = 1 := rfl
  rw [hnew] at htotal
  unfold interfaceCount
  rw [countP_eq_total, countP_eq_total]
  omega

/-- An interface declaration makes no container that is none. -/
theorem protocolCount_merge_interface :
    (r.merge .interface target members).protocolCount ≤ r.protocolCount := by
  have htotal := total_merge r .interface target members (fun c => (!c.isInterface).toNat)
  have hnew :
      (!((Origin.interface.edit.apply (r.getOrNew target)).append members).isInterface).toNat = 0 :=
    rfl
  rw [hnew] at htotal
  unfold protocolCount
  rw [countP_eq_total, countP_eq_total]
  omega

/-- At most one container is new. -/
theorem protocolCount_merge_le :
    (r.merge origin target members).protocolCount ≤ r.protocolCount + 1 := by
  have htotal := total_merge r origin target members (fun c => (!c.isInterface).toNat)
  have hnew := Bool.toNat_le
    (!((origin.edit.apply (r.getOrNew target)).append members).isInterface)
  unfold protocolCount
  rw [countP_eq_total, countP_eq_total]
  omega

end Merge

end Registry

/-! ## Tallies -/

namespace Tally

theorem total_alterEntries (name : String) (entries : List (String × Nat)) :
    (alterEntries name (· + 1) entries).foldr (fun e n => e.2 + n) 0 =
      entries.foldr (fun e n => e.2 + n) 0 + 1 := by
  induction entries with
  | nil => rfl
  | cons e entries ih =>
    rw [alterEntries]
    split
    · simp only [List.foldr_cons]
      omega
    · split
      · simp only [List.foldr_cons, ih]
        omega
      · simp only [List.foldr_cons]
        omega

theorem total_count (t : Tally) (name : String) : (t.count name).total = t.total + 1 :=
  total_alterEntries name t.entries

/-- Counting enters one name, with a count that is not zero. -/
theorem forall_count {p : String → Prop} {t : Tally}
    (h : ∀ e ∈ t.entries, p e.1 ∧ 0 < e.2) {name : String} (hname : p name) :
    ∀ e ∈ (t.count name).entries, p e.1 ∧ 0 < e.2 := by
  rintro ⟨key, n⟩ he
  have hlookup := (lookup_eq_some_iff_mem (nodup_of_sorted (t.count name).sorted) key n).2 he
  rw [lookup_count] at hlookup
  split at hlookup
  · next hkey =>
    cases hlookup
    exact ⟨hkey ▸ hname, Nat.succ_pos _⟩
  · exact h (key, n) ((lookup_eq_some_iff_mem (nodup_of_sorted t.sorted) key n).1 hlookup)

end Tally

namespace Extraction

/-! ## The agreement -/

/-- The counters of an extraction that has read so many declarations agree with
its registry. -/
structure Accounted (e : Extraction) (read : Nat) : Prop where
  properties : e.counters.properties = e.registry.total (·.properties.length)
  methods : e.counters.methods = e.registry.total (·.methods.length)
  categories : e.counters.categories = e.registry.total (·.categories.length)
  interfaces_le : e.registry.interfaceCount ≤ e.counters.interfaces
  interfaces_eq_zero : e.registry.interfaceCount = 0 ↔ e.counters.interfaces = 0
  protocols_le : e.registry.protocolCount ≤ e.counters.categories + e.counters.protocols
  declarations : e.counters.interfaces + e.counters.categories + e.counters.protocols +
    e.counters.unmodeled.total + e.counters.ignored.total = read
  unmodeled : ∀ entry ∈ e.counters.unmodeled.entries, entry.1 ∈ unmodeledTags ∧ 0 < entry.2
  ignored : ∀ entry ∈ e.counters.ignored.entries,
    (entry.1 ∉ unmodeledTags ∧ entry.1 ∉ containerTags) ∧ 0 < entry.2

namespace Accounted

theorem empty : Accounted .empty 0 where
  properties := rfl
  methods := rfl
  categories := rfl
  interfaces_le := Nat.le_refl 0
  interfaces_eq_zero := Iff.rfl
  protocols_le := Nat.le_refl 0
  declarations := rfl
  unmodeled := nofun
  ignored := nofun

variable {e : Extraction} {read : Nat} (h : e.Accounted read)
include h

theorem merge (origin : Origin) (target : String) (members : Members) :
    (e.absorb (.container origin target members)).Accounted (read + 1) where
  properties := by
    have hcount : (e.absorb (.container origin target members)).counters.properties =
        e.counters.properties + members.properties.length := by cases origin <;> rfl
    rw [hcount, h.properties]
    exact (e.registry.total_merge_properties origin target members).symm
  methods := by
    have hcount : (e.absorb (.container origin target members)).counters.methods =
        e.counters.methods + members.methods.length := by cases origin <;> rfl
    rw [hcount, h.methods]
    exact (e.registry.total_merge_methods origin target members).symm
  categories := by
    refine Eq.trans ?_ (e.registry.total_merge_categories origin target members).symm
    rw [← h.categories]
    cases origin <;> rfl
  interfaces_le := by
    have hold := h.interfaces_le
    by_cases horigin : origin = .interface
    · subst horigin
      have hnew := (e.registry.interfaceCount_merge_interface target members).2
      exact Nat.le_trans hnew (Nat.succ_le_succ hold)
    · have hsame := e.registry.interfaceCount_merge_of_ne origin target members horigin
      cases origin
      case interface => exact absurd rfl horigin
      all_goals exact Nat.le_trans (Nat.le_of_eq hsame) hold
  interfaces_eq_zero := by
    by_cases horigin : origin = .interface
    · subst horigin
      have hnew := (e.registry.interfaceCount_merge_interface target members).1
      exact iff_of_false (Nat.ne_of_gt hnew) (Nat.succ_ne_zero _)
    · have hsame := e.registry.interfaceCount_merge_of_ne origin target members horigin
      change (e.registry.merge origin target members).interfaceCount = 0 ↔ _
      rw [hsame, h.interfaces_eq_zero]
      cases origin
      case interface => exact absurd rfl horigin
      all_goals rfl
  protocols_le := by
    have hold := h.protocols_le
    have hnew := e.registry.protocolCount_merge_le origin target members
    change (e.registry.merge origin target members).protocolCount ≤ _
    cases origin with
    | interface => exact Nat.le_trans (e.registry.protocolCount_merge_interface target members) hold
    | category _ | protocol =>
      simp only [absorb, Counters.countMembers, Counters.countOrigin]
      omega
  declarations := by
    have hread := h.declarations
    cases origin <;> simp only [absorb, Counters.countMembers, Counters.countOrigin] <;> omega
  unmodeled := by
    have hold := h.unmodeled
    cases origin <;> exact hold
  ignored := by
    have hold := h.ignored
    cases origin <;> exact hold

/-- **One declaration keeps the agreement.** -/
theorem absorb {options : ExtractOptions} {node : Node}
    (hcomplete : node.isComplete options = true) :
    (e.absorb (node.contribution options)).Accounted (read + 1) := by
  have hread := h.declarations
  unfold Node.contribution
  cases htarget : node.target? with
  | some target => exact h.merge node.origin target (node.members options)
  | none =>
    have hcontainer : node.kind ∉ containerTags := by
      intro hkind
      obtain ⟨target, hsome⟩ := Node.exists_target? hkind hcomplete
      rw [htarget] at hsome
      cases hsome
    dsimp only
    split
    · next hunmodeled =>
      refine { h with declarations := ?_, unmodeled := Tally.forall_count h.unmodeled hunmodeled }
      simp only [Extraction.absorb, Tally.total_count]
      omega
    · next hignored =>
      have hkey : node.kind ∉ unmodeledTags ∧ node.kind ∉ containerTags := ⟨hignored, hcontainer⟩
      refine { h with declarations := ?_, ignored := Tally.forall_count (p := fun key =>
        key ∉ unmodeledTags ∧ key ∉ containerTags) h.ignored hkey }
      simp only [Extraction.absorb, Tally.total_count]
      omega

/-- Declarations that owe nothing keep the agreement one after another. -/
theorem absorbNodes {options : ExtractOptions} {nodes : List Node}
    (hcomplete : ∀ node ∈ nodes, node.isComplete options = true) :
    (e.absorbNodes options nodes).Accounted (read + nodes.length) := by
  induction nodes generalizing e read with
  | nil => exact h
  | cons node nodes ih =>
    obtain ⟨hnode, hnodes⟩ := List.forall_mem_cons.1 hcomplete
    have hnext := ih (h.absorb hnode) hnodes
    rw [Nat.add_assoc, Nat.add_comm 1] at hnext
    exact hnext

end Accounted

/-! ## Sessions -/

/-- The number of children of a root that a conversion reads before it ends: all
up to the first that lacks a field. -/
def readCount (options : ExtractOptions) (root : Node) : Nat :=
  (root.declarations.takeWhile fun decl => (Contribution.ofNode options decl).isOk).length

theorem readCount_eq (options : ExtractOptions) (root : Node) :
    readCount options root = (root.taken options).length := by
  have hsame (decl : Node) :
      (Contribution.ofNode options decl).isOk = decl.isComplete options := by
    rw [Contribution.ofNode_eq]
    cases hsettle : settle (decl.obligations options) (decl.contribution options) with
    | ok contribution =>
      exact ((decl.isComplete_iff options).2 ((settle_eq_ok ..).1 hsettle).1).symm
    | error missing =>
      cases hcomplete : decl.isComplete options with
      | false => rfl
      | true =>
        have hmet := (decl.isComplete_iff options).1 hcomplete
        rw [(settle_eq_ok ..).2 ⟨hmet, rfl⟩] at hsettle
        cases hsettle
  unfold readCount Node.taken
  simp only [hsame]

/-- A conversion keeps the agreement, whatever becomes of it. -/
theorem Accounted.convert {e : Extraction} {read : Nat} (h : e.Accounted read)
    (options : ExtractOptions) (root : Node) :
    (e.convert options root).1.Accounted (read + readCount options root) := by
  rw [convert_eq, readCount_eq]
  exact h.absorbNodes (root.isComplete_of_mem_taken options)

theorem Accounted.session {e : Extraction} {read : Nat} (h : e.Accounted read)
    (options : ExtractOptions) (roots : List Node) :
    (e.session options roots).Accounted (read + (roots.map (readCount options)).sum) := by
  induction roots generalizing e read with
  | nil => exact h
  | cons root roots ih =>
    have hnext := ih (h.convert options root)
    rw [Nat.add_assoc, ← List.sum_cons] at hnext
    exact hnext

/-- **Counters and registry agree** after any session, and so does the report:
every container is either an interface or a protocol. -/
theorem session_accounted (options : ExtractOptions) (roots : List Node) :
    let e := empty.session options roots
    e.Accounted (roots.map (readCount options)).sum ∧
      e.report.counters = e.counters ∧
      e.report.containers = e.registry.containers.length ∧
      e.report.interfaces = e.registry.containers.countP (·.isInterface) ∧
      e.report.protocols = e.registry.containers.countP (!·.isInterface) ∧
      e.report.containers = e.report.interfaces + e.report.protocols := by
  intro e
  have haccounted := Accounted.empty.session options roots
  rw [Nat.zero_add] at haccounted
  have hsize : e.registry.size = e.registry.interfaceCount + e.registry.protocolCount :=
    e.registry.size_eq_add
  have hprotocols : e.report.protocols = e.registry.protocolCount := by
    change e.registry.size - e.registry.interfaceCount = _
    omega
  refine ⟨haccounted, rfl, (List.length_map _).symm, rfl, hprotocols, ?_⟩
  rw [hprotocols]
  exact hsize

end Extraction

end HeaderSchema
