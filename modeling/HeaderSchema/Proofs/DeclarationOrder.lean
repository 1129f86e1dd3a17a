import HeaderSchema.Proofs.Counters
import HeaderSchema.Proofs.Merge
import Mathlib.Data.List.FinRange
import Mathlib.Data.List.Sort

/-!
# Independence of the order of declarations

Two compilation units with the same children in another order fail alike. If
they do not, the counters agree, and so do the containers up to the order of
their members; the containers agree exactly if the children that are about one
container come in the same order (`permuted_extraction`).
-/

namespace HeaderSchema

/-- A permutation of the places of a list that keeps the order of the items with
some property keeps the list of these items. -/
theorem filter_ofFn_comp {α : Type} (l : List α) (σ : Equiv.Perm (Fin l.length)) (p : α → Bool)
    (h : ∀ i j, i < j → p (l.get (σ i)) = true → p (l.get (σ j)) = true → σ i < σ j) :
    (List.ofFn (l.get ∘ σ)).filter p = l.filter p := by
  have hplaces : ((List.finRange l.length).map σ).filter (p ∘ l.get) =
      (List.finRange l.length).filter (p ∘ l.get) := by
    have hsorted := (List.sortedLT_finRange l.length).pairwise
    refine List.Perm.eq_of_pairwise (fun i j _ _ hij hji => absurd (hij.trans hji) (lt_irrefl i))
      ?_ (hsorted.filter _) ((σ.map_finRange_perm).filter _)
    rw [List.pairwise_filter, List.pairwise_map]
    exact hsorted.imp fun hij hi hj => h _ _ hij hi hj
  calc (List.ofFn (l.get ∘ σ)).filter p
      = (((List.finRange l.length).map σ).map l.get).filter p := by
        rw [List.ofFn_eq_map, List.map_map]
    _ = (((List.finRange l.length).map σ).filter (p ∘ l.get)).map l.get := List.filter_map
    _ = ((List.finRange l.length).map l.get).filter p := by rw [hplaces, List.filter_map]
    _ = l.filter p := by rw [← List.ofFn_eq_map, List.ofFn_get]

namespace Extraction

theorem counters_absorbNodes (options : ExtractOptions) (e : Extraction) (nodes : List Node) :
    (e.absorbNodes options nodes).counters =
      nodes.foldl (fun c node => c.add (node.contribution options)) e.counters := by
  induction nodes generalizing e with
  | nil => rfl
  | cons node nodes ih =>
    rw [List.foldl_cons, ← counters_absorb]
    exact ih _

theorem wellFormed_absorbNodes (options : ExtractOptions) (nodes : List Node) :
    (empty.absorbNodes options nodes).registry.WellFormed := by
  rw [registry_absorbNodes]
  exact Registry.WellFormed.empty.editAll _

section Permuted
variable (options : ExtractOptions) {nodes nodes' : List Node} (hperm : nodes.Perm nodes')
include hperm

theorem counters_absorbNodes_perm (e : Extraction) :
    (e.absorbNodes options nodes).counters = (e.absorbNodes options nodes').counters := by
  rw [counters_absorbNodes, counters_absorbNodes]
  exact hperm.foldl_eq' (fun x _ y _ c => c.add_right_comm _ _) _

theorem names_absorbNodes_perm :
    (empty.absorbNodes options nodes).registry.names.Perm
      (empty.absorbNodes options nodes').registry.names := by
  refine (List.perm_ext_iff_of_nodup (wellFormed_absorbNodes options nodes).nodup
    (wellFormed_absorbNodes options nodes').nodup).2 fun name => ?_
  rw [Registry.mem_names_absorbNodes, Registry.mem_names_absorbNodes]
  simp only [hperm.mem_iff]

theorem getOrNew_absorbNodes_perm (name : String) :
    ((empty.absorbNodes options nodes).registry.getOrNew name).Rearranged
      ((empty.absorbNodes options nodes').registry.getOrNew name) := by
  rw [Registry.getOrNew_absorbNodes, Registry.getOrNew_absorbNodes]
  exact Container.applyAll_rearranged _ ((hperm.filter _).flatMap_right _)

theorem get?_absorbNodes_perm {name : String} {c : Container}
    (hget : (empty.absorbNodes options nodes).registry.get? name = some c) :
    ∃ c', (empty.absorbNodes options nodes').registry.get? name = some c' ∧ c.Rearranged c' := by
  rw [Registry.get?_eq_ite] at hget ⊢
  split at hget
  · next hmem =>
    cases hget
    rw [if_pos ((names_absorbNodes_perm options hperm).mem_iff.1 hmem)]
    exact ⟨_, rfl, getOrNew_absorbNodes_perm options hperm name⟩
  · cases hget

theorem get?_absorbNodes_eq
    (hfilter : ∀ name, nodes.filter (·.target? = some name) = nodes'.filter (·.target? = some name))
    (name : String) :
    (empty.absorbNodes options nodes).registry.get? name =
      (empty.absorbNodes options nodes').registry.get? name := by
  rw [Registry.get?_eq_ite, Registry.get?_eq_ite, Registry.getOrNew_absorbNodes,
    Registry.getOrNew_absorbNodes, hfilter]
  simp only [(names_absorbNodes_perm options hperm).mem_iff]

end Permuted

/-- **Order independence.** Extracting from a unit with permuted children
succeeds exactly when it does from the unit itself. Then all counters are equal,
the names are the same, and every container is the same up to the order of its
members. If children that are about one container keep their order, the
registries compare equal. -/
theorem permuted_extraction (options : ExtractOptions) (root : Node)
    (σ : Equiv.Perm (Fin root.inner.length)) :
    let permuted := { root with inner := List.ofFn (root.inner.get ∘ σ) }
    ((∃ e, ofRoot options root = .ok e) ↔ ∃ e, ofRoot options permuted = .ok e) ∧
    ∀ e e', ofRoot options root = .ok e → ofRoot options permuted = .ok e' →
      e.counters = e'.counters ∧
      e.registry.names.Perm e'.registry.names ∧
      (∀ name c, e.registry.get? name = some c →
        ∃ c', e'.registry.get? name = some c' ∧ c.Rearranged c') ∧
      ((∀ i j, i < j → (root.inner.get (σ i)).target? ≠ none →
          (root.inner.get (σ i)).target? = (root.inner.get (σ j)).target? → σ i < σ j) →
        e.registry.same e'.registry = true ∧
          ∀ name, e.registry.get? name = e'.registry.get? name) := by
  intro permuted
  have hinner : root.inner.Perm permuted.inner := by
    have h := σ.ofFn_comp_perm root.inner.get
    rw [List.ofFn_get] at h
    exact h.symm
  have hdecls : root.declarations.Perm permuted.declarations := by
    unfold Node.declarations
    split
    · exact hinner
    · exact .refl _
  refine ⟨?_, ?_⟩
  · simp only [ofRoot_eq_ok, exists_and_left, exists_eq', and_true, hdecls.mem_iff]
  · intro e e' he he'
    obtain ⟨-, rfl⟩ := (ofRoot_eq_ok ..).1 he
    obtain ⟨-, rfl⟩ := (ofRoot_eq_ok ..).1 he'
    have hnames := names_absorbNodes_perm options hdecls
    refine ⟨counters_absorbNodes_perm options hdecls _, hnames,
      fun name c hget => get?_absorbNodes_perm options hdecls hget, fun horder => ?_⟩
    have hfilter : ∀ name, root.declarations.filter (·.target? = some name) =
        permuted.declarations.filter (·.target? = some name) := by
      intro name
      unfold Node.declarations
      split
      · refine (filter_ofFn_comp root.inner σ _ fun i j hij hi hj => ?_).symm
        have hi := of_decide_eq_true hi
        have hj := of_decide_eq_true hj
        exact horder i j hij (by rw [hi]; exact nofun) (hi.trans hj.symm)
      · rfl
    have hget := get?_absorbNodes_eq options hdecls hfilter
    exact ⟨Registry.same_of_get?_eq (wellFormed_absorbNodes options _).nodup hnames hget, hget⟩

/-- Two interfaces that change places. -/
theorem permuted_extraction_swap :
    let decl (name : String) : Node := { Node.ofKind "ObjCInterfaceDecl" with name := some name }
    let root := { Node.ofKind "TranslationUnitDecl" with inner := [decl "A", decl "B"] }
    let swapped := { Node.ofKind "TranslationUnitDecl" with inner := [decl "B", decl "A"] }
    ∃ e e', ofRoot ⟨false⟩ root = .ok e ∧ ofRoot ⟨false⟩ swapped = .ok e' ∧
      e.registry ≠ e'.registry ∧ e.registry.same e'.registry = true := by
  intro decl root swapped
  have h := (permuted_extraction ⟨false⟩ root (Equiv.swap (0 : Fin 2) (1 : Fin 2))).2 _ _ rfl rfl
  exact ⟨_, _, rfl, rfl, by decide, (h.2.2.2 (by decide)).1⟩

end Extraction

end HeaderSchema
