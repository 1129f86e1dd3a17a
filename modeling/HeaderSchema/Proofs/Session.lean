import HeaderSchema.Proofs.Conversion

/-!
# Sessions

One extraction may convert several roots, one after another, and some of them
may fail. What it has built in the end is what a single conversion builds from
one compilation unit that holds the children which each root had absorbed
(`session_law`). A declaration that fails leaves nothing behind: it changes
neither the registry nor a counter, and what follows it is not looked at.
-/

namespace HeaderSchema

namespace Extraction

/-- Converts roots one after another, whatever becomes of each. -/
def session (options : ExtractOptions) (e : Extraction) (roots : List Node) : Extraction :=
  roots.foldl (fun e root => (e.convert options root).1) e

/-- What becomes of one root, in terms of the children that it has `taken`. -/
structure Takes (options : ExtractOptions) (e : Extraction) (root : Node)
    (taken : List Node) : Prop where
  /-- A root that is no compilation unit gives no child. -/
  other : root.kind ≠ "TranslationUnitDecl" →
    taken = [] ∧ e.convert options root = (e, .ok ())
  /-- A conversion that succeeds takes all children. -/
  success : root.kind = "TranslationUnitDecl" → (e.convert options root).2 = .ok () →
    taken = root.inner
  /-- A conversion that fails takes those before the first that fails, and what
  comes after that one makes no difference. -/
  failure : ∀ missing, (e.convert options root).2 = .error missing →
    ∃ bad rest, root.inner = taken ++ bad :: rest ∧
      Contribution.ofNode options bad = .error missing ∧
      ∀ rest', e.convert options { root with inner := taken ++ bad :: rest' } =
        e.convert options root
  /-- Only the taken children change the extraction, and none of them fails. -/
  state : ∀ unit : Node, unit.kind = "TranslationUnitDecl" → unit.inner = taken →
    e.convert options unit = ((e.convert options root).1, .ok ())

/-! ## Conversions that fail -/

/-- The first declaration that owes something ends the conversion: what comes
before it is absorbed, and the fault is its own. -/
theorem convert_of_incomplete (options : ExtractOptions) (e : Extraction) {root : Node}
    {before rest : List Node} {bad : Node} (hdecls : root.declarations = before ++ bad :: rest)
    (hbefore : ∀ decl ∈ before, decl.isComplete options = true)
    (hbad : bad.isComplete options = false) :
    e.convert options root =
      (e.absorbNodes options before, settle (bad.obligations options) ()) := by
  have hstop : (bad :: rest).takeWhile (Node.isComplete options) = [] :=
    List.takeWhile_cons_of_neg (by simp [hbad])
  have hmet : settle (before.flatMap (Node.obligations options)) () = .ok () := by
    refine (settle_eq_ok ..).2 ⟨fun o ho => ?_, rfl⟩
    obtain ⟨decl, hdecl, ho⟩ := List.mem_flatMap.1 ho
    exact (decl.isComplete_iff options).1 (hbefore decl hdecl) o ho
  have hunmet : ∃ missing, settle (bad.obligations options) () = .error missing := by
    cases hsettle : settle (bad.obligations options) () with
    | ok _ =>
      rw [(bad.isComplete_iff options).2 ((settle_eq_ok ..).1 hsettle).1] at hbad
      cases hbad
    | error missing => exact ⟨missing, rfl⟩
  obtain ⟨missing, hmissing⟩ := hunmet
  rw [convert_eq, Node.taken, Node.unitObligations, hdecls,
    List.takeWhile_append_of_pos hbefore, hstop, List.append_nil, List.flatMap_append,
    List.flatMap_cons]
  rw [← settle_bind _ _ () fun _ => (), hmet, ← settle_bind _ _ () fun _ => (), hmissing]
  rfl

theorem exists_first_incomplete (options : ExtractOptions) {nodes : List Node}
    (h : ¬∀ decl ∈ nodes, decl.isComplete options = true) :
    ∃ bad rest, nodes = nodes.takeWhile (Node.isComplete options) ++ bad :: rest ∧
      bad.isComplete options = false := by
  induction nodes with
  | nil => exact absurd nofun h
  | cons node nodes ih =>
    cases hnode : node.isComplete options with
    | false =>
      refine ⟨node, nodes, ?_, hnode⟩
      rw [List.takeWhile_cons_of_neg (by simp [hnode]), List.nil_append]
    | true =>
      have hrest : ¬∀ decl ∈ nodes, decl.isComplete options = true := fun hall =>
        h (List.forall_mem_cons.2 ⟨hnode, hall⟩)
      obtain ⟨bad, rest, heq, hbad⟩ := ih hrest
      refine ⟨bad, rest, ?_, hbad⟩
      rw [List.takeWhile_cons_of_pos hnode, List.cons_append, ← heq]

/-- A unit of the children that another root has taken does what that root does
to the extraction, and does not fail. -/
theorem convert_taken (options : ExtractOptions) (e : Extraction) (root : Node) {unit : Node}
    (hunit : unit.kind = "TranslationUnitDecl") (hinner : unit.inner = root.taken options) :
    e.convert options unit = ((e.convert options root).1, .ok ()) := by
  have hdecls : unit.declarations = root.taken options :=
    (Node.declarations_of_unit hunit).trans hinner
  have hcomplete : ∀ decl ∈ unit.declarations, decl.isComplete options = true := by
    rw [hdecls]
    exact root.isComplete_of_mem_taken options
  rw [convert_of_complete options e hcomplete, hdecls, convert_eq options e root]

theorem takes_taken (options : ExtractOptions) (e : Extraction) (root : Node) :
    e.Takes options root (root.taken options) := by
  refine ⟨fun hroot => ?_, fun hroot hok => ?_, fun missing herror => ?_,
    fun unit hunit hinner => convert_taken options e root hunit hinner⟩
  · have hdecls := Node.declarations_of_other hroot
    have hcomplete : ∀ decl ∈ root.declarations, decl.isComplete options = true := by
      rw [hdecls]
      exact nofun
    rw [convert_of_complete options e hcomplete, Node.taken_eq_declarations options hcomplete,
      hdecls]
    exact ⟨rfl, rfl⟩
  · have hcomplete := (root.unitObligations_met_iff options).1 ((convert_ok_iff ..).1 hok)
    rw [Node.taken_eq_declarations options hcomplete, Node.declarations_of_unit hroot]
  · have howing : ¬∀ decl ∈ root.declarations, decl.isComplete options = true := fun hall => by
      rw [convert_of_complete options e hall] at herror
      cases herror
    obtain ⟨bad, rest, hdecls, hbad⟩ := exists_first_incomplete options howing
    have hroot : root.kind = "TranslationUnitDecl" := by
      by_contra hother
      rw [Node.declarations_of_other hother] at howing
      exact howing nofun
    have hbefore := root.isComplete_of_mem_taken options
    have hconvert := convert_of_incomplete options e hdecls hbefore hbad
    refine ⟨bad, rest, (Node.declarations_of_unit hroot).symm.trans hdecls, ?_, fun rest' => ?_⟩
    · rw [hconvert] at herror
      rw [Contribution.ofNode_eq, settle_eq_error]
      exact (settle_eq_error ..).1 herror
    · have hdecls' : ({ root with inner := root.taken options ++ bad :: rest' } : Node).declarations
          = root.taken options ++ bad :: rest' := Node.declarations_of_unit hroot
      rw [hconvert, convert_of_incomplete options e hdecls' hbefore hbad]
      rfl

/-! ## Whole sessions -/

theorem session_eq_absorbNodes (options : ExtractOptions) (e : Extraction) (roots : List Node) :
    e.session options roots = e.absorbNodes options (roots.flatMap (Node.taken options)) := by
  induction roots generalizing e with
  | nil => rfl
  | cons root roots ih =>
    rw [List.flatMap_cons, absorbNodes_append, ← ih]
    show session options (e.convert options root).1 roots = _
    rw [convert_eq]

/-- **A session is one conversion** of the children that its roots have taken,
and what a root takes is all of its children, those before the first that
fails, or none. -/
theorem session_law (options : ExtractOptions) (roots : List Node) :
    (∀ e : Extraction, ∀ root ∈ roots, e.Takes options root (root.taken options)) ∧
    ∀ unit : Node, unit.kind = "TranslationUnitDecl" →
      unit.inner = roots.flatMap (Node.taken options) →
      empty.convert options unit = (empty.session options roots, .ok ()) := by
  refine ⟨fun e root _ => takes_taken options e root, fun unit hunit hinner => ?_⟩
  have hdecls := (Node.declarations_of_unit hunit).trans hinner
  have hcomplete : ∀ decl ∈ unit.declarations, decl.isComplete options = true := by
    intro decl hdecl
    rw [hdecls] at hdecl
    obtain ⟨root, -, hdecl⟩ := List.mem_flatMap.1 hdecl
    exact root.isComplete_of_mem_taken options decl hdecl
  rw [convert_of_complete options empty hcomplete, hdecls, session_eq_absorbNodes]

/-- A session of a root that fails, one that is no compilation unit and one that
succeeds. -/
theorem session_law_of_three :
    let decl (name : String) : Node := { Node.ofKind "ObjCInterfaceDecl" with name := some name }
    let failing : Node :=
      { Node.ofKind "TranslationUnitDecl" with
        inner := [decl "A", Node.ofKind "ObjCInterfaceDecl", decl "B"] }
    let succeeding : Node :=
      { Node.ofKind "TranslationUnitDecl" with inner := [decl "C", Node.ofKind "EnumDecl"] }
    let unit : Node :=
      { Node.ofKind "TranslationUnitDecl" with
        inner := [decl "A", decl "C", Node.ofKind "EnumDecl"] }
    empty.convert ⟨false⟩ unit =
      (empty.session ⟨false⟩ [failing, decl "B", succeeding], .ok ()) := by
  intro decl failing succeeding unit
  exact (session_law ⟨false⟩ [failing, decl "B", succeeding]).2 unit rfl rfl

end Extraction

end HeaderSchema
