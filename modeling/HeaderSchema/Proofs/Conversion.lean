import HeaderSchema.Extraction.Run
import HeaderSchema.Proofs.Contribution
import Mathlib.Data.List.Forall2
import Mathlib.Data.List.TakeWhile

/-!
# Converting a root

A conversion absorbs the children of a compilation unit up to the first that
owes something (`Node.taken`), and ends with the fault of the first unmet
obligation of the unit if there is one (`Extraction.convert_eq`). So which fault
comes out depends on the root alone and not on what was built before.
-/

namespace HeaderSchema

/-- A node of which only the kind is known. -/
def Node.ofKind (kind : String) : Node :=
  ⟨"", kind, none, none, none, none, none, false, []⟩

/-- The declarations that a conversion of a root looks at: its direct children,
or nothing if the root is no compilation unit. -/
def Node.declarations (root : Node) : List Node :=
  if root.kind = "TranslationUnitDecl" then root.inner else []

/-- A declaration has every field that it has to have. -/
def Node.isComplete (options : ExtractOptions) (node : Node) : Bool :=
  (node.obligations options).all (·.isMet)

/-- What the declarations of a root owe, in document order. -/
def Node.unitObligations (options : ExtractOptions) (root : Node) : List Obligation :=
  root.declarations.flatMap (Node.obligations options)

/-- The declarations that a conversion absorbs: those before the first that owes
something. -/
def Node.taken (options : ExtractOptions) (root : Node) : List Node :=
  root.declarations.takeWhile (Node.isComplete options)

theorem Node.declarations_of_unit {root : Node} (hroot : root.kind = "TranslationUnitDecl") :
    root.declarations = root.inner :=
  if_pos hroot

theorem Node.declarations_of_other {root : Node} (hroot : root.kind ≠ "TranslationUnitDecl") :
    root.declarations = [] :=
  if_neg hroot

theorem Node.isComplete_iff (options : ExtractOptions) (node : Node) :
    node.isComplete options = true ↔ ∀ o ∈ node.obligations options, o.isMet = true := by
  simp [isComplete]

theorem Node.unitObligations_met_iff (options : ExtractOptions) (root : Node) :
    (∀ o ∈ root.unitObligations options, o.isMet = true) ↔
      ∀ decl ∈ root.declarations, decl.isComplete options = true := by
  constructor
  · intro h decl hdecl
    exact (decl.isComplete_iff options).2 fun o ho => h o (List.mem_flatMap_of_mem hdecl ho)
  · intro h o ho
    obtain ⟨decl, hdecl, ho⟩ := List.mem_flatMap.1 ho
    exact (decl.isComplete_iff options).1 (h decl hdecl) o ho

theorem Node.isComplete_of_mem_taken (options : ExtractOptions) (root : Node) :
    ∀ decl ∈ root.taken options, decl.isComplete options = true :=
  fun _ hdecl => List.mem_takeWhile_imp hdecl

/-- Where nothing is owed, all declarations are taken. -/
theorem Node.taken_eq_declarations (options : ExtractOptions) {root : Node}
    (h : ∀ decl ∈ root.declarations, decl.isComplete options = true) :
    root.taken options = root.declarations :=
  List.takeWhile_eq_self_iff.2 h

namespace Extraction

/-- Absorbs the contributions of declarations that owe nothing. -/
def absorbNodes (options : ExtractOptions) (e : Extraction) (nodes : List Node) : Extraction :=
  nodes.foldl (fun e node => e.absorb (node.contribution options)) e

theorem absorbNodes_append (options : ExtractOptions) (e : Extraction) (nodes nodes' : List Node) :
    e.absorbNodes options (nodes ++ nodes') =
      (e.absorbNodes options nodes).absorbNodes options nodes' :=
  List.foldl_append ..

theorem absorbAll_eq (options : ExtractOptions) (e : Extraction) (nodes : List Node) :
    e.absorbAll options nodes =
      (e.absorbNodes options (nodes.takeWhile (Node.isComplete options)),
        settle (nodes.flatMap (Node.obligations options)) ()) := by
  induction nodes generalizing e with
  | nil => rfl
  | cons node nodes ih =>
    rw [absorbAll, Contribution.ofNode_eq, List.flatMap_cons]
    have hbind := settle_bind (node.obligations options)
      (nodes.flatMap (Node.obligations options)) (node.contribution options) fun _ => ()
    cases hsettle : settle (node.obligations options) (node.contribution options) with
    | ok contribution =>
      obtain ⟨hmet, rfl⟩ := (settle_eq_ok ..).1 hsettle
      rw [List.takeWhile_cons_of_pos ((node.isComplete_iff options).2 hmet), ← hbind, hsettle]
      exact ih _
    | error missing =>
      have howing : ¬node.isComplete options = true := fun hmet => by
        rw [(settle_eq_ok ..).2 ⟨(node.isComplete_iff options).1 hmet, rfl⟩] at hsettle
        cases hsettle
      rw [List.takeWhile_cons_of_neg howing, ← hbind, hsettle]
      rfl

/-- **What a conversion comes to**: the taken children are absorbed, and the
first unmet obligation is the fault. -/
theorem convert_eq (options : ExtractOptions) (e : Extraction) (root : Node) :
    e.convert options root =
      (e.absorbNodes options (root.taken options),
        settle (root.unitObligations options) ()) := by
  have hkind := @Node.kind_eq_iff root _ .translationUnit rfl
  unfold convert Node.taken Node.unitObligations
  by_cases h : root.kind = "TranslationUnitDecl"
  · rw [if_pos (hkind.1 h), Node.declarations_of_unit h]
    exact absorbAll_eq options e root.inner
  · rw [if_neg fun hk => h (hkind.2 hk), Node.declarations_of_other h]
    rfl

/-- Declarations that come to the same, one by one, are absorbed alike. -/
theorem absorbAll_congr {options options' : ExtractOptions} (e : Extraction)
    {nodes nodes' : List Node}
    (h : List.Forall₂ (fun a b => Contribution.ofNode options a = Contribution.ofNode options' b)
      nodes nodes') :
    e.absorbAll options nodes = e.absorbAll options' nodes' := by
  induction h generalizing e with
  | nil => rfl
  | @cons a b _ _ hhead _ ih =>
    rw [absorbAll, absorbAll, hhead]
    cases Contribution.ofNode options' b with
    | ok contribution => exact ih _
    | error missing => rfl

theorem convert_ok_iff (options : ExtractOptions) (e : Extraction) (root : Node) :
    (e.convert options root).2 = .ok () ↔ ∀ o ∈ root.unitObligations options, o.isMet = true := by
  rw [convert_eq, settle_eq_ok]
  exact and_iff_left rfl

/-- A root of complete declarations has all of them absorbed. -/
theorem convert_of_complete (options : ExtractOptions) (e : Extraction) {root : Node}
    (h : ∀ decl ∈ root.declarations, decl.isComplete options = true) :
    e.convert options root = (e.absorbNodes options root.declarations, .ok ()) := by
  have hmet := (root.unitObligations_met_iff options).2 h
  rw [convert_eq, Node.taken_eq_declarations options h, (settle_eq_ok ..).2 ⟨hmet, rfl⟩]

theorem ofRoot_eq_ok (options : ExtractOptions) (root : Node) (e : Extraction) :
    ofRoot options root = .ok e ↔
      (∀ decl ∈ root.declarations, decl.isComplete options = true) ∧
        empty.absorbNodes options root.declarations = e := by
  rw [← Node.unitObligations_met_iff, ← convert_ok_iff options empty]
  unfold ofRoot
  constructor
  · intro h
    split at h
    · next e' hconvert =>
      cases h
      have hmet := (convert_ok_iff options empty root).1 (by rw [hconvert])
      rw [convert_of_complete options empty ((root.unitObligations_met_iff options).1 hmet)]
        at hconvert ⊢
      exact ⟨rfl, congrArg Prod.fst hconvert⟩
    · cases h
  · rintro ⟨hok, rfl⟩
    have hmet := (convert_ok_iff options empty root).1 hok
    rw [convert_of_complete options empty ((root.unitObligations_met_iff options).1 hmet)]

theorem ofRoot_eq_error (options : ExtractOptions) {root : Node} {o : Obligation}
    (h : (root.unitObligations options).find? (!·.isMet) = some o) :
    ofRoot options root = .error (.missing o.fault) := by
  unfold ofRoot
  rw [convert_eq, (settle_eq_error ..).2 ⟨o, h, rfl⟩]

/-! ## Which fault comes out -/

/-- **The first unmet obligation decides.** An extraction succeeds exactly when
every obligation of the unit is met. If not, it reports the first that is unmet,
with the kind, the field and the identifier of the node that owes it; and so
does a conversion, whatever was built before. -/
theorem ofRoot_reports_first_unmet (options : ExtractOptions) (root : Node) :
    ((∃ e, ofRoot options root = .ok e) ↔
      ∀ o ∈ root.unitObligations options, o.isMet = true) ∧
    (∀ o, (root.unitObligations options).find? (!·.isMet) = some o →
      ofRoot options root =
        .error (.missing ⟨o.kind, o.field, if o.id = "" then "<no id>" else o.id⟩)) ∧
    ∀ e : Extraction, (e.convert options root).2 =
      match (root.unitObligations options).find? (!·.isMet) with
      | none => .ok ()
      | some o => .error ⟨o.kind, o.field, if o.id = "" then "<no id>" else o.id⟩ := by
  refine ⟨⟨?_, ?_⟩, ?_, ?_⟩
  · rintro ⟨e, he⟩
    exact (root.unitObligations_met_iff options).2 ((ofRoot_eq_ok ..).1 he).1
  · intro hmet
    exact ⟨_, (ofRoot_eq_ok ..).2 ⟨(root.unitObligations_met_iff options).1 hmet, rfl⟩⟩
  · intro o ho
    exact ofRoot_eq_error options ho
  · intro e
    rw [convert_eq]
    rfl

/-- A parameter without a type comes before a property without one, and an
implicit property owes nothing if it is left out. -/
theorem ofRoot_reports_parameter :
    let parameter : Node := { Node.ofKind "ParmVarDecl" with isImplicit := true }
    let method : Node :=
      { Node.ofKind "ObjCMethodDecl" with
        returnType := some ⟨"void", none⟩, inner := [parameter] }
    let property : Node := Node.ofKind "ObjCPropertyDecl"
    let protocol : Node :=
      { Node.ofKind "ObjCProtocolDecl" with
        name := some "", inner := [{ property with isImplicit := true }, method, property] }
    let root : Node :=
      { Node.ofKind "TranslationUnitDecl" with inner := [protocol, Node.ofKind "ObjCCategoryDecl"] }
    ofRoot ⟨true⟩ root = .error (.missing ⟨"ParmVarDecl", .type, "<no id>"⟩) := by
  intro parameter method property protocol root
  exact (ofRoot_reports_first_unmet ⟨true⟩ root).2.1 ⟨"ParmVarDecl", "", .type, false⟩ rfl

end Extraction

end HeaderSchema
