import InkGauge.Cost.Classify
import InkGauge.Proofs.Cost.Evidence
import InkGauge.Proofs.Probe.Patches

/-!
Labels and operations are taken from text, but not from the same text and not by the same words. A
label goes by all that a statement computes, and by the call alone. An operation goes by each of the
expressions that are searched, which are fewer: not the arguments of a macro that is a statement,
and of what owns statements only the parts. And it takes a call for an access to storage only if the
text has `self.` too. Where an expression that is searched shows the label in this sense, there is
an operation of the category that the label stands for.
-/

namespace InkGauge.Cost

open Contract

namespace ProbeClass

/-- The category that a label stands for. -/
def category : ProbeClass → Category
  | .storageRead => .storageRead
  | .storageWrite => .storageWrite
  | .eventEmit => .event
  | .msgSender | .msgValue | .blockInfo => .evmContext
  | .externalCall => .externalCall
  | .cryptoHash => .crypto

def isStorage (c : ProbeClass) : Bool := c = .storageRead || c = .storageWrite

/-- Does the text show what the label stands for? -/
def evident (c : ProbeClass) (text : String) : Bool :=
  hasAny text c.patterns && (!c.isStorage || text.has "self.")

end ProbeClass

/-- A costly operation that a text shows is among its tags. -/
theorem exists_tag_of_costly {c : ProbeClass} (hc : c ∈ ProbeClass.costly) {text : String}
    (h : hasAny text c.patterns = true) : ∃ tag ∈ tagsOf text, tag.category = c.category := by
  have htable : ∀ c ∈ ProbeClass.costly, ∀ p ∈ c.patterns, ∃ row ∈ patternTags,
      p ∈ row.1 ∧ row.2.category = c.category := by decide
  obtain ⟨p, hp, hhas⟩ := hasAny_iff.1 h
  obtain ⟨row, hrow, hmem, hcategory⟩ := htable c hc p hp
  have hrow' : hasAny text row.1 = true := hasAny_iff.2 ⟨p, hmem, hhas⟩
  exact ⟨row.2, mem_tagsOf_iff.2 (.inr (.inr ⟨row, hrow, hrow', rfl⟩)), hcategory⟩

/-- What a text shows is among its tags. -/
theorem exists_tag_of_evident {c : ProbeClass} {text : String} (h : c.evident text = true) :
    ∃ tag ∈ tagsOf text, tag.category = c.category := by
  obtain ⟨hpattern, hself⟩ := Bool.and_eq_true_iff.1 h
  by_cases hread : c = .storageRead
  · subst hread
    obtain ⟨kind, hkind⟩ := isSome_storageRead? hself (hasAny_of_subset (by decide) hpattern)
    exact ⟨_, mem_tagsOf_iff.2 (.inl ⟨kind, hkind, rfl⟩), rfl⟩
  by_cases hwrite : c = .storageWrite
  · subst hwrite
    obtain ⟨kind, hkind⟩ := isSome_storageWrite? hself (.inl (hasAny_of_subset (by decide) hpattern))
    exact ⟨_, mem_tagsOf_iff.2 (.inr (.inl ⟨kind, hkind, rfl⟩)), rfl⟩
  · have hcostly : c ∈ ProbeClass.costly := by cases c <;> first | contradiction | decide
    exact exists_tag_of_costly hcostly hpattern

mutual

/-- The expressions in an expression whose text is searched. -/
def searched : Expr → List Expr
  | .block body _ _ _ => searchedInBlock body
  | .ifElse cond thenBlock orElse _ =>
    searched cond ++ searchedInBlock thenBlock ++ searched? orElse
  | .matchOn scrutinee arms _ => searched scrutinee ++ searchedInArms arms
  | .loop body _ _ => searchedInBlock body
  | .whileLoop cond body _ _ => searched cond ++ searchedInBlock body
  | .forLoop _ iter body _ _ => searched iter ++ searchedInBlock body
  | .letCond _ e _ => searched e
  | .methodCall receiver method turbofish args s =>
    [.methodCall receiver method turbofish args s]
      ++ (if isMethodCall receiver then [] else searched receiver) ++ searchedInAll args
  | .call func args s => [.call func args s] ++ searched func ++ searchedInAll args
  | .binary op left right s => [.binary op left right s] ++ searched left ++ searched right
  | .assign left right s => [.assign left right s] ++ searched left ++ searched right
  | .index base index s => [.index base index s] ++ searched base ++ searched index
  | .field base member s => [.field base member s] ++ searched base
  | e => [e]

def searchedInAll : List Expr → List Expr
  | [] => []
  | e :: es => searched e ++ searchedInAll es

def searched? : Option Expr → List Expr
  | none => []
  | some e => searched e

def searchedInArm : MatchArm → List Expr
  | ⟨_, guard, body, _⟩ => searched? guard ++ searched body

def searchedInArms : List MatchArm → List Expr
  | [] => []
  | a :: as => searchedInArm a ++ searchedInArms as

def searchedInStmt : Stmt → List Expr
  | .letBind _ _ init orElse _ _ => searched? init ++ searchedInBlock? orElse
  | .expr (.invoke ..) _ _ _ => []
  | .expr e _ _ _ => searched e
  | .item .. => []
  | .empty _ => []

def searchedInStmts : List Stmt → List Expr
  | [] => []
  | s :: ss => searchedInStmt s ++ searchedInStmts ss

def searchedInBlock : Block → List Expr
  | ⟨stmts, tail, _⟩ => searchedInStmts stmts ++ searched? tail

def searchedInBlock? : Option Block → List Expr
  | none => []
  | some b => searchedInBlock b

end

/-- Operations that have all that the texts of some expressions show. -/
def Covers (m : Model) (os : List Operation) (es : List Expr) : Prop :=
  ∀ e ∈ es, textOperations m e ⊆ os

section Covers

variable {m : Model} {os os' : List Operation} {es es' : List Expr}

theorem Covers.nil : Covers m os [] := by simp [Covers]

theorem Covers.append (h : Covers m os es) (h' : Covers m os' es') :
    Covers m (os ++ os') (es ++ es') := by
  intro e he
  rcases List.mem_append.1 he with he | he
  · exact List.subset_append_of_subset_left _ (h e he)
  · exact List.subset_append_of_subset_right _ (h' e he)

theorem Covers.own (e : Expr) : Covers m (textOperations m e) [e] := by
  intro e' he'
  rw [List.mem_singleton.1 he']
  exact List.Subset.refl _

theorem Covers.more (h : Covers m os es) : Covers m (os ++ os') es :=
  fun e he => List.subset_append_of_subset_left _ (h e he)

variable (m)

mutual

/-- An expression has all the operations that its searched expressions show. -/
theorem covers_ofExpr : (e : Expr) → Covers m (ofExpr m e) (searched e)
  | .block body _ _ _ => covers_ofBlock body
  | .ifElse cond thenBlock orElse _ =>
    ((covers_ofExpr cond).append (covers_ofBlock thenBlock)).append (covers_ofExpr? orElse)
  | .matchOn scrutinee arms _ => (covers_ofExpr scrutinee).append (covers_ofArms arms)
  | .loop body _ _ => covers_ofBlock body
  | .whileLoop cond body _ _ => (covers_ofExpr cond).append (covers_ofBlock body)
  | .forLoop _ iter body _ _ => (covers_ofExpr iter).append (covers_ofBlock body)
  | .letCond _ e _ => covers_ofExpr e
  | .methodCall receiver method turbofish args s => by
    have hreceiver : Covers m (if isMethodCall receiver then [] else ofExpr m receiver)
        (if isMethodCall receiver then [] else searched receiver) := by
      split
      · exact .nil
      · exact covers_ofExpr receiver
    exact ((Covers.own _).append hreceiver).append (covers_ofExprs args)
  | .call func args _ => ((Covers.own _).append (covers_ofExpr func)).append (covers_ofExprs args)
  | .binary _ left right _ =>
    (((Covers.own _).append (covers_ofExpr left)).append (covers_ofExpr right)).more
  | .assign left right _ =>
    (((Covers.own _).append (covers_ofExpr left)).append (covers_ofExpr right)).more
  | .index base index _ =>
    (((Covers.own _).append (covers_ofExpr base)).append (covers_ofExpr index)).more
  | .field base _ _ => ((Covers.own _).append (covers_ofExpr base)).more
  | .lit .. => .own _
  | .path .. => .own _
  | .unary .. => .own _
  | .cast .. => .own _
  | .attempt .. => .own _
  | .await .. => .own _
  | .paren .. => .own _
  | .tuple .. => .own _
  | .array .. => .own _
  | .arrayRepeat .. => .own _
  | .structLit .. => .own _
  | .invoke .. => .own _
  | .range .. => .own _
  | .closure .. => .own _
  | .ret .. => .own _
  | .brk .. => .own _
  | .cont .. => .own _

theorem covers_ofExprs : (es : List Expr) → Covers m (ofExprs m es) (searchedInAll es)
  | [] => .nil
  | e :: es => (covers_ofExpr e).append (covers_ofExprs es)

theorem covers_ofExpr? : (e : Option Expr) → Covers m (ofExpr? m e) (searched? e)
  | none => .nil
  | some e => covers_ofExpr e

theorem covers_ofArms : (as : List MatchArm) → Covers m (ofArms m as) (searchedInArms as)
  | [] => .nil
  | ⟨_, guard, body, _⟩ :: as =>
    ((covers_ofExpr? guard).append (covers_ofExpr body)).append (covers_ofArms as)

theorem covers_ofStmt : (s : Stmt) → Covers m (ofStmt m s) (searchedInStmt s)
  | .letBind _ _ init orElse _ _ => (covers_ofExpr? init).append (covers_ofBlock? orElse)
  | .expr e _ _ _ => by
    have he := covers_ofExpr e
    cases e with
    | invoke => exact .nil
    | _ => exact he
  | .item .. => .nil
  | .empty _ => .nil

theorem covers_ofStmts : (ss : List Stmt) → Covers m (ofStmts m ss) (searchedInStmts ss)
  | [] => .nil
  | s :: ss => (covers_ofStmt s).append (covers_ofStmts ss)

theorem covers_ofBlock : (b : Block) → Covers m (ofBlock m b) (searchedInBlock b)
  | ⟨stmts, tail, _⟩ => (covers_ofStmts stmts).append (covers_ofExpr? tail)

theorem covers_ofBlock? : (b : Option Block) → Covers m (ofBlock? m b) (searchedInBlock? b)
  | none => .nil
  | some b => covers_ofBlock b

end

end Covers

theorem exists_operation_of_evident {m : Model} {s : Stmt} {e : Expr} (he : e ∈ searchedInStmt s)
    {c : ProbeClass} (h : c.evident e.render = true) :
    ∃ o ∈ ofStmt m s, o.category = c.category := by
  obtain ⟨tag, htag, hcategory⟩ := exists_tag_of_evident h
  exact ⟨operationAt m e.span e.render tag,
    covers_ofStmt m s e he (List.mem_map_of_mem htag), hcategory⟩

end InkGauge.Cost

namespace InkGauge.Probe

open Contract Cost

def isMacroStmt : Stmt → Bool
  | .expr (.invoke ..) _ _ _ => true
  | _ => false

/-- Is the text of the expression searched as a whole? What owns statements is taken apart. -/
def isWhole : Expr → Bool
  | .letCond .. => false
  | e => !e.isBlockLike

theorem mem_searched_of_isWhole {e : Expr} (h : isWhole e = true) : e ∈ searched e := by
  cases e with
  | block | ifElse | matchOn | loop | whileLoop | forLoop | letCond => cases h
  | _ => simp [searched]

theorem mem_searchedInStmt {s : Stmt} {value : Expr} (hvalue : computed? s = some value)
    (hwhole : isWhole value = true) (hplain : isMacroStmt s = false) :
    value ∈ searchedInStmt s := by
  have hmem := mem_searched_of_isWhole hwhole
  cases s with
  | letBind pattern type init orElse attrs span =>
    obtain rfl : init = some value := hvalue
    exact List.mem_append_left _ hmem
  | expr e semi attrs span =>
    obtain ⟨-, rfl⟩ : (semi && !e.isBlockLike) = true ∧ e = value := by
      simpa [computed?] using hvalue
    cases e with
    | invoke => cases hplain
    | _ => exact hmem
  | item => cases hvalue
  | empty => cases hvalue

/-- The text of a target shows its label, and either that it is about storage or something costly.
-/
theorem spec_of_target? {s : Stmt} {t : Target} (h : target? s = some t) :
    hasAny t.value.render t.kind.patterns = true
    ∧ (t.value.render.has "self." = true
      ∨ ∃ c ∈ ProbeClass.costly, hasAny t.value.render c.patterns = true) := by
  simp only [target?, bind, Option.bind_eq_some_iff, Option.ite_none_right_eq_some, pure] at h
  obtain ⟨value, -, kind, hkind, hcandidate, ht⟩ := h
  cases ht
  refine ⟨List.find?_some (p := fun c : ProbeClass => hasAny value.render c.patterns) hkind, ?_⟩
  rcases Bool.or_eq_true_iff.1 hcandidate with hself | hcostly
  · exact .inl (Bool.and_eq_true_iff.1 hself).1
  · exact .inr (List.any_eq_true.1 hcostly)

/-- How the label of a probe and the operations of its statement agree. -/
structure LabelAgrees (m : Model) (t : Target) : Prop where
  /-- An expression that is searched and shows the label makes an operation of its category. -/
  shown : ∀ e ∈ searchedInStmt t.stmt, t.kind.evident e.render = true →
    ∃ o ∈ ofStmt m t.stmt, o.category = t.kind.category
  /-- What is computed is such an expression, unless the label is one of storage without `self.`. -/
  whole : isWhole t.value = true → isMacroStmt t.stmt = false →
    (t.kind.isStorage = true → t.value.render.has "self." = true) →
    ∃ o ∈ ofStmt m t.stmt, o.category = t.kind.category
  /-- In that case there is an operation of the costly call that the statement was taken for. -/
  unrooted : isWhole t.value = true → isMacroStmt t.stmt = false →
    t.value.render.has "self." = false →
    ∃ c ∈ ProbeClass.costly, hasAny t.value.render c.patterns = true
      ∧ ∃ o ∈ ofStmt m t.stmt, o.category = c.category
  /-- A macro that is a statement only guards. -/
  guards : isMacroStmt t.stmt = true → ∀ o ∈ ofStmt m t.stmt, o.category = .controlFlow

theorem category_of_isMacroStmt {m : Model} {s : Stmt} (h : isMacroStmt s = true) :
    ∀ o ∈ ofStmt m s, o.category = .controlFlow := by
  cases s with
  | expr e semi attrs span =>
    cases e with
    | invoke path delimiter tokens span' =>
      intro o ho
      rw [ofStmt, macroOperations] at ho
      split at ho
      · rw [List.mem_singleton.1 ho]
        rfl
      · cases ho
    | _ => cases h
  | _ => cases h

theorem labelAgrees_of_target? (m : Model) {t : Target} (h : target? t.stmt = some t) :
    LabelAgrees m t := by
  obtain ⟨hpattern, htaken⟩ := spec_of_target? h
  have hmem := mem_searchedInStmt (computed_of_target? h)
  refine ⟨fun e he hshown => exists_operation_of_evident he hshown, ?_, ?_, category_of_isMacroStmt⟩
  · intro hwhole hplain hself
    refine exists_operation_of_evident (hmem hwhole hplain) ?_
    rw [ProbeClass.evident, hpattern]
    cases hstorage : t.kind.isStorage with
    | false => rfl
    | true => exact hself hstorage
  · intro hwhole hplain hself
    obtain ⟨c, hc, hcostly⟩ := htaken.resolve_left (by simp [hself])
    refine ⟨c, hc, hcostly, exists_operation_of_evident (hmem hwhole hplain) ?_⟩
    have hplain : ∀ c ∈ ProbeClass.costly, c.isStorage = false := by decide
    rw [ProbeClass.evident, hcostly, hplain c hc]
    rfl

/-- Every probe that is put into a contract agrees with the operations of its statement, as far as
these go by the same text. -/
theorem probe_label_agrees {source : List Char} {filename : String} {tree : SourceFile}
    (h : parse source filename = .ok tree) (i : Instrumentor) (m : Model) :
    ∀ p ∈ (i.run source filename).2.probes,
      ∃ s ∈ sites tree, p = s.probe p.id ∧ LabelAgrees m s.target := by
  intro p hp
  rw [run_of_parse h, probes_eq_zipIdx] at hp
  obtain ⟨⟨s, id⟩, hs, rfl⟩ := List.mem_map.1 hp
  have hmem : s ∈ sites tree := List.fst_mem_of_mem_zipIdx hs
  have hfound := (lined_sites h).found s.target (List.mem_map_of_mem hmem)
  exact ⟨s, hmem, rfl, labelAgrees_of_target? m hfound⟩

/-- A read that is not of storage by its text, and one that is. -/
def twoReads : String := "impl A\x7bpub fn f(&self)\x7bm.get(sha256);self.a.get(k);\x7d\x7d"

theorem probe_label_agrees_twoReads : ∃ tree, parse twoReads.toList "" = .ok tree
    ∧ (sites tree).map (fun s => (s.target.kind, isWhole s.target.value, isMacroStmt s.target.stmt,
        s.target.value.render.has "self."))
      = [(.storageRead, true, false, false), (.storageRead, true, false, true)]
    ∧ ∀ p ∈ ((Instrumentor.fresh .default).run twoReads.toList "").2.probes,
      ∃ s ∈ sites tree, p = s.probe p.id ∧ LabelAgrees .default s.target := by
  have hcheck : parsesTo twoReads (fun tree =>
      (sites tree).map (fun s => (s.target.kind, isWhole s.target.value, isMacroStmt s.target.stmt,
        s.target.value.render.has "self."))
      = [(.storageRead, true, false, false), (.storageRead, true, false, true)]) = true := by
    decide +kernel
  obtain ⟨tree, htree, hsites⟩ := exists_of_parsesTo hcheck
  exact ⟨tree, htree, of_decide_eq_true hsites, probe_label_agrees htree _ _⟩

/-- A read without `self.`, the argument of a macro that is a statement, and a pattern in an
initializer that is taken apart. -/
def mislabelled : String :=
  "impl A\x7bpub fn f(&self)\x7bm.get(sha256);assert!(self.a.get(k));let x=match y\x7bsha256=>1\x7d;\x7d\x7d"

/-- No operation of a probed statement has the category that its label stands for. -/
theorem probe_label_missed : ∃ tree, parse mislabelled.toList "" = .ok tree
    ∧ ((Instrumentor.fresh .default).run mislabelled.toList "").2.probes.map Placement.kind
      = [.storageRead, .storageRead, .cryptoHash]
    ∧ ∀ s ∈ sites tree, ∀ o ∈ ofStmt .default s.target.stmt, o.category ≠ s.target.kind.category := by
  have hcheck : parsesTo mislabelled (fun tree =>
      (probes tree).map Placement.kind = [.storageRead, .storageRead, .cryptoHash]
      ∧ ∀ s ∈ sites tree, ∀ o ∈ ofStmt .default s.target.stmt, o.category ≠ s.target.kind.category)
      = true := by decide +kernel
  obtain ⟨tree, htree, hmissed⟩ := exists_of_parsesTo hcheck
  obtain ⟨hkinds, hnone⟩ := of_decide_eq_true hmissed
  refine ⟨tree, htree, ?_, hnone⟩
  rw [run_of_parse htree]
  exact hkinds

end InkGauge.Probe
