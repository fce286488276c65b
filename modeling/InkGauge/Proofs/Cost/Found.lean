import InkGauge.Cost.Classify
import InkGauge.Proofs.Contract.Node
import InkGauge.Proofs.Cost.Evidence

/-!
Every operation of a block was found at an expression that stands below it: the operation keeps the
place and the text of the expression, and costs what the model says of its name and its category.
-/

namespace InkGauge.Cost

open Contract

/-- The operation was found at an expression. Its share in a total does not matter. -/
structure Operation.FoundAt (m : Model) (e : Expr) (op : Operation) : Prop where
  line : op.line = e.span.line
  column : op.column = e.span.column
  code : op.code = e.render
  entity : op.entity = entityOf op.code
  ink : op.ink = m.cost op.operation op.category
  category : op.category ∈ Category.known

/-- All the operations were found below a node. -/
def FoundBelow (m : Model) (n : Node) (ops : List Operation) : Prop :=
  ∀ op ∈ ops, ∃ e, n.Holds (.expr e) ∧ op.FoundAt m e

theorem foundAt_operationAt (m : Model) (e : Expr) {tag : Tag}
    (h : tag.category ∈ Category.known) : (operationAt m e.span e.render tag).FoundAt m e :=
  ⟨rfl, rfl, rfl, rfl, rfl, h⟩

theorem known_of_mem_tagsOf {text : String} {tag : Tag} (h : tag ∈ tagsOf text) :
    tag.category ∈ Category.known := by
  have hrows : ∀ row ∈ patternTags, row.2.category ∈ Category.known := by decide
  rcases mem_tagsOf_iff.1 h with ⟨kind, -, rfl⟩ | ⟨kind, -, rfl⟩ | ⟨row, hrow, -, rfl⟩
  · simp [Category.known]
  · simp [Category.known]
  · exact hrows row hrow

section

variable {m : Model} {n : Node} {ops ops' : List Operation}

theorem FoundBelow.nil : FoundBelow m n [] := by
  intro op hop
  cases hop

theorem FoundBelow.append (h : FoundBelow m n ops) (h' : FoundBelow m n ops') :
    FoundBelow m n (ops ++ ops') := by
  intro op hop
  rcases List.mem_append.1 hop with hop | hop
  · exact h op hop
  · exact h' op hop

/-- What was found below a child was found below the node. -/
theorem FoundBelow.of_child {k : Node} (hk : k ∈ n.children) (h : FoundBelow m k ops) :
    FoundBelow m n ops := by
  intro op hop
  obtain ⟨e, he, hop⟩ := h op hop
  exact ⟨e, he.of_child hk, hop⟩

theorem foundBelow_textOperations (e : Expr) : FoundBelow m (.expr e) (textOperations m e) := by
  intro op hop
  obtain ⟨tag, htag, rfl⟩ := List.mem_map.1 hop
  exact ⟨e, .refl, foundAt_operationAt m e (known_of_mem_tagsOf htag)⟩

theorem foundBelow_structural (e : Expr) (shown : Bool) (operation : String) {category : Category}
    (h : category ∈ Category.known) :
    FoundBelow m (.expr e) (structural m e shown operation category) := by
  intro op hop
  rw [structural] at hop
  split at hop
  · rw [List.mem_singleton.1 hop]
    exact ⟨e, .refl, foundAt_operationAt m e h⟩
  · cases hop

theorem foundBelow_macroOperations (e : Expr) (path : String) :
    FoundBelow m (.expr e) (macroOperations m e path) := by
  intro op hop
  rw [macroOperations] at hop
  split at hop
  · rw [List.mem_singleton.1 hop]
    exact ⟨e, .refl, foundAt_operationAt m e (by decide)⟩
  · cases hop

end

variable (m : Model)

attribute [local simp] Node.children Expr.children Stmt.children Node.exprs Node.expr? Node.block?

-- The lists and options below a node have no node of their own: they are searched on behalf of the
-- node that they are children of.
mutual

theorem foundBelow_ofExpr : (e : Expr) → FoundBelow m (.expr e) (ofExpr m e)
  | .block body _ _ _ => (foundBelow_ofBlock body).of_child (by simp)
  | .ifElse cond thenBlock orElse _ => by
    have hcond := foundBelow_ofExpr cond
    have hthen := foundBelow_ofBlock thenBlock
    refine ((hcond.of_child ?_).append (hthen.of_child ?_)).append (foundBelow_ofExpr? orElse ?_)
    · simp
    · simp
    · intro e he
      simp [Option.mem_def.1 he]
  | .matchOn scrutinee arms _ => by
    have hscrutinee := foundBelow_ofExpr scrutinee
    refine (hscrutinee.of_child ?_).append (foundBelow_ofArms arms ?_)
    · simp
    · intro a ha
      simp [ha]
  | .loop body _ _ => (foundBelow_ofBlock body).of_child (by simp)
  | .whileLoop cond body _ _ => by
    have hcond := foundBelow_ofExpr cond
    have hbody := foundBelow_ofBlock body
    refine (hcond.of_child ?_).append (hbody.of_child ?_)
    all_goals simp
  | .forLoop _ iter body _ _ => by
    have hiter := foundBelow_ofExpr iter
    have hbody := foundBelow_ofBlock body
    refine (hiter.of_child ?_).append (hbody.of_child ?_)
    all_goals simp
  | .letCond _ e _ => (foundBelow_ofExpr e).of_child (by simp)
  | .methodCall receiver method turbofish args s => by
    have hreceiver : FoundBelow m (.expr (.methodCall receiver method turbofish args s))
        (if isMethodCall receiver then [] else ofExpr m receiver) := by
      split
      · exact .nil
      · exact (foundBelow_ofExpr receiver).of_child (by simp)
    refine ((foundBelow_textOperations _).append hreceiver).append (foundBelow_ofExprs args ?_)
    intro e he
    simp [he]
  | .call func args _ => by
    have hfunc := foundBelow_ofExpr func
    refine ((foundBelow_textOperations _).append (hfunc.of_child ?_)).append
      (foundBelow_ofExprs args ?_)
    · simp
    · intro e he
      simp [he]
  | .binary _ left right _ => by
    have hleft := foundBelow_ofExpr left
    have hright := foundBelow_ofExpr right
    refine (((foundBelow_textOperations _).append (hleft.of_child ?_)).append
      (hright.of_child ?_)).append (foundBelow_structural _ _ _ (by decide))
    all_goals simp
  | .assign left right _ => by
    have hleft := foundBelow_ofExpr left
    have hright := foundBelow_ofExpr right
    refine (((foundBelow_textOperations _).append (hleft.of_child ?_)).append
      (hright.of_child ?_)).append (foundBelow_structural _ _ _ (by decide))
    all_goals simp
  | .index base index _ => by
    have hbase := foundBelow_ofExpr base
    have hindex := foundBelow_ofExpr index
    refine (((foundBelow_textOperations _).append (hbase.of_child ?_)).append
      (hindex.of_child ?_)).append (foundBelow_structural _ _ _ (by decide))
    all_goals simp
  | .field base _ _ => by
    have hbase := foundBelow_ofExpr base
    refine ((foundBelow_textOperations _).append (hbase.of_child ?_)).append
      (foundBelow_structural _ _ _ (by decide))
    simp
  | .lit .. => foundBelow_textOperations _
  | .path .. => foundBelow_textOperations _
  | .unary .. => foundBelow_textOperations _
  | .cast .. => foundBelow_textOperations _
  | .attempt .. => foundBelow_textOperations _
  | .await .. => foundBelow_textOperations _
  | .paren .. => foundBelow_textOperations _
  | .tuple .. => foundBelow_textOperations _
  | .array .. => foundBelow_textOperations _
  | .arrayRepeat .. => foundBelow_textOperations _
  | .structLit .. => foundBelow_textOperations _
  | .invoke .. => foundBelow_textOperations _
  | .range .. => foundBelow_textOperations _
  | .closure .. => foundBelow_textOperations _
  | .ret .. => foundBelow_textOperations _
  | .brk .. => foundBelow_textOperations _
  | .cont .. => foundBelow_textOperations _

theorem foundBelow_ofExprs : (es : List Expr) → {n : Node} → (∀ e ∈ es, .expr e ∈ n.children) →
    FoundBelow m n (ofExprs m es)
  | [], _, _ => .nil
  | e :: es, _, h => by
    have he := foundBelow_ofExpr e
    have hes := foundBelow_ofExprs es fun e' he' => h e' (List.mem_cons_of_mem _ he')
    exact (he.of_child (h e List.mem_cons_self)).append hes

theorem foundBelow_ofExpr? : (e : Option Expr) → {n : Node} → (∀ e' ∈ e, .expr e' ∈ n.children) →
    FoundBelow m n (ofExpr? m e)
  | none, _, _ => .nil
  | some e, _, h => (foundBelow_ofExpr e).of_child (h e rfl)

theorem foundBelow_ofArms : (as : List MatchArm) → {n : Node} → (∀ a ∈ as, .arm a ∈ n.children) →
    FoundBelow m n (ofArms m as)
  | [], _, _ => .nil
  | ⟨pattern, guard, body, s⟩ :: as, _, h => by
    have hbody := foundBelow_ofExpr body
    have harm : FoundBelow m (.arm ⟨pattern, guard, body, s⟩) (ofExpr? m guard ++ ofExpr m body) := by
      refine (foundBelow_ofExpr? guard ?_).append (hbody.of_child ?_)
      · intro e he
        simp [Option.mem_def.1 he]
      · simp
    have has := foundBelow_ofArms as fun a ha => h a (List.mem_cons_of_mem _ ha)
    exact (harm.of_child (h _ List.mem_cons_self)).append has

theorem foundBelow_ofStmt : (s : Stmt) → FoundBelow m (.stmt s) (ofStmt m s)
  | .letBind _ _ init orElse _ _ => by
    refine (foundBelow_ofExpr? init ?_).append (foundBelow_ofBlock? orElse ?_)
    · intro e he
      simp [Option.mem_def.1 he]
    · intro b hb
      simp [Option.mem_def.1 hb]
  | .expr e _ attrs _ => by
    have he := foundBelow_ofExpr e
    have hchild : Node.expr e ∈ Node.attributes attrs ++ [.expr e] := by simp
    cases e with
    | invoke path delimiter tokens s => exact (foundBelow_macroOperations _ path).of_child hchild
    | _ => exact he.of_child hchild
  | .item .. => .nil
  | .empty _ => .nil

theorem foundBelow_ofStmts : (ss : List Stmt) → {n : Node} → (∀ s ∈ ss, .stmt s ∈ n.children) →
    FoundBelow m n (ofStmts m ss)
  | [], _, _ => .nil
  | s :: ss, _, h => by
    have hs := foundBelow_ofStmt s
    have hss := foundBelow_ofStmts ss fun s' hs' => h s' (List.mem_cons_of_mem _ hs')
    exact (hs.of_child (h s List.mem_cons_self)).append hss

theorem foundBelow_ofBlock : (b : Block) → FoundBelow m (.block b) (ofBlock m b)
  | ⟨stmts, tail, _⟩ => by
    refine (foundBelow_ofStmts stmts ?_).append (foundBelow_ofExpr? tail ?_)
    · intro s hs
      simp [hs]
    · intro e he
      simp [Option.mem_def.1 he]

theorem foundBelow_ofBlock? : (b : Option Block) → {n : Node} → (∀ b' ∈ b, .block b' ∈ n.children) →
    FoundBelow m n (ofBlock? m b)
  | none, _, _ => .nil
  | some b, _, h => (foundBelow_ofBlock b).of_child (h b rfl)

end

end InkGauge.Cost
