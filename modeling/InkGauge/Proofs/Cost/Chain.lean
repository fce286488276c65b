import InkGauge.Cost.Classify
import InkGauge.Proofs.Cost.Evidence

/-!
The receiver of a method call is not followed if it is a method call too, and nothing is looked for
in its arguments, in the hope that the text of the whole chain shows it all. The text does show all
that patterns tell of, because the text of every expression that would be searched stands in it. It
does not show a bare field that is read, nor what is known by structure, nor a guard.
-/

namespace InkGauge.Cost

open Contract Text

/-- The operations that no pattern tells of in a longer text. -/
def untold : List (String × Category) :=
  [("storage_read (direct)", .storageRead), ("storage_compound_update", .storageWrite),
    ("storage_assign", .storageWrite), ("storage_index_access", .storageRead),
    ("storage_field_access", .storageRead), ("require_check", .controlFlow)]

/-- A piece of the text tells of each operation, unless no pattern does. -/
def ToldIn (text : String) (ops : List Operation) : Prop :=
  ∀ op ∈ ops, (op.operation, op.category) ∈ untold ∨ ∃ code, Within code text ∧
    ∃ tag ∈ tagsOf code, tag.operation = op.operation ∧ tag.category = op.category

section

variable {m : Model} {text text' : String} {ops ops' : List Operation}

theorem ToldIn.nil : ToldIn text [] := by
  intro op hop
  cases hop

theorem ToldIn.append (h : ToldIn text ops) (h' : ToldIn text ops') :
    ToldIn text (ops ++ ops') := by
  intro op hop
  rcases List.mem_append.1 hop with hop | hop
  · exact h op hop
  · exact h' op hop

theorem ToldIn.within (h : ToldIn text ops) (hin : Within text text') : ToldIn text' ops := by
  intro op hop
  rcases h op hop with huntold | ⟨code, hcode, htag⟩
  · exact .inl huntold
  · exact .inr ⟨code, hcode.trans hin, htag⟩

theorem toldIn_textOperations (e : Expr) : ToldIn e.render (textOperations m e) := by
  intro op hop
  obtain ⟨tag, htag, rfl⟩ := List.mem_map.1 hop
  exact .inr ⟨e.render, .refl _, tag, htag, rfl, rfl⟩

theorem toldIn_structural (e : Expr) (shown : Bool) {operation : String} {category : Category}
    (h : (operation, category) ∈ untold) :
    ToldIn text (structural m e shown operation category) := by
  intro op hop
  rw [structural] at hop
  split at hop
  · rw [List.mem_singleton.1 hop]
    exact .inl h
  · cases hop

theorem toldIn_macroOperations (e : Expr) (path : String) :
    ToldIn text (macroOperations m e path) := by
  intro op hop
  rw [macroOperations] at hop
  split at hop
  · rw [List.mem_singleton.1 hop]
    have huntold : ("require_check", Category.controlFlow) ∈ untold := by decide
    exact .inl huntold
  · cases hop

end

/-! ### The text of a part stands in the text of the whole -/

theorem within_commas {part : String} {parts : List String} (h : part ∈ parts) :
    Within part (commas parts) := .intercalate h _

theorem within_inBraces {part : String} {parts : List String} (h : part ∈ parts)
    (separator : String) : Within part (inBraces separator parts) := by
  cases parts with
  | nil => cases h
  | cons p ps => exact ((Within.intercalate h separator).right _).left _

variable (m : Model)

-- A list or an option has no text of its own: the texts of its elements stand in the text of what
-- it belongs to.
mutual

theorem toldIn_ofExpr : (e : Expr) → ToldIn e.render (ofExpr m e)
  | .block body kind label _ =>
    (toldIn_ofBlock body).within ((Within.refl _).right _)
  | .ifElse cond thenBlock orElse _ => by
    have hcond := toldIn_ofExpr cond
    have hthen := toldIn_ofBlock thenBlock
    refine ((hcond.within ?_).append (hthen.within ?_)).append (toldIn_ofExpr? orElse ?_)
    · exact ((((Within.refl _).right _).left _).left _).left _
    · exact ((Within.refl _).right _).left _
    · rintro e rfl
      exact ((Within.refl _).right _).right _
  | .matchOn scrutinee arms _ => by
    have hscrutinee := toldIn_ofExpr scrutinee
    refine (hscrutinee.within ?_).append (toldIn_ofArms arms ?_)
    · exact (((Within.refl _).right _).left _).left _
    · intro part hpart
      exact (within_inBraces hpart _).right _
  | .loop body _ _ => (toldIn_ofBlock body).within ((Within.refl _).right _)
  | .whileLoop cond body _ _ => by
    have hcond := toldIn_ofExpr cond
    have hbody := toldIn_ofBlock body
    refine (hcond.within ?_).append (hbody.within ?_)
    · exact (((Within.refl _).right _).left _).left _
    · exact (Within.refl _).right _
  | .forLoop _ iter body _ _ => by
    have hiter := toldIn_ofExpr iter
    have hbody := toldIn_ofBlock body
    refine (hiter.within ?_).append (hbody.within ?_)
    · exact (((Within.refl _).right _).left _).left _
    · exact (Within.refl _).right _
  | .letCond _ e _ => (toldIn_ofExpr e).within ((Within.refl _).right _)
  | .methodCall receiver method turbofish args s => by
    have hreceiver : ToldIn (Expr.methodCall receiver method turbofish args s).render
        (if isMethodCall receiver then [] else ofExpr m receiver) := by
      split
      · exact .nil
      · refine (toldIn_ofExpr receiver).within ?_
        exact ((((((Within.refl _).left _).left _).left _).left _).left _).left _
    refine ((toldIn_textOperations _).append hreceiver).append (toldIn_ofExprs args ?_)
    intro part hpart
    exact ((within_commas hpart).right _).left _
  | .call func args s => by
    have hfunc := toldIn_ofExpr func
    refine ((toldIn_textOperations _).append (hfunc.within ?_)).append (toldIn_ofExprs args ?_)
    · exact (((Within.refl _).left _).left _).left _
    · intro part hpart
      exact ((within_commas hpart).right _).left _
  | .binary _ left right _ => by
    have hleft := toldIn_ofExpr left
    have hright := toldIn_ofExpr right
    refine (((toldIn_textOperations _).append (hleft.within ?_)).append (hright.within ?_)).append
      (toldIn_structural _ _ (by decide))
    · exact ((((Within.refl _).left _).left _).left _).left _
    · exact (Within.refl _).right _
  | .assign left right _ => by
    have hleft := toldIn_ofExpr left
    have hright := toldIn_ofExpr right
    refine (((toldIn_textOperations _).append (hleft.within ?_)).append (hright.within ?_)).append
      (toldIn_structural _ _ (by decide))
    · exact ((Within.refl _).left _).left _
    · exact (Within.refl _).right _
  | .index base index _ => by
    have hbase := toldIn_ofExpr base
    have hindex := toldIn_ofExpr index
    refine (((toldIn_textOperations _).append (hbase.within ?_)).append (hindex.within ?_)).append
      (toldIn_structural _ _ (by decide))
    · exact (((Within.refl _).left _).left _).left _
    · exact ((Within.refl _).right _).left _
  | .field base _ _ => by
    have hbase := toldIn_ofExpr base
    refine ((toldIn_textOperations _).append (hbase.within ?_)).append
      (toldIn_structural _ _ (by decide))
    exact ((Within.refl _).left _).left _
  | .lit .. => toldIn_textOperations _
  | .path .. => toldIn_textOperations _
  | .unary .. => toldIn_textOperations _
  | .cast .. => toldIn_textOperations _
  | .attempt .. => toldIn_textOperations _
  | .await .. => toldIn_textOperations _
  | .paren .. => toldIn_textOperations _
  | .tuple .. => toldIn_textOperations _
  | .array .. => toldIn_textOperations _
  | .arrayRepeat .. => toldIn_textOperations _
  | .structLit .. => toldIn_textOperations _
  | .invoke .. => toldIn_textOperations _
  | .range .. => toldIn_textOperations _
  | .closure .. => toldIn_textOperations _
  | .ret .. => toldIn_textOperations _
  | .brk .. => toldIn_textOperations _
  | .cont .. => toldIn_textOperations _

theorem toldIn_ofExprs : (es : List Expr) → {text : String} →
    (∀ part ∈ renderExprs es, Within part text) → ToldIn text (ofExprs m es)
  | [], _, _ => .nil
  | e :: es, _, h => by
    have he := toldIn_ofExpr e
    have hes := toldIn_ofExprs es fun part hpart => h part (List.mem_cons_of_mem _ hpart)
    exact (he.within (h _ List.mem_cons_self)).append hes

theorem toldIn_ofExpr? : (e : Option Expr) → {text : String} →
    (∀ e', e = some e' → Within e'.render text) → ToldIn text (ofExpr? m e)
  | none, _, _ => .nil
  | some e, _, h => (toldIn_ofExpr e).within (h e rfl)

theorem toldIn_ofArms : (as : List MatchArm) → {text : String} →
    (∀ part ∈ renderArms as, Within part text) → ToldIn text (ofArms m as)
  | [], _, _ => .nil
  | ⟨pattern, guard, body, s⟩ :: as, _, h => by
    have hbody := toldIn_ofExpr body
    have harm : ToldIn (MatchArm.render ⟨pattern, guard, body, s⟩)
        (ofExpr? m guard ++ ofExpr m body) := by
      refine (toldIn_ofExpr? guard ?_).append (hbody.within ?_)
      · rintro e rfl
        exact ((((Within.refl _).right _).right _).left _).left _
      · exact (Within.refl _).right _
    have has := toldIn_ofArms as fun part hpart => h part (List.mem_cons_of_mem _ hpart)
    exact (harm.within (h _ List.mem_cons_self)).append has

theorem toldIn_ofStmt : (s : Stmt) → ToldIn s.render (ofStmt m s)
  | .letBind _ _ init orElse _ _ => by
    refine (toldIn_ofExpr? init ?_).append (toldIn_ofBlock? orElse ?_)
    · rintro e rfl
      exact ((((Within.refl _).right _).right _).left _).left _
    · rintro b rfl
      exact (((Within.refl _).right _).right _).left _
  | .expr e _ _ _ => by
    have he := toldIn_ofExpr e
    cases e with
    | invoke path delimiter tokens s => exact toldIn_macroOperations _ path
    | _ => exact he.within ((Within.refl _).left _)
  | .item .. => .nil
  | .empty _ => .nil

theorem toldIn_ofStmts : (ss : List Stmt) → {text : String} →
    (∀ part ∈ renderStmts ss, Within part text) → ToldIn text (ofStmts m ss)
  | [], _, _ => .nil
  | s :: ss, _, h => by
    have hs := toldIn_ofStmt s
    have hss := toldIn_ofStmts ss fun part hpart => h part (List.mem_cons_of_mem _ hpart)
    exact (hs.within (h _ List.mem_cons_self)).append hss

theorem toldIn_ofBlock : (b : Block) → ToldIn b.render (ofBlock m b)
  | ⟨stmts, tail, _⟩ => by
    refine (toldIn_ofStmts stmts ?_).append (toldIn_ofExpr? tail ?_)
    · intro part hpart
      exact within_inBraces (List.mem_append_left _ hpart) _
    · rintro e rfl
      exact within_inBraces (List.mem_append_right _ (List.mem_singleton.2 rfl)) _

theorem toldIn_ofBlock? : (b : Option Block) → {text : String} →
    (∀ b', b = some b' → Within b'.render text) → ToldIn text (ofBlock? m b)
  | none, _, _ => .nil
  | some b, _, h => (toldIn_ofBlock b).within (h b rfl)

end

/-- An operation that a piece of a text tells of has one of its category in the text. -/
theorem ToldIn.exists_textOperation {ops : List Operation} {e : Expr} (h : ToldIn e.render ops) :
    ∀ op ∈ ops, (op.operation, op.category) ∈ untold ∨
      ∃ op' ∈ textOperations m e, op'.category = op.category := by
  intro op hop
  rcases h op hop with huntold | ⟨code, hin, tag, htag, hoperation, hcategory⟩
  · exact .inl huntold
  · rw [← hoperation, ← hcategory]
    rcases exists_tag_of_within hin htag with rfl | ⟨tag', htag', hcategory'⟩
    · exact .inl (by decide)
    · exact .inr ⟨operationAt m e.span e.render tag', List.mem_map_of_mem htag', hcategory'⟩

/-- Of the operations of a receiver that is a method call, and so is not followed, the chain has one
of the same category, unless no pattern tells of it. -/
theorem chain_told (receiver : Expr) (method turbofish : String) (args : List Expr) (s : Span)
    (method' turbofish' : String) (args' : List Expr) (s' : Span) :
    ∀ op ∈ ofExpr m (.methodCall receiver method turbofish args s),
      (op.operation, op.category) ∈ untold ∨
        ∃ op' ∈ ofExpr m (.methodCall (.methodCall receiver method turbofish args s) method'
            turbofish' args' s'),
          op'.category = op.category := by
  have hinner := toldIn_ofExpr m (.methodCall receiver method turbofish args s)
  have houter : ToldIn (Expr.methodCall (.methodCall receiver method turbofish args s) method'
      turbofish' args' s').render (ofExpr m (.methodCall receiver method turbofish args s)) := by
    refine hinner.within ?_
    exact ((((((Within.refl _).left _).left _).left _).left _).left _).left _
  intro op hop
  rcases houter.exists_textOperation m op hop with huntold | ⟨op', hop', hcategory⟩
  · exact .inl huntold
  · exact .inr ⟨op', List.mem_append_left _ (List.mem_append_left _ hop'), hcategory⟩

/-- The call `v.f(self.x, self[i], map *= i, map = i, { require!(i); }, msg::sender())`. -/
def sampleCall : Expr :=
  let here : Span := ⟨0, 0, 0, 0⟩
  let self : Expr := .path ["self"] "self" here
  let map : Expr := .path ["map"] "map" here
  let i : Expr := .path ["i"] "i" here
  let guard : Stmt := .expr (.invoke "require" .round "i" here) true [] here
  .methodCall (.path ["v"] "v" here) "f" ""
    [.field self "x" here, .index self i here, .binary (.compound .mul) map i here,
      .assign map i here, .block ⟨[guard], none, here⟩ .plain "" here,
      .call (.path ["msg", "sender"] "msg::sender" here) [] here] here

/-- The chain `v.f(..).g()`. -/
def sampleChain : Expr := .methodCall sampleCall "g" "" [] ⟨0, 0, 0, 0⟩

/-- All that no pattern tells of is lost in the chain with its category, and only the sender is
left. -/
theorem chain_told_sampleCall :
    (ofExpr .default sampleCall).map (fun op => (op.operation, op.category)) =
        [("msg::sender()", .evmContext), ("storage_read (direct)", .storageRead),
          ("storage_field_access", .storageRead), ("storage_index_access", .storageRead),
          ("storage_compound_update", .storageWrite), ("storage_assign", .storageWrite),
          ("require_check", .controlFlow), ("msg::sender()", .evmContext)] ∧
      (ofExpr .default sampleChain).map Operation.category = [.evmContext] ∧
      ∀ op ∈ ofExpr .default sampleCall, (op.operation, op.category) ∈ untold ∨
        ∃ op' ∈ ofExpr .default sampleChain, op'.category = op.category :=
  ⟨by decide +kernel, by decide +kernel, chain_told .default _ "f" "" _ _ "g" "" [] _⟩

end InkGauge.Cost
