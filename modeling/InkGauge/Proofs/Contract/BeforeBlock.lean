import InkGauge.Proofs.Contract.SpanInvariant
import InkGauge.Proofs.Peg.Made

/-!
The condition of an `if` or a `while`, what is matched on and what is looped over stand before an
opening brace, and the grammar reads them with rules that know no struct literal. Brackets of any
kind lead back to the plain rules, and so do the value of a `return` or a `break` and the body of a
closure, which have no brackets around them.
-/

namespace InkGauge.Contract

def Expr.isStructLit : Expr → Bool
  | .structLit .. => true
  | _ => false

/-- The part that stands before a block of the expression. -/
def Expr.heads : Expr → List Expr
  | .ifElse cond _ _ _ | .whileLoop cond _ _ _ => [cond]
  | .matchOn scrutinee _ _ => [scrutinee]
  | .forLoop _ iter _ _ _ => [iter]
  | _ => []

/-- The parts that no brackets of the expression enclose. -/
def Expr.openParts : Expr → List Expr
  | .methodCall e _ _ _ _ | .call e _ _ | .field e _ _ | .index e _ _ | .unary _ e _
  | .cast e _ _ | .attempt e _ | .await e _ | .letCond _ e _ | .closure _ _ _ e _
  | .matchOn e _ _ | .whileLoop e _ _ _ | .forLoop _ e _ _ _ => [e]
  | .binary _ left right _ | .assign left right _ => [left, right]
  | .range start stop _ _ => start.toList ++ stop.toList
  | .ifElse cond _ orElse _ => cond :: orElse.toList
  | .ret value _ | .brk _ value _ => value.toList
  | _ => []

/-- The parts that stand in round, square or curly brackets of the expression. The braces of
a struct literal are not counted. -/
def Expr.enclosed : Expr → List Node
  | .methodCall _ _ _ args _ | .call _ args _ => Node.exprs args
  | .index _ subscript _ => [.expr subscript]
  | .paren e _ => [.expr e]
  | .tuple elems _ | .array elems _ => Node.exprs elems
  | .arrayRepeat elem length _ => Node.exprs [elem, length]
  | .block body _ _ _ | .loop body _ _ | .ifElse _ body _ _ | .whileLoop _ body _ _
  | .forLoop _ _ body _ _ => [.block body]
  | .matchOn _ arms _ => arms.map .arm
  | _ => []

/-- A `return`, a `break` or a closure: its part is read by the plain rules wherever it stands. -/
def Expr.lifts : Expr → Bool
  | .ret .. | .brk .. | .closure .. => true
  | _ => false

/-- The second expression is the first, or is reached from it without entering brackets. -/
def Expr.Exposes : Expr → Expr → Prop := Relation.ReflTransGen fun e c => c ∈ e.openParts

/-- No struct literal stands in the expression outside of brackets, except under a `return`,
a `break` or a closure. -/
inductive Expr.Unbraced : Expr → Prop where
  | lift {e : Expr} (h : e.lifts = true) : e.Unbraced
  | parts {e : Expr} (hs : e.isStructLit = false) (h : ∀ c ∈ e.openParts, c.Unbraced) : e.Unbraced

theorem Expr.mem_openParts_of_mem_heads {e c : Expr} (h : c ∈ e.heads) : c ∈ e.openParts := by
  cases e <;> simp_all [heads, openParts]

/-- What stands directly below an expression is open or enclosed, if it is no type or pattern. -/
theorem Expr.mem_children {e : Expr} {m : Node} (hs : e.isStructLit = false)
    (h : m ∈ e.children) :
    (∃ c ∈ e.openParts, m = .expr c) ∨ m ∈ e.enclosed ∨ ∃ f, m = .fragment f := by
  cases e <;> simp_all [children, openParts, enclosed, isStructLit, Node.exprs, Node.expr?,
    Node.fragment?] <;> grind

theorem Expr.not_lifts_of_isStructLit {e : Expr} (h : e.isStructLit = true) : e.lifts = false := by
  cases e <;> simp_all [isStructLit, lifts]

/-- A struct literal that is open stands under something that leads back to the plain rules. -/
theorem Expr.Unbraced.lifted {e s : Expr} (h : e.Unbraced) (hs : e.Exposes s)
    (hlit : s.isStructLit = true) : ∃ m, e.Exposes m ∧ m.lifts = true ∧ m.Exposes s := by
  induction hs using Relation.ReflTransGen.head_induction_on with
  | refl =>
    cases h with
    | lift h => rw [not_lifts_of_isStructLit hlit] at h; cases h
    | parts h _ => rw [hlit] at h; cases h
  | head hc hs ih =>
    cases h with
    | lift h => exact ⟨_, .refl, h, .head hc hs⟩
    | parts _ h =>
      obtain ⟨m, hm, hl, hms⟩ := ih (h _ hc)
      exact ⟨m, .head hc hm, hl, hms⟩

theorem Node.Holds.cases_child {n k : Node} (h : n.Holds k) :
    n = k ∨ ∃ m ∈ n.children, m.Holds k := by
  rcases Relation.ReflTransGen.cases_head h with rfl | ⟨m, hm, hk⟩
  · exact .inl rfl
  · exact .inr ⟨m, hm, hk⟩

theorem Node.not_fragment_holds {f : Fragment} {e : Expr} :
    ¬ (Node.fragment f).Holds (.expr e) := by
  intro h
  rcases h.cases_child with h | ⟨m, hm, -⟩
  · cases h
  · cases hm

/-- The way down to a struct literal enters brackets, or passes something that leads back to the
plain rules. -/
theorem Expr.Unbraced.enclosed {e s : Expr} (h : e.Unbraced) (hs : (Node.expr e).Holds (.expr s))
    (hlit : s.isStructLit = true) :
    ∃ x, e.Exposes x ∧ ((∃ m ∈ x.enclosed, m.Holds (.expr s)) ∨
      x.lifts = true ∧ (Node.expr x).Holds (.expr s)) := by
  induction h with
  | @lift e h => exact ⟨e, .refl, .inr ⟨h, hs⟩⟩
  | @parts e he _ ih =>
    rcases hs.cases_child with hes | ⟨m, hm, hms⟩
    · cases hes
      rw [he] at hlit
      cases hlit
    rcases mem_children he hm with ⟨c, hc, rfl⟩ | henc | ⟨f, rfl⟩
    · obtain ⟨x, hx, hxs⟩ := ih c hc hms
      exact ⟨x, .head hc hx, hxs⟩
    · exact ⟨e, .refl, .inl ⟨m, henc, hms⟩⟩
    · exact absurd hms Node.not_fragment_holds

def Node.heads : Node → List Expr
  | .expr e => e.heads
  | _ => []

/-- Everywhere below the node, what stands before a block is unbraced. -/
def Node.Guarded (n : Node) : Prop := ∀ m, n.Holds m → ∀ c ∈ m.heads, c.Unbraced

theorem Node.Guarded.of_heads {n : Node} (hheads : ∀ c ∈ n.heads, c.Unbraced)
    (h : ∀ m ∈ n.children, m.Guarded) : n.Guarded := by
  intro k hk
  rcases hk.cases_child with rfl | ⟨m, hm, hmk⟩
  · exact hheads
  · exact h m hm k hmk

theorem Node.Guarded.of_children {n : Node} (hheads : n.heads = [])
    (h : ∀ m ∈ n.children, m.Guarded) : n.Guarded :=
  .of_heads (by simp [hheads]) h

theorem Node.guarded_fragment (f : Fragment) : (Node.fragment f).Guarded :=
  .of_children rfl (List.forall_mem_nil _)

theorem Node.guarded_attribute (a : Attribute) : (Node.attribute a).Guarded :=
  .of_children rfl (List.forall_mem_nil _)

theorem Node.guarded_attributes (as : List Attribute) : ∀ n ∈ attributes as, n.Guarded :=
  List.forall_mem_map.2 fun a _ => guarded_attribute a

theorem Node.guarded_toList {α : Type} {f : α → Node} {o : Option α}
    (h : ∀ a ∈ o, (f a).Guarded) : ∀ n ∈ o.toList.map f, n.Guarded :=
  List.forall_mem_map.2 fun a ha => h a (Option.mem_toList.1 ha)

theorem Node.guarded_fragment? (f : Option Fragment) : ∀ n ∈ fragment? f, n.Guarded :=
  guarded_toList fun f _ => guarded_fragment f

theorem SourceFile.guarded_of_contains {f : SourceFile} {n : Node}
    (h : ∀ i ∈ f.items, (Node.item i).Guarded) (hn : f.Contains n) : n.Guarded := by
  induction hn with
  | attr => exact Node.guarded_attribute _
  | item hi => exact h _ hi
  | child _ hm ih => exact fun e he => ih e (.of_child hm he)

namespace Grammar

/-- The expression may stand there, and what stands before a block in it is unbraced. -/
structure Fits (p : Place) (e : Expr) : Prop where
  guarded : (Node.expr e).Guarded
  unbraced : p = .beforeBlock → e.Unbraced

theorem Fits.mono {p : Place} {e : Expr} (h : Fits .beforeBlock e) : Fits p e :=
  ⟨h.guarded, fun _ => h.unbraced rfl⟩

theorem fits_anywhere {e : Expr} : Fits .anywhere e ↔ (Node.expr e).Guarded :=
  ⟨Fits.guarded, fun h => ⟨h, nofun⟩⟩

theorem Fits.of_parts {p : Place} {e : Expr} (hs : e.isStructLit = false)
    (hheads : ∀ c ∈ e.heads, c.Unbraced) (hopen : ∀ c ∈ e.openParts, Fits p c)
    (henc : ∀ m ∈ e.enclosed, m.Guarded) : Fits p e := by
  refine ⟨.of_heads hheads ?_, fun hp => .parts hs fun c hc => (hopen c hc).unbraced hp⟩
  intro m hm
  rcases Expr.mem_children hs hm with ⟨c, hc, rfl⟩ | henc' | ⟨f, rfl⟩
  · exact (hopen c hc).guarded
  · exact henc m henc'
  · exact Node.guarded_fragment f

/-- An operator hands the restriction on to its operands. -/
theorem Fits.of_operands {p : Place} {e : Expr} (hs : e.isStructLit = false) (hheads : e.heads = [])
    (hopen : ∀ c ∈ e.openParts, Fits p c) (henc : ∀ m ∈ e.enclosed, m.Guarded) : Fits p e :=
  .of_parts hs (by simp [hheads]) hopen henc

/-- Where everything is in brackets the restriction does not matter. -/
theorem Fits.of_enclosed {p : Place} {e : Expr} (hs : e.isStructLit = false)
    (hopen : e.openParts = []) (henc : ∀ m ∈ e.enclosed, m.Guarded) : Fits p e := by
  refine .of_parts hs (fun c hc => ?_) (by simp [hopen]) henc
  have hpart := Expr.mem_openParts_of_mem_heads hc
  rw [hopen] at hpart
  cases hpart

theorem Fits.of_leaf {p : Place} {e : Expr} (hs : e.isStructLit = false)
    (hopen : e.openParts = []) (henc : e.enclosed = []) : Fits p e :=
  .of_enclosed hs hopen (by simp [henc])

theorem Fits.of_lifts {p : Place} {e : Expr} (h : e.lifts = true)
    (hopen : ∀ c ∈ e.openParts, (Node.expr c).Guarded) : Fits p e := by
  have hparts : e.isStructLit = false ∧ e.heads = [] ∧ e.enclosed = [] := by
    cases e <;> simp_all [Expr.lifts, Expr.isStructLit, Expr.heads, Expr.enclosed]
  obtain ⟨hs, hheads, henc⟩ := hparts
  have hplain : Fits .anywhere e :=
    .of_operands hs hheads (fun c hc => fits_anywhere.2 (hopen c hc)) (by simp [henc])
  exact ⟨hplain.guarded, fun _ => .lift h⟩

/-- Where all parts may stand before a block, the heads among them may. -/
theorem Fits.of_heads {e : Expr} (hs : e.isStructLit = false)
    (hopen : ∀ c ∈ e.openParts, Fits .beforeBlock c) (henc : ∀ m ∈ e.enclosed, m.Guarded) :
    Fits .beforeBlock e :=
  .of_parts hs (fun c hc => (hopen c (Expr.mem_openParts_of_mem_heads hc)).unbraced rfl) hopen henc

theorem Fits.binary {p : Place} {left right : Expr} (op : BinaryOp) (span : Span)
    (hl : Fits p left) (hr : Fits p right) : Fits p (.binary op left right span) :=
  .of_operands rfl rfl (by simp [Expr.openParts, hl, hr]) (List.forall_mem_nil _)

theorem Fits.foldBinary {p : Place} {left : Expr} {rest : List (BinaryOp × Expr)}
    (hl : Fits p left) (hr : ∀ x ∈ rest, Fits p x.2) : Fits p (foldBinary left rest) := by
  induction rest generalizing left with
  | nil => exact hl
  | cons x rest ih =>
    obtain ⟨hx, hrest⟩ := List.forall_mem_cons.1 hr
    exact ih (hl.binary x.1 _ hx) hrest

theorem Fits.foldCasts {p : Place} {e : Expr} (h : Fits p e) (types : List Fragment) :
    Fits p (foldCasts e types) := by
  induction types generalizing e with
  | nil => exact h
  | cons type types ih =>
    exact ih (.of_operands rfl rfl (List.forall_mem_singleton.2 h) (List.forall_mem_nil _))

theorem Fits.assignment {p : Place} {left : Expr} {rest : Option (Option ArithOp × Expr)}
    (hl : Fits p left) (hr : ∀ x ∈ rest, Fits p x.2) : Fits p (assignment left rest) := by
  rcases rest with _ | ⟨_ | op, right⟩
  · exact hl
  · have hright : Fits p right := hr _ rfl
    change Fits p (.assign left right _)
    exact .of_operands rfl rfl (by simp [Expr.openParts, hl, hright]) (List.forall_mem_nil _)
  · exact hl.binary _ _ (hr _ rfl)

/-- The operands in the brackets of a postfix operator. -/
def PostfixOp.enclosed : PostfixOp → List Expr
  | .method _ _ args | .call args => args
  | .index i => [i]
  | .await | .field _ | .attempt => []

theorem Fits.foldPostfix {p : Place} {e : Expr} {ops : List Postfix} (first : Span) (h : Fits p e)
    (hops : ∀ x ∈ ops, ∀ a ∈ x.op.enclosed, (Node.expr a).Guarded) :
    Fits p (foldPostfix first e ops) := by
  induction ops generalizing e with
  | nil => exact h
  | cons x ops ih =>
    obtain ⟨hx, hrest⟩ := List.forall_mem_cons.1 hops
    obtain ⟨op, stop⟩ := x
    refine ih ?_ hrest
    cases op with
    | method | call | index =>
      exact .of_operands rfl rfl (List.forall_mem_singleton.2 h)
        (by simpa [Expr.enclosed, Node.exprs, PostfixOp.enclosed] using hx)
    | await | field | attempt =>
      exact .of_operands rfl rfl (List.forall_mem_singleton.2 h) (List.forall_mem_nil _)

abbrev LexRule.Fit : (r : LexRule) → r.Value → Prop
  | .literal, e => Fits .beforeBlock e
  | _, _ => True

/-- Rules that begin with a word of their own or end with brackets give expressions that may stand
anywhere. -/
abbrev ExprRule.Fit : (r : ExprRule) → r.Value → Prop
  | .expr p, e | .rangeExpr p, e | .rangeFull p, e | .orExpr p, e | .andExpr p, e | .cmpExpr p, e
  | .bitorExpr p, e | .bitxorExpr p, e | .bitandExpr p, e | .shiftExpr p, e | .addExpr p, e
  | .mulExpr p, e | .castExpr p, e | .unaryExpr p, e | .postfixExpr p, e | .primary p, e => Fits p e
  | .closure, e | .blockLike, e | .ifExpr, e | .elseBranch, e | .cond, e | .letChain, e
  | .letCond, e | .matchExpr, e | .loopExpr, e | .whileExpr, e | .forExpr, e | .uncheckedBlock, e
  | .asyncBlock, e | .blockExpr, e | .macroCall, e | .unitExpr, e | .parenExpr, e | .tupleExpr, e
  | .arrayExpr, e | .returnExpr, e | .breakExpr, e | .continueExpr, e => Fits .beforeBlock e
  | .structLit, e | .structBase, e | .matchGuard, e | .armBody, e => (Node.expr e).Guarded
  | .postfixOp, x | .methodCallOp, x | .awaitOp, x | .fieldOp, x | .callOp, x | .indexOp, x
  | .tryOp, x => ∀ a ∈ x.op.enclosed, (Node.expr a).Guarded
  | .exprList, es => ∀ e ∈ es, (Node.expr e).Guarded
  | .closureBody, x => (Node.expr x.2).Guarded
  | .matchArm, a => (Node.arm a).Guarded
  | .structLitBody, x =>
    (∀ f ∈ x.1, (Node.field f).Guarded) ∧ ∀ e ∈ x.2, (Node.expr e).Guarded
  | .structField, f => (Node.field f).Guarded
  | .arrayBody, .list elems => ∀ e ∈ elems, (Node.expr e).Guarded
  | .arrayBody, .copies elem length => (Node.expr elem).Guarded ∧ (Node.expr length).Guarded
  | .arrayRepeat, x => (Node.expr x.1).Guarded ∧ (Node.expr x.2).Guarded
  | _, _ => True

abbrev StmtRule.Fit : (r : StmtRule) → r.Value → Prop
  | .block, b | .letElse, b => (Node.block b).Guarded
  | .stmtSeq, x => (∀ s ∈ x.1, (Node.stmt s).Guarded) ∧ ∀ e ∈ x.2, (Node.expr e).Guarded
  | .stmtWs, s | .stmt, s | .emptyStmt, s | .letStmt, s | .blockStmt, s | .exprStmt, s =>
    (Node.stmt s).Guarded
  | .letInit, x => (Node.expr x.1).Guarded ∧ ∀ b ∈ x.2, (Node.block b).Guarded
  | .blockTail, e => (Node.expr e).Guarded

abbrev ItemRule.Fit : (r : ItemRule) → r.Value → Prop
  | .file, x => ∀ i ∈ x.2, (Node.item i).Guarded
  | .item, i | .stmtItem, i => (Node.item i).Guarded
  | .itemKind, k | .stmtItemKind, k | .fnItem, k | .implItem, k | .structItem, k | .enumItem, k
  | .traitItem, k | .constItem, k | .staticItem, k | .useItem, k | .modItem, k | .typeAlias, k
  | .externCrate, k | .externBlock, k | .macroItem, k => ∀ m ∈ k.children, m.Guarded
  | .fnBody, b => ∀ b' ∈ b, (Node.block b').Guarded
  | _, _ => True

abbrev Rule.Fit : (r : Rule) → r.Value → Prop
  | .lex r => r.Fit
  | .type _ | .pattern _ => fun _ => True
  | .item r => r.Fit
  | .stmt r => r.Fit
  | .expr r => r.Fit

section

variable {α : Type} {I : (r : Rule) → r.Value → Prop} {p : P α} {as : List α}

theorem made_commaList (h : (commaList p).Made I as) : ∀ a ∈ as, p.Made I a := by
  obtain ⟨f, rest, hf, hrest, rfl⟩ := h.left.seq
  obtain ⟨a, ha, rfl⟩ := hf.map
  exact List.forall_mem_cons.2 ⟨ha, fun b hb => (hrest b hb).right⟩

theorem made_commaList0 (h : (commaList0 p).Made I as) : ∀ a ∈ as, p.Made I a := by
  obtain ⟨o, ho, rfl⟩ := h.map
  cases o with
  | none => simp
  | some as => exact made_commaList (ho as rfl)

end

theorem made_exprs {es : List Expr} (h : exprs.Made Rule.Fit es) :
    ∀ e ∈ es, (Node.expr e).Guarded := by
  obtain ⟨o, ho, rfl⟩ := h.map
  cases o with
  | none => simp
  | some es => exact ho es rfl

theorem made_leftLevel {p : Place} {operand : P Expr} {op : P BinaryOp} {e : Expr}
    (h : (leftLevel operand op).Made Rule.Fit e)
    (hoperand : ∀ e, operand.Made Rule.Fit e → Fits p e) : Fits p e := by
  obtain ⟨f, rest, hf, hrest, rfl⟩ := h.seq
  obtain ⟨left, hleft, rfl⟩ := hf.map
  exact (hoperand left hleft).foldBinary fun x hx => hoperand x.2 (hrest x hx).2

/-- Of the operands only a struct literal may not stand before a block. -/
theorem made_primaries {structs : P Expr → P Expr} {p : Place} {e : Expr}
    (h : (primaries structs).Made Rule.Fit e)
    (hstructs : ∀ q, (structs q).Made Rule.Fit e → Fits p e ∨ q.Made Rule.Fit e) : Fits p e := by
  rcases h with h | h | h | h | h | h | h | h
  iterate 7 exact Fits.mono h
  rcases hstructs _ h with h | h | h | h | h | h
  · exact h
  · obtain ⟨path, -, rfl⟩ := h.map
    exact .of_leaf rfl rfl rfl
  iterate 4 exact Fits.mono h

theorem fit_exprBody (r : ExprRule) (a : r.Value) (h : (exprBody r).Made Rule.Fit a) :
    r.Fit a := by
  cases r with
  | expr p =>
    obtain ⟨f, rest, hf, hrest, rfl⟩ := h.seq
    obtain ⟨left, hleft, rfl⟩ := hf.map
    exact Fits.assignment hleft fun x hx => (hrest x hx).2
  | rangeExpr p => exact h.elim id id
  | rangeFull p =>
    obtain ⟨s, ⟨start, inclusive, stop⟩, ⟨hstart, -, hstop⟩, rfl⟩ := h
    refine .of_operands rfl rfl (List.forall_mem_append.2 ⟨?_, ?_⟩) (List.forall_mem_nil _)
    · exact fun c hc => hstart c (Option.mem_toList.1 hc)
    · exact fun c hc => hstop c (Option.mem_toList.1 hc)
  | orExpr p | andExpr p | bitorExpr p | bitxorExpr p | bitandExpr p | shiftExpr p | addExpr p
  | mulExpr p => exact made_leftLevel h fun _ h => h
  | cmpExpr p =>
    obtain ⟨f, rest, hf, hrest, rfl⟩ := h.seq
    obtain ⟨left, hleft, rfl⟩ := hf.map
    exact Fits.foldBinary hleft fun x hx => (hrest x (Option.mem_toList.1 hx)).2
  | castExpr p =>
    obtain ⟨f, types, hf, -, rfl⟩ := h.seq
    obtain ⟨e, he, rfl⟩ := hf.map
    exact Fits.foldCasts he types
  | unaryExpr p =>
    rcases h with ⟨s, ⟨op, operand⟩, ⟨-, hoperand⟩, rfl⟩ | h
    · exact .of_operands rfl rfl (List.forall_mem_singleton.2 hoperand) (List.forall_mem_nil _)
    · exact h
  | postfixExpr p =>
    obtain ⟨f, ops, hf, hops, rfl⟩ := h.seq
    obtain ⟨e, he, rfl⟩ := hf.map
    exact Fits.foldPostfix e.span he hops
  | primary p =>
    cases p with
    | anywhere =>
      refine made_primaries h fun q hq => ?_
      rcases hq with hlit | hq
      · exact .inl (fits_anywhere.2 hlit)
      · exact .inr hq
    | beforeBlock => exact made_primaries h fun q hq => .inr hq
  | postfixOp => rcases h with h | h | h | h | h | h <;> exact h
  | methodCallOp =>
    obtain ⟨s, op, hop, rfl⟩ := h
    obtain ⟨f, args, hf, hargs, rfl⟩ := hop.seq
    obtain ⟨g, turbofish, hg, -, rfl⟩ := hf.seq
    obtain ⟨name, -, rfl⟩ := hg.map
    exact made_exprs hargs.left.right
  | awaitOp | fieldOp | tryOp =>
    obtain ⟨s, op, hop, rfl⟩ := h
    obtain ⟨x, -, rfl⟩ := hop.map
    exact List.forall_mem_nil _
  | callOp =>
    obtain ⟨s, op, hop, rfl⟩ := h
    obtain ⟨args, hargs, rfl⟩ := hop.map
    exact made_exprs hargs.left.right
  | indexOp =>
    obtain ⟨s, op, hop, rfl⟩ := h
    obtain ⟨i, hi, rfl⟩ := hop.map
    exact List.forall_mem_singleton.2 (Fits.guarded hi.left.right)
  | exprList => exact fun e he => Fits.guarded (made_commaList h e he)
  | closure =>
    obtain ⟨s, ⟨moves, params, result, body⟩, hx, rfl⟩ := h
    exact .of_lifts rfl (List.forall_mem_singleton.2 hx.right.2.2)
  | closureBody =>
    rcases h with h | h
    · obtain ⟨f, b, hf, hb, rfl⟩ := h.seq
      obtain ⟨result, -, rfl⟩ := hf.map
      have hblock : Fits .anywhere (.block b .plain "" b.span) :=
        .of_enclosed rfl rfl (List.forall_mem_singleton.2 hb)
      exact hblock.guarded
    · obtain ⟨e, he, rfl⟩ := h.map
      exact Fits.guarded he
  | blockLike => rcases h with h | h | h | h | h | h | h | h <;> exact h
  | ifExpr =>
    obtain ⟨s, ⟨cond, thenBlock, orElse⟩, hx, rfl⟩ := h
    obtain ⟨hcond, hthen, horElse⟩ := hx.right
    refine .of_heads rfl (List.forall_mem_cons.2 ⟨hcond, ?_⟩) (List.forall_mem_singleton.2 hthen)
    exact fun c hc => horElse c (Option.mem_toList.1 hc)
  | elseBranch => exact h.right.elim id id
  | cond => exact h.elim id id
  | letChain =>
    obtain ⟨f, rest, hf, hrest, rfl⟩ := h.seq
    obtain ⟨left, hleft, rfl⟩ := hf.map
    exact Fits.foldBinary hleft fun x hx => (hrest x hx).2.elim id id
  | letCond =>
    obtain ⟨s, ⟨pattern, e⟩, hx, rfl⟩ := h
    exact .of_operands rfl rfl (List.forall_mem_singleton.2 hx.right.2.right)
      (List.forall_mem_nil _)
  | matchExpr =>
    obtain ⟨s, ⟨scrutinee, arms⟩, hx, rfl⟩ := h
    obtain ⟨hscrutinee, harms⟩ := hx.right
    exact .of_heads rfl (List.forall_mem_singleton.2 hscrutinee)
      (List.forall_mem_map.2 harms.left.right)
  | matchArm =>
    obtain ⟨s, ⟨pattern, guard, body⟩, hx, rfl⟩ := h
    obtain ⟨-, hguard, hbody⟩ := hx.right
    refine .of_children rfl (List.forall_mem_cons.2 ⟨Node.guarded_fragment _, ?_⟩)
    exact List.forall_mem_append.2
      ⟨Node.guarded_toList hguard, List.forall_mem_singleton.2 hbody.right⟩
  | matchGuard | structBase => exact Fits.guarded h.right
  | armBody =>
    rcases h with h | h
    · exact Fits.guarded h.left
    · exact Fits.guarded h.left
  | loopExpr | blockExpr =>
    obtain ⟨s, ⟨label, body⟩, hx, rfl⟩ := h
    exact .of_enclosed rfl rfl (List.forall_mem_singleton.2 hx.2)
  | whileExpr =>
    obtain ⟨s, ⟨label, cond, body⟩, ⟨-, hcond, hbody⟩, rfl⟩ := h
    exact .of_heads rfl (List.forall_mem_singleton.2 hcond) (List.forall_mem_singleton.2 hbody)
  | forExpr =>
    obtain ⟨s, ⟨label, pattern, iter, body⟩, ⟨-, -, hiter, hbody⟩, rfl⟩ := h
    exact .of_heads rfl (List.forall_mem_singleton.2 hiter) (List.forall_mem_singleton.2 hbody)
  | uncheckedBlock | asyncBlock =>
    obtain ⟨s, body, hbody, rfl⟩ := h
    exact .of_enclosed rfl rfl (List.forall_mem_singleton.2 hbody.right)
  | macroCall =>
    obtain ⟨s, ⟨path, delimiter, tokens⟩, -, rfl⟩ := h
    exact .of_leaf rfl rfl rfl
  | structLit =>
    obtain ⟨s, ⟨path, fields, base⟩, ⟨-, hinside⟩, rfl⟩ := h
    obtain ⟨hfields, hbase⟩ := hinside.left.right
    refine .of_children rfl ?_
    exact List.forall_mem_append.2 ⟨List.forall_mem_map.2 hfields, Node.guarded_toList hbase⟩
  | structLitBody => exact ⟨made_commaList0 h.1, fun e he => h.2 e he⟩
  | structField =>
    obtain ⟨s, ⟨name, value⟩, hx, rfl⟩ := h
    refine .of_children rfl (Node.guarded_toList ?_)
    rcases hx.right with ⟨-, hvalue⟩ | hshort
    · obtain ⟨e, he, rfl⟩ := hvalue.map
      rintro _ ⟨⟩
      exact Fits.guarded he
    · obtain ⟨name, -, heq⟩ := hshort.map
      cases heq
      intro e he
      cases he
  | unitExpr =>
    obtain ⟨s, -, -, rfl⟩ := h
    exact .of_leaf rfl rfl rfl
  | parenExpr =>
    obtain ⟨s, e, he, rfl⟩ := h
    exact .of_enclosed rfl rfl (List.forall_mem_singleton.2 (Fits.guarded he.left.right))
  | tupleExpr =>
    obtain ⟨s, ⟨first, rest⟩, ⟨hfirst, hrest⟩, rfl⟩ := h
    refine .of_enclosed rfl rfl (List.forall_mem_map.2 (List.forall_mem_cons.2 ⟨?_, ?_⟩))
    · exact Fits.guarded hfirst.left.right
    · exact made_exprs hrest.left
  | arrayExpr =>
    obtain ⟨s, body, hbody, rfl⟩ := h
    have hbody := hbody.left.right
    rcases body with _ | elems | ⟨elem, length⟩
    · exact .of_leaf rfl rfl rfl
    · exact .of_enclosed rfl rfl (List.forall_mem_map.2 (hbody _ rfl))
    · obtain ⟨helem, hlength⟩ := hbody _ rfl
      exact .of_enclosed rfl rfl
        (List.forall_mem_cons.2 ⟨helem, List.forall_mem_singleton.2 hlength⟩)
  | arrayBody =>
    rcases h with h | h
    · obtain ⟨x, hx, rfl⟩ := h.map
      exact hx
    · obtain ⟨x, hx, rfl⟩ := h.map
      exact hx
  | arrayRepeat => exact ⟨Fits.guarded h.1.left, Fits.guarded h.2⟩
  | returnExpr =>
    obtain ⟨s, value, hvalue, rfl⟩ := h
    exact .of_lifts rfl fun c hc => Fits.guarded (hvalue.right c (Option.mem_toList.1 hc))
  | breakExpr =>
    obtain ⟨s, ⟨label, value⟩, hx, rfl⟩ := h
    exact .of_lifts rfl fun c hc => Fits.guarded (hx.right.2 c (Option.mem_toList.1 hc))
  | continueExpr =>
    obtain ⟨s, label, -, rfl⟩ := h
    exact .of_leaf rfl rfl rfl
  | _ => trivial

theorem fit_stmtBody (r : StmtRule) (a : r.Value) (h : (stmtBody r).Made Rule.Fit a) :
    r.Fit a := by
  cases r with
  | block =>
    obtain ⟨s, ⟨stmts, tail⟩, hx, rfl⟩ := h
    obtain ⟨hstmts, htail⟩ := hx.left.right
    refine .of_children rfl ?_
    exact List.forall_mem_append.2 ⟨List.forall_mem_map.2 hstmts, Node.guarded_toList htail⟩
  | stmtSeq => exact h
  | stmtWs => exact h.left
  | stmt =>
    rcases h with h | ⟨s, i, hi, rfl⟩ | h | h | h
    · exact h
    · exact .of_children rfl (List.forall_mem_singleton.2 hi)
    · exact h
    · exact h
    · exact h
  | emptyStmt =>
    obtain ⟨s, -, -, rfl⟩ := h
    exact .of_children rfl (List.forall_mem_nil _)
  | letStmt =>
    obtain ⟨s, ⟨attrs, pattern, type, init⟩, ⟨-, -, -, hinit⟩, rfl⟩ := h
    have hinit := hinit.left
    refine .of_children rfl ?_
    simp only [Node.children, Stmt.children, List.forall_mem_append, List.forall_mem_cons]
    refine ⟨⟨⟨Node.guarded_attributes _, Node.guarded_fragment _, Node.guarded_fragment? _⟩, ?_⟩,
      ?_⟩
    · refine Node.guarded_toList fun e he => ?_
      obtain ⟨x, hx, rfl⟩ := Option.map_eq_some_iff.1 he
      exact (hinit x hx).1
    · refine Node.guarded_toList fun b hb => ?_
      obtain ⟨x, hx, hb⟩ := Option.bind_eq_some_iff.1 hb
      exact (hinit x hx).2 b hb
  | letInit => exact ⟨Fits.guarded h.1.right, h.2⟩
  | letElse => exact h.right
  | blockStmt =>
    obtain ⟨s, ⟨attrs, e, semi⟩, ⟨-, he, -⟩, rfl⟩ := h
    exact .of_children rfl (List.forall_mem_append.2
      ⟨Node.guarded_attributes _, List.forall_mem_singleton.2 (Fits.guarded he.left)⟩)
  | exprStmt =>
    obtain ⟨s, ⟨attrs, e⟩, ⟨-, he⟩, rfl⟩ := h
    exact .of_children rfl (List.forall_mem_append.2
      ⟨Node.guarded_attributes _, List.forall_mem_singleton.2 (Fits.guarded he.left)⟩)
  | blockTail => exact Fits.guarded h.right

theorem made_itemOf {kind : P ItemKind} {i : Item} (h : (itemOf kind).Made Rule.Fit i)
    (hkind : ∀ k, kind.Made Rule.Fit k → ∀ m ∈ k.children, m.Guarded) : (Node.item i).Guarded := by
  obtain ⟨s, ⟨attrs, x⟩, ⟨-, hx⟩, rfl⟩ := h
  obtain ⟨s', ⟨visibility, k⟩, ⟨-, hk⟩, rfl⟩ := hx
  refine .of_children rfl (List.forall_mem_append.2 ⟨Node.guarded_attributes _, ?_⟩)
  change ∀ m ∈ (ItemKind.signed s' k).children, m.Guarded
  rw [children_signed]
  exact hkind k hk

theorem fit_itemBody (r : ItemRule) (a : r.Value) (h : (itemBody r).Made Rule.Fit a) :
    r.Fit a := by
  cases r with
  | file => exact h.right.2
  | item => exact made_itemOf h fun _ hk => hk
  | stmtItem => exact made_itemOf h fun _ hk => hk
  | itemKind =>
    rcases h with h | h | h | h | h | h | h | h | h | h | h | h | h <;> exact h
  | stmtItemKind =>
    rcases h with h | h | h | h | h | h | h | h | h | h | h <;> exact h
  | fnItem =>
    obtain ⟨f₃, body, hf₃, hbody, rfl⟩ := h.seq
    obtain ⟨f₂, result, hf₂, -, rfl⟩ := hf₃.seq
    obtain ⟨f₁, params, hf₁, -, rfl⟩ := hf₂.seq
    obtain ⟨name, -, rfl⟩ := hf₁.map
    refine List.forall_mem_append.2 ⟨List.forall_mem_append.2 ⟨?_, Node.guarded_fragment? _⟩,
      Node.guarded_toList hbody⟩
    intro m hm
    obtain ⟨param, -, hm⟩ := List.mem_flatMap.1 hm
    exact Node.guarded_fragment? param.type m hm
  | fnBody =>
    rcases h with h | h
    · obtain ⟨b, hb, rfl⟩ := h.map
      rintro _ ⟨⟩
      exact hb
    · obtain ⟨-, -, rfl⟩ := h.map
      intro b hb
      cases hb
  | implItem =>
    obtain ⟨f₂, items, hf₂, hitems, rfl⟩ := h.seq
    obtain ⟨f₁, selfType, hf₁, -, rfl⟩ := hf₂.seq
    obtain ⟨traitType, -, rfl⟩ := hf₁.map
    exact List.forall_mem_append.2 ⟨Node.guarded_fragment? _,
      List.forall_mem_cons.2 ⟨Node.guarded_fragment _, List.forall_mem_map.2 hitems.left.right⟩⟩
  | structItem | enumItem =>
    obtain ⟨name, -, rfl⟩ := h.map
    exact List.forall_mem_nil _
  | traitItem =>
    obtain ⟨f, items, hf, hitems, rfl⟩ := h.seq
    obtain ⟨name, -, rfl⟩ := hf.map
    exact List.forall_mem_map.2 hitems.left.right
  | constItem | staticItem =>
    obtain ⟨f₂, value, hf₂, hvalue, rfl⟩ := h.left.seq
    obtain ⟨f₁, type, hf₁, -, rfl⟩ := hf₂.seq
    obtain ⟨name, -, rfl⟩ := hf₁.map
    refine List.forall_mem_cons.2 ⟨Node.guarded_fragment _, Node.guarded_toList fun e he => ?_⟩
    exact Fits.guarded (hvalue e he).right
  | useItem | typeAlias | externCrate | externBlock =>
    obtain ⟨s, -, -, rfl⟩ := h
    exact List.forall_mem_nil _
  | modItem =>
    obtain ⟨f, items, hf, hitems, rfl⟩ := h.seq
    obtain ⟨name, -, rfl⟩ := hf.map
    rcases hitems with hnone | hsome
    · obtain ⟨-, -, rfl⟩ := hnone.map
      exact List.forall_mem_nil _
    · obtain ⟨inner, hinner, rfl⟩ := hsome.map
      exact List.forall_mem_map.2 hinner.left.right
  | macroItem =>
    obtain ⟨f, tokens, hf, -, rfl⟩ := h.seq
    obtain ⟨path, -, rfl⟩ := hf.map
    exact List.forall_mem_nil _
  | _ => trivial

theorem fit_body (r : Rule) (a : r.Value) (h : (grammar.body r).Made Rule.Fit a) : r.Fit a := by
  cases r with
  | lex r =>
    cases r with
    | literal =>
      obtain ⟨s, -, -, rfl⟩ := h.left
      exact .of_leaf rfl rfl rfl
    | _ => trivial
  | type r | pattern r => trivial
  | item r => exact fit_itemBody r a h
  | stmt r => exact fit_stmtBody r a h
  | expr r => exact fit_exprBody r a h

end Grammar

theorem unbraced_of_contains {text : List Char} {filename : String} {f : SourceFile} {x c : Expr}
    (h : parse text filename = .ok f) (hx : f.Contains (.expr x)) (hc : c ∈ x.heads) :
    c.Unbraced := by
  obtain ⟨n, k, hfile, -⟩ := parse_eq_ok h
  have hitems : ∀ i ∈ f.items, (Node.item i).Guarded :=
    Peg.Grammar.value_of_answer Grammar.fit_body hfile
  exact SourceFile.guarded_of_contains hitems hx _ .refl c hc

/-- A struct literal in a condition, in what is matched on or in what is looped over stands inside
brackets, or under a `return`, a `break` or a closure; and those are what every one that stands
outside of all brackets is under. -/
theorem parse_structLit_beforeBlock {text : List Char} {filename : String} {f : SourceFile}
    {x c s : Expr} (h : parse text filename = .ok f) (hx : f.Contains (.expr x)) (hc : c ∈ x.heads)
    (hs : (Node.expr c).Holds (.expr s)) (hlit : s.isStructLit = true) :
    (∃ e, c.Exposes e ∧ ((∃ m ∈ e.enclosed, m.Holds (.expr s)) ∨
      e.lifts = true ∧ (Node.expr e).Holds (.expr s))) ∧
    (c.Exposes s → ∃ e, c.Exposes e ∧ e.lifts = true ∧ e.Exposes s) := by
  have hunbraced := unbraced_of_contains h hx hc
  exact ⟨hunbraced.enclosed hs hlit, fun hopen => hunbraced.lifted hopen hlit⟩

/-- The expression that a function starts with, in the function that a file starts with. -/
def firstExpr? (f : SourceFile) : Option Expr :=
  match (firstBody? f).bind (·.stmts.head?) with
  | some (.expr e _ _ _) => some e
  | _ => none

theorem contains_firstExpr {f : SourceFile} {e : Expr} (h : firstExpr? f = some e) :
    f.Contains (.expr e) := by
  unfold firstExpr? at h
  split at h
  · rename_i e' semi attrs span hstmt
    cases h
    obtain ⟨b, hb, hhead⟩ := Option.bind_eq_some_iff.1 hstmt
    have hmem : Stmt.expr e semi attrs span ∈ b.stmts := List.mem_of_mem_head? hhead
    have hs : f.Contains (.stmt (.expr e semi attrs span)) :=
      .child (contains_firstBody hb) (List.mem_append_left _ (List.mem_map_of_mem hmem))
    exact .child hs (List.mem_append_right _ (List.mem_singleton_self _))
  · cases h

/-- What is returned in the condition of an `if`. -/
def Expr.returnedInCond? : Expr → Option Expr
  | .ifElse (.ret value _) _ _ _ => value
  | _ => none

/-- The first pair of braces belongs to the value that is returned, and the second is the block. -/
theorem parse_structLit_return : ∃ f x c s,
    parse "fn f() \x7b if return S \x7b\x7d \x7b\x7d \x7d".toList "" = .ok f ∧
    f.Contains (.expr x) ∧ c ∈ x.heads ∧ (Node.expr c).Holds (.expr s) ∧ s.isStructLit = true ∧
    c.Exposes s ∧ ∃ e, c.Exposes e ∧ e.lifts = true ∧ e.Exposes s := by
  have hcheck : parsesTo "fn f() \x7b if return S \x7b\x7d \x7b\x7d \x7d" (fun f =>
      ((firstExpr? f).bind Expr.returnedInCond?).any Expr.isStructLit) = true := by decide +kernel
  obtain ⟨f, hf, hs⟩ := exists_of_parsesTo hcheck
  obtain ⟨s, hs, hlit⟩ := (Option.any_eq_true _ _).1 hs
  obtain ⟨x, hx, hs⟩ := Option.bind_eq_some_iff.1 hs
  unfold Expr.returnedInCond? at hs
  split at hs
  · rename_i value span body orElse outer
    subst hs
    have hholds : (Node.expr (.ret (some s) span)).Holds (.expr s) :=
      .of_child (List.mem_singleton_self _) .refl
    have hopen : (Expr.ret (some s) span).Exposes s := .single (List.mem_singleton_self _)
    have hhead : Expr.ret (some s) span ∈
        (Expr.ifElse (.ret (some s) span) body orElse outer).heads := List.mem_singleton_self _
    have hcontains := contains_firstExpr hx
    exact ⟨f, _, _, s, hf, hcontains, hhead, hholds, hlit, hopen,
      (parse_structLit_beforeBlock hf hcontains hhead hholds hlit).2 hopen⟩
  · cases hs

end InkGauge.Contract
