import InkGauge.Contract.Printer

/-!
Two trees are the same up to where they were read if replacing every span by one and the same span
makes them equal. The canonical text of a tree does not depend on its spans.
-/

namespace InkGauge.Contract

variable (f : Span → Span)

def Fragment.mapSpans (x : Fragment) : Fragment := ⟨x.text, f x.span⟩

def Attribute.mapSpans (x : Attribute) : Attribute := ⟨x.path, x.text, x.inner, f x.span⟩

def Param.mapSpans (x : Param) : Param := ⟨x.pattern, x.type.map (·.mapSpans f), x.isSelf⟩

mutual

/-- The expression with `f` applied to all its spans. -/
def Expr.mapSpans : Expr → Expr
  | .lit text s => .lit text (f s)
  | .path segments text s => .path segments text (f s)
  | .methodCall receiver method turbofish args s =>
    .methodCall receiver.mapSpans method turbofish (exprsMapSpans args) (f s)
  | .call func args s => .call func.mapSpans (exprsMapSpans args) (f s)
  | .field base member s => .field base.mapSpans member (f s)
  | .index base index s => .index base.mapSpans index.mapSpans (f s)
  | .binary op left right s => .binary op left.mapSpans right.mapSpans (f s)
  | .assign left right s => .assign left.mapSpans right.mapSpans (f s)
  | .unary op operand s => .unary op operand.mapSpans (f s)
  | .cast e type s => .cast e.mapSpans (type.mapSpans f) (f s)
  | .attempt e s => .attempt e.mapSpans (f s)
  | .await e s => .await e.mapSpans (f s)
  | .paren inner s => .paren inner.mapSpans (f s)
  | .tuple elems s => .tuple (exprsMapSpans elems) (f s)
  | .array elems s => .array (exprsMapSpans elems) (f s)
  | .arrayRepeat elem length s => .arrayRepeat elem.mapSpans length.mapSpans (f s)
  | .structLit path fields base s =>
    .structLit path (fieldsMapSpans fields) (expr?MapSpans base) (f s)
  | .invoke path delimiter tokens s => .invoke path delimiter tokens (f s)
  | .range start stop inclusive s =>
    .range (expr?MapSpans start) (expr?MapSpans stop) inclusive (f s)
  | .closure params moves result body s =>
    .closure params moves (result.map (·.mapSpans f)) body.mapSpans (f s)
  | .letCond pattern e s => .letCond (pattern.mapSpans f) e.mapSpans (f s)
  | .block body kind label s => .block body.mapSpans kind label (f s)
  | .ifElse cond thenBlock orElse s =>
    .ifElse cond.mapSpans thenBlock.mapSpans (expr?MapSpans orElse) (f s)
  | .matchOn scrutinee arms s => .matchOn scrutinee.mapSpans (armsMapSpans arms) (f s)
  | .loop body label s => .loop body.mapSpans label (f s)
  | .whileLoop cond body label s => .whileLoop cond.mapSpans body.mapSpans label (f s)
  | .forLoop pattern iter body label s =>
    .forLoop (pattern.mapSpans f) iter.mapSpans body.mapSpans label (f s)
  | .ret value s => .ret (expr?MapSpans value) (f s)
  | .brk label value s => .brk label (expr?MapSpans value) (f s)
  | .cont label s => .cont label (f s)

def exprsMapSpans : List Expr → List Expr
  | [] => []
  | e :: es => e.mapSpans :: exprsMapSpans es

def expr?MapSpans : Option Expr → Option Expr
  | none => none
  | some e => some e.mapSpans

def FieldInit.mapSpans : FieldInit → FieldInit
  | ⟨name, value, s⟩ => ⟨name, expr?MapSpans value, f s⟩

def fieldsMapSpans : List FieldInit → List FieldInit
  | [] => []
  | x :: xs => x.mapSpans :: fieldsMapSpans xs

def MatchArm.mapSpans : MatchArm → MatchArm
  | ⟨pattern, guard, body, s⟩ => ⟨pattern.mapSpans f, expr?MapSpans guard, body.mapSpans, f s⟩

def armsMapSpans : List MatchArm → List MatchArm
  | [] => []
  | a :: as => a.mapSpans :: armsMapSpans as

def Block.mapSpans : Block → Block
  | ⟨stmts, tail, s⟩ => ⟨stmtsMapSpans stmts, expr?MapSpans tail, f s⟩

def block?MapSpans : Option Block → Option Block
  | none => none
  | some b => some b.mapSpans

def Stmt.mapSpans : Stmt → Stmt
  | .letBind pattern type init orElse attrs s =>
    .letBind (pattern.mapSpans f) (type.map (·.mapSpans f)) (expr?MapSpans init)
      (block?MapSpans orElse) (attrs.map (·.mapSpans f)) (f s)
  | .expr e semi attrs s => .expr e.mapSpans semi (attrs.map (·.mapSpans f)) (f s)
  | .item i s => .item i.mapSpans (f s)
  | .empty s => .empty (f s)

def stmtsMapSpans : List Stmt → List Stmt
  | [] => []
  | s :: ss => s.mapSpans :: stmtsMapSpans ss

def Function.mapSpans : Function → Function
  | ⟨name, params, result, body, signature⟩ =>
    ⟨name, params.map (·.mapSpans f), result.map (·.mapSpans f), block?MapSpans body, signature⟩

def ItemKind.mapSpans : ItemKind → ItemKind
  | .function fn => .function fn.mapSpans
  | .impl selfType trait items =>
    .impl (selfType.mapSpans f) (trait.map (·.mapSpans f)) (itemsMapSpans items)
  | .struct name => .struct name
  | .enum name => .enum name
  | .trait name items => .trait name (itemsMapSpans items)
  | .const name type value isStatic =>
    .const name (type.mapSpans f) (expr?MapSpans value) isStatic
  | .mod name none => .mod name none
  | .mod name (some items) => .mod name (some (itemsMapSpans items))
  | .invoke path tokens => .invoke path tokens
  | .other kind text => .other kind text

def Item.mapSpans : Item → Item
  | ⟨attrs, visibility, s, kind⟩ =>
    ⟨attrs.map (·.mapSpans f), visibility, f s, kind.mapSpans⟩

def itemsMapSpans : List Item → List Item
  | [] => []
  | i :: is => i.mapSpans :: itemsMapSpans is

end

theorem span_mapSpans (e : Expr) : (e.mapSpans f).span = f e.span := by
  cases e <;> rfl

mutual

theorem render_mapSpans : (e : Expr) → (e.mapSpans f).render = e.render
  | .lit .. | .path .. | .invoke .. | .cont .. => rfl
  | .methodCall receiver method turbofish args s => by
    simp only [Expr.mapSpans, Expr.render, render_mapSpans receiver, renderExprs_mapSpans args]
  | .call func args s => by
    simp only [Expr.mapSpans, Expr.render, render_mapSpans func, renderExprs_mapSpans args]
  | .field base member s => by simp only [Expr.mapSpans, Expr.render, render_mapSpans base]
  | .index base index s => by
    simp only [Expr.mapSpans, Expr.render, render_mapSpans base, render_mapSpans index]
  | .binary op left right s => by
    simp only [Expr.mapSpans, Expr.render, render_mapSpans left, render_mapSpans right]
  | .assign left right s => by
    simp only [Expr.mapSpans, Expr.render, render_mapSpans left, render_mapSpans right]
  | .unary op operand s => by simp only [Expr.mapSpans, Expr.render, render_mapSpans operand]
  | .cast e type s => by simp only [Expr.mapSpans, Expr.render, render_mapSpans e, Fragment.mapSpans]
  | .attempt e s => by simp only [Expr.mapSpans, Expr.render, render_mapSpans e]
  | .await e s => by simp only [Expr.mapSpans, Expr.render, render_mapSpans e]
  | .paren inner s => by simp only [Expr.mapSpans, Expr.render, render_mapSpans inner]
  | .tuple [] s => rfl
  | .tuple [e] s => by simp only [Expr.mapSpans, exprsMapSpans, Expr.render, render_mapSpans e]
  | .tuple (e :: a :: es) s => by
    have hlist := renderExprs_mapSpans (e :: a :: es)
    simp only [exprsMapSpans] at hlist
    simp only [Expr.mapSpans, exprsMapSpans, Expr.render, hlist]
  | .array elems s => by simp only [Expr.mapSpans, Expr.render, renderExprs_mapSpans elems]
  | .arrayRepeat elem length s => by
    simp only [Expr.mapSpans, Expr.render, render_mapSpans elem, render_mapSpans length]
  | .structLit path fields none s => by
    simp only [Expr.mapSpans, expr?MapSpans, Expr.render, renderFields_mapSpans fields]
  | .structLit path fields (some e) s => by
    simp only [Expr.mapSpans, expr?MapSpans, Expr.render, renderBase, renderFields_mapSpans fields,
      render_mapSpans e]
  | .range start stop inclusive s => by
    simp only [Expr.mapSpans, Expr.render, renderExpr?_mapSpans start, renderExpr?_mapSpans stop]
  | .closure params moves result body s => by
    cases result <;>
      simp only [Expr.mapSpans, Expr.render, render_mapSpans body, Option.map, Fragment.mapSpans]
  | .letCond pattern e s => by
    simp only [Expr.mapSpans, Expr.render, render_mapSpans e, Fragment.mapSpans]
  | .block body kind label s => by
    simp only [Expr.mapSpans, Expr.render, renderBlock_mapSpans body]
  | .ifElse cond thenBlock none s => by
    simp only [Expr.mapSpans, expr?MapSpans, Expr.render, render_mapSpans cond,
      renderBlock_mapSpans thenBlock]
  | .ifElse cond thenBlock (some e) s => by
    simp only [Expr.mapSpans, expr?MapSpans, Expr.render, renderElse, render_mapSpans cond,
      renderBlock_mapSpans thenBlock, render_mapSpans e]
  | .matchOn scrutinee arms s => by
    simp only [Expr.mapSpans, Expr.render, render_mapSpans scrutinee, renderArms_mapSpans arms]
  | .loop body label s => by simp only [Expr.mapSpans, Expr.render, renderBlock_mapSpans body]
  | .whileLoop cond body label s => by
    simp only [Expr.mapSpans, Expr.render, render_mapSpans cond, renderBlock_mapSpans body]
  | .forLoop pattern iter body label s => by
    simp only [Expr.mapSpans, Expr.render, render_mapSpans iter, renderBlock_mapSpans body,
      Fragment.mapSpans]
  | .ret none s => rfl
  | .ret (some e) s => by
    simp only [Expr.mapSpans, expr?MapSpans, Expr.render, renderAfterBlank, render_mapSpans e]
  | .brk label none s => rfl
  | .brk label (some e) s => by
    simp only [Expr.mapSpans, expr?MapSpans, Expr.render, renderAfterBlank, render_mapSpans e]

theorem renderExprs_mapSpans : (es : List Expr) → renderExprs (exprsMapSpans f es) = renderExprs es
  | [] => rfl
  | e :: es => by
    simp only [exprsMapSpans, renderExprs, render_mapSpans e, renderExprs_mapSpans es]

theorem renderExpr?_mapSpans : (e : Option Expr) → renderExpr? (expr?MapSpans f e) = renderExpr? e
  | none => rfl
  | some e => render_mapSpans e

theorem renderField_mapSpans : (x : FieldInit) → (x.mapSpans f).render = x.render
  | ⟨name, none, s⟩ => rfl
  | ⟨name, some e, s⟩ => by
    simp only [FieldInit.mapSpans, expr?MapSpans, FieldInit.render, render_mapSpans e]

theorem renderFields_mapSpans :
    (xs : List FieldInit) → renderFields (fieldsMapSpans f xs) = renderFields xs
  | [] => rfl
  | x :: xs => by
    simp only [fieldsMapSpans, renderFields, renderField_mapSpans x, renderFields_mapSpans xs]

theorem renderArm_mapSpans : (a : MatchArm) → (a.mapSpans f).render = a.render
  | ⟨pattern, none, body, s⟩ => by
    simp only [MatchArm.mapSpans, expr?MapSpans, MatchArm.render, render_mapSpans body,
      Fragment.mapSpans]
  | ⟨pattern, some e, body, s⟩ => by
    simp only [MatchArm.mapSpans, expr?MapSpans, MatchArm.render, renderGuard, render_mapSpans e,
      render_mapSpans body, Fragment.mapSpans]

theorem renderArms_mapSpans : (as : List MatchArm) → renderArms (armsMapSpans f as) = renderArms as
  | [] => rfl
  | a :: as => by
    simp only [armsMapSpans, renderArms, renderArm_mapSpans a, renderArms_mapSpans as]

theorem renderBlock_mapSpans : (b : Block) → (b.mapSpans f).render = b.render
  | ⟨stmts, none, s⟩ => by
    simp only [Block.mapSpans, expr?MapSpans, Block.render, renderStmts_mapSpans stmts]
  | ⟨stmts, some e, s⟩ => by
    simp only [Block.mapSpans, expr?MapSpans, Block.render, renderTail, renderStmts_mapSpans stmts,
      render_mapSpans e]

theorem renderStmt_mapSpans : (s : Stmt) → (s.mapSpans f).render = s.render
  | .letBind pattern type init orElse attrs s => by
    cases type <;>
      simp only [Stmt.mapSpans, Stmt.render, Option.map, Fragment.mapSpans, renderInit_mapSpans init,
        renderBlock?_mapSpans orElse]
  | .expr e semi attrs s => by simp only [Stmt.mapSpans, Stmt.render, render_mapSpans e]
  | .item ⟨attrs, visibility, span, kind⟩ s => by
    cases kind with
    | function fn => cases fn; rfl
    | mod name items => cases items <;> rfl
    | _ => rfl
  | .empty s => rfl

theorem renderInit_mapSpans : (e : Option Expr) → renderInit (expr?MapSpans f e) = renderInit e
  | none => rfl
  | some e => by simp only [expr?MapSpans, renderInit, render_mapSpans e]

theorem renderBlock?_mapSpans : (b : Option Block) → renderBlock? (block?MapSpans f b) = renderBlock? b
  | none => rfl
  | some b => by simp only [block?MapSpans, renderBlock?, renderBlock_mapSpans b]

theorem renderStmts_mapSpans : (ss : List Stmt) → renderStmts (stmtsMapSpans f ss) = renderStmts ss
  | [] => rfl
  | s :: ss => by
    simp only [stmtsMapSpans, renderStmts, renderStmt_mapSpans s, renderStmts_mapSpans ss]

end

/-- The expression with no memory of where it was read. -/
def Expr.unplaced (e : Expr) : Expr := e.mapSpans fun _ => ⟨0, 0, 0, 0⟩

def unplacedAll (es : List Expr) : List Expr := exprsMapSpans (fun _ => ⟨0, 0, 0, 0⟩) es

end InkGauge.Contract
