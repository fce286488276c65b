import InkGauge.Contract.Tree

/-!
The canonical text of a tree: one line, and one spelling per construct whatever the layout of the
source was. Costs are found by looking for patterns in this text.
-/

namespace InkGauge.Contract

def commas (parts : List String) : String := ", ".intercalate parts

/-- Parts between braces, with the separator between them; nothing but the braces without parts. -/
def inBraces (separator : String) (parts : List String) : String :=
  match parts with
  | [] => "\x7b\x7d"
  | parts => "\x7b " ++ separator.intercalate parts ++ " \x7d"

def labelPrefix (label : String) : String := if label = "" then "" else label ++ ": "

def UnaryOp.lead : UnaryOp → String
  | .refMut => "&mut "
  | .refRefMut => "&&mut "
  | op => op.symbol

/-- What stands for an item among statements: a function shows its signature, anything else its
kind and its name. -/
def ItemKind.render : ItemKind → String
  | .function fn => fn.signature ++ " \x7b .. \x7d"
  | .impl .. => "ImplItem"
  | .struct name => "StructItem " ++ name
  | .enum name => "EnumItem " ++ name
  | .trait name _ => "TraitItem " ++ name
  | .const name _ _ _ => "ConstItem " ++ name
  | .mod name _ => "ModItem " ++ name
  | .invoke .. => "MacroItem"
  | .other .. => "OtherItem"

mutual

def Expr.render : Expr → String
  | .lit text _ => text
  | .path _ text _ => text
  | .methodCall receiver method turbofish args _ =>
    receiver.render ++ "." ++ method ++ turbofish ++ "(" ++ commas (renderExprs args) ++ ")"
  | .call func args _ => func.render ++ "(" ++ commas (renderExprs args) ++ ")"
  | .field base member _ => base.render ++ "." ++ member
  | .index base index _ => base.render ++ "[" ++ index.render ++ "]"
  | .binary op left right _ => left.render ++ " " ++ op.symbol ++ " " ++ right.render
  | .assign left right _ => left.render ++ " = " ++ right.render
  | .unary op operand _ => op.lead ++ operand.render
  | .cast e type _ => e.render ++ " as " ++ type.text
  | .attempt e _ => e.render ++ "?"
  | .await e _ => e.render ++ ".await"
  | .paren inner _ => "(" ++ inner.render ++ ")"
  | .tuple [e] _ => "(" ++ e.render ++ ",)"
  | .tuple elems _ => "(" ++ commas (renderExprs elems) ++ ")"
  | .array elems _ => "[" ++ commas (renderExprs elems) ++ "]"
  | .arrayRepeat elem length _ => "[" ++ elem.render ++ "; " ++ length.render ++ "]"
  | .structLit path fields base _ =>
    path ++ " " ++ inBraces ", " (renderFields fields ++ renderBase base)
  | .invoke path delimiter tokens _ =>
    path ++ "!" ++ delimiter.opening ++ tokens ++ delimiter.closing
  | .range start stop inclusive _ =>
    renderExpr? start ++ (if inclusive then "..=" else "..") ++ renderExpr? stop
  | .closure params moves result body _ =>
    (if moves then "move " else "") ++ params
      ++ (match result with
        | some type => " -> " ++ type.text
        | none => "")
      ++ " " ++ body.render
  | .letCond pattern e _ => "let " ++ pattern.text ++ " = " ++ e.render
  | .block body kind label _ =>
    labelPrefix label ++ (if kind = .plain then "" else kind.word ++ " ") ++ body.render
  | .ifElse cond thenBlock orElse _ =>
    "if " ++ cond.render ++ " " ++ thenBlock.render ++ renderElse orElse
  | .matchOn scrutinee arms _ =>
    "match " ++ scrutinee.render ++ " " ++ inBraces ", " (renderArms arms)
  | .loop body label _ => labelPrefix label ++ "loop " ++ body.render
  | .whileLoop cond body label _ =>
    labelPrefix label ++ "while " ++ cond.render ++ " " ++ body.render
  | .forLoop pattern iter body label _ =>
    labelPrefix label ++ "for " ++ pattern.text ++ " in " ++ iter.render ++ " " ++ body.render
  | .ret value _ => "return" ++ renderAfterBlank value
  | .brk label value _ =>
    "break" ++ (if label = "" then "" else " " ++ label) ++ renderAfterBlank value
  | .cont label _ => "continue" ++ (if label = "" then "" else " " ++ label)

def renderExprs : List Expr → List String
  | [] => []
  | e :: es => e.render :: renderExprs es

def renderExpr? : Option Expr → String
  | none => ""
  | some e => e.render

def renderAfterBlank : Option Expr → String
  | none => ""
  | some e => " " ++ e.render

def renderElse : Option Expr → String
  | none => ""
  | some e => " else " ++ e.render

def renderBase : Option Expr → List String
  | none => []
  | some e => [".." ++ e.render]

def FieldInit.render : FieldInit → String
  | ⟨name, none, _⟩ => name
  | ⟨name, some value, _⟩ => name ++ ": " ++ value.render

def renderFields : List FieldInit → List String
  | [] => []
  | f :: fs => f.render :: renderFields fs

def MatchArm.render : MatchArm → String
  | ⟨pattern, guard, body, _⟩ => pattern.text ++ renderGuard guard ++ " => " ++ body.render

def renderGuard : Option Expr → String
  | none => ""
  | some e => " if " ++ e.render

def renderArms : List MatchArm → List String
  | [] => []
  | a :: as => a.render :: renderArms as

def Block.render : Block → String
  | ⟨stmts, tail, _⟩ => inBraces " " (renderStmts stmts ++ renderTail tail)

def renderTail : Option Expr → List String
  | none => []
  | some e => [e.render]

def renderBlock? : Option Block → String
  | none => ""
  | some b => " else " ++ b.render

def Stmt.render : Stmt → String
  | .letBind pattern type init orElse _ _ =>
    "let " ++ pattern.text
      ++ (match type with
        | some type => ": " ++ type.text
        | none => "")
      ++ renderInit init ++ renderBlock? orElse ++ ";"
  | .expr e semi _ _ => e.render ++ (if semi then ";" else "")
  | .item ⟨_, _, _, kind⟩ _ => kind.render
  | .empty _ => ";"

def renderInit : Option Expr → String
  | none => ""
  | some e => " = " ++ e.render

def renderStmts : List Stmt → List String
  | [] => []
  | s :: ss => s.render :: renderStmts ss

end

end InkGauge.Contract
