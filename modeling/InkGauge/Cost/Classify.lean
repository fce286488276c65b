import InkGauge.Contract.Printer
import InkGauge.Cost.Entity
import InkGauge.Cost.Evidence
import InkGauge.Cost.Model

/-!
Two kinds of evidence count. The canonical text of every expression that owns no statements is
searched for patterns; and assignments into, indexing of and field access on what looks like
storage are found by their structure. Calls, operators, assignments, indexing and field access are
followed inwards. A method call that is the receiver of another is not, because the text of the
whole chain has been searched already.
-/

namespace InkGauge.Cost

open Contract Number

/-- Words that make a variable look like storage. -/
def storageHints : List String := ["storage", "balances", "map", "vec"]

/-- Would an assignment to the expression write to storage, going by its names? -/
def looksLikeStorageWrite : Expr → Bool
  | .path segments _ _ => segments.any fun name => storageHints.any name.has
  | .field base _ _ => looksLikeStorageWrite base
  | .index base _ _ => looksLikeStorageWrite base
  | _ => false

/-- Does the expression start at `self`, or end in a field called storage? -/
def looksLikeStorageAccess : Expr → Bool
  | .path segments _ _ => segments.head? = some "self"
  | .field base member _ => looksLikeStorageAccess base || member = "storage"
  | .index base _ _ => looksLikeStorageAccess base
  | _ => false

/-- Macros that check a condition. -/
def guardMacros : List String := ["require", "assert", "assert_eq", "assert_ne", "ensure"]

def isMethodCall : Expr → Bool
  | .methodCall .. => true
  | _ => false

/-- Compound assignments that count as updates. -/
def isUpdate : BinaryOp → Bool
  | .compound .add | .compound .sub | .compound .mul | .compound .div => true
  | _ => false

/-- An operation found in some code at a place. -/
def operationAt (m : Model) (span : Span) (code : String) (tag : Tag) : Operation where
  line := span.line
  column := span.column
  code := code
  operation := tag.operation
  entity := entityOf code
  ink := m.cost tag.operation tag.category
  category := tag.category
  severity := tag.severity
  percentage := .zero false

/-- The operations that the text of an expression shows. -/
def textOperations (m : Model) (e : Expr) : List Operation :=
  (tagsOf e.render).map (operationAt m e.span e.render)

/-- One operation more, if the structure of an expression shows it. -/
def structural (m : Model) (e : Expr) (shown : Bool) (operation : String) (category : Category) :
    List Operation :=
  if shown then [operationAt m e.span e.render ⟨operation, category, .high⟩] else []

/-- The operation of a macro that is a statement of its own. -/
def macroOperations (m : Model) (e : Expr) (path : String) : List Operation :=
  if guardMacros.contains (lastName path) then
    [operationAt m e.span e.render ⟨"require_check", .controlFlow, .low⟩]
  else []

mutual

def ofExpr (m : Model) : Expr → List Operation
  | .block body _ _ _ => ofBlock m body
  | .ifElse cond thenBlock orElse _ => ofExpr m cond ++ ofBlock m thenBlock ++ ofExpr? m orElse
  | .matchOn scrutinee arms _ => ofExpr m scrutinee ++ ofArms m arms
  | .loop body _ _ => ofBlock m body
  | .whileLoop cond body _ _ => ofExpr m cond ++ ofBlock m body
  | .forLoop _ iter body _ _ => ofExpr m iter ++ ofBlock m body
  | .letCond _ e _ => ofExpr m e
  | .methodCall receiver method turbofish args s =>
    textOperations m (.methodCall receiver method turbofish args s)
      ++ (if isMethodCall receiver then [] else ofExpr m receiver) ++ ofExprs m args
  | .call func args s => textOperations m (.call func args s) ++ ofExpr m func ++ ofExprs m args
  | .binary op left right s =>
    textOperations m (.binary op left right s) ++ ofExpr m left ++ ofExpr m right
      ++ structural m (.binary op left right s) (isUpdate op && looksLikeStorageWrite left)
        "storage_compound_update" .storageWrite
  | .assign left right s =>
    textOperations m (.assign left right s) ++ ofExpr m left ++ ofExpr m right
      ++ structural m (.assign left right s) (looksLikeStorageWrite left) "storage_assign"
        .storageWrite
  | .index base index s =>
    textOperations m (.index base index s) ++ ofExpr m base ++ ofExpr m index
      ++ structural m (.index base index s) (looksLikeStorageAccess base) "storage_index_access"
        .storageRead
  | .field base member s =>
    textOperations m (.field base member s) ++ ofExpr m base
      ++ structural m (.field base member s) (looksLikeStorageAccess base) "storage_field_access"
        .storageRead
  | e => textOperations m e

def ofExprs (m : Model) : List Expr → List Operation
  | [] => []
  | e :: es => ofExpr m e ++ ofExprs m es

def ofExpr? (m : Model) : Option Expr → List Operation
  | none => []
  | some e => ofExpr m e

def ofArm (m : Model) : MatchArm → List Operation
  | ⟨_, guard, body, _⟩ => ofExpr? m guard ++ ofExpr m body

def ofArms (m : Model) : List MatchArm → List Operation
  | [] => []
  | a :: as => ofArm m a ++ ofArms m as

def ofStmt (m : Model) : Stmt → List Operation
  | .letBind _ _ init orElse _ _ => ofExpr? m init ++ ofBlock? m orElse
  | .expr (.invoke path delimiter tokens s) _ _ _ =>
    macroOperations m (.invoke path delimiter tokens s) path
  | .expr e _ _ _ => ofExpr m e
  | .item .. => []
  | .empty _ => []

def ofStmts (m : Model) : List Stmt → List Operation
  | [] => []
  | s :: ss => ofStmt m s ++ ofStmts m ss

def ofBlock (m : Model) : Block → List Operation
  | ⟨stmts, tail, _⟩ => ofStmts m stmts ++ ofExpr? m tail

def ofBlock? (m : Model) : Option Block → List Operation
  | none => []
  | some b => ofBlock m b

end

end InkGauge.Cost
