import InkGauge.Contract.Token
import InkGauge.Contract.Tree
import InkGauge.Peg.Basic
import InkGauge.Text.Spacing
import InkGauge.Text.Trivia

/-!
A token takes the white space and the comments behind it along, except the semicolon that ends a
statement, so that a statement ends on its semicolon.
-/

namespace InkGauge.Contract.Grammar

/-- Where an expression stands. Before a block, as in the condition of an `if`, an opening brace
starts the block and no struct literal; brackets of any kind lift the restriction. -/
inductive Place where
  | anywhere
  | beforeBlock
  deriving DecidableEq

/-- Words, literals, comments, attributes and token trees. -/
inductive LexRule where
  | trivia | blockComment
  | literal | rawString | stringLit | charLit | number | truth | abi
  | lifetime | pathIdent | ident | underscore | reserved | tupleIndex
  | word (w : List Char)
  | simplePath
  | outerAttr | innerAttr | visibility | visScope
  | tree | looseToken | delimited | roundTree | squareTree | curlyTree
  deriving DecidableEq

/-- Types, generic parameters and bounds. -/
inductive TypeRule where
  | genericParams | genericParam | lifetimeParam | constParam | typeParam
  | whereClause | wherePred | forLifetimes | bounds | bound
  | type | typeNoBounds | refType | ptrType | tupleType | arrayType | fnPtrType | fnPtrParam
  | neverType | implTraitType | dynType | qualifiedPathType | qself | pathType | typeSegment
  | fnSugar | genericArgs | genericArg | assocBinding
  | typeAnnot | retType
  deriving DecidableEq

inductive PatternRule where
  | pattern | patternNoAlt | rangePattern | rangePatOp | rangeBound | refPattern | tuplePattern
  | slicePattern | literalPattern | restPattern | structPattern | fieldPattern
  | tupleStructPattern | identPattern | pathPattern
  deriving DecidableEq

inductive ItemRule where
  | file | item | itemKind | stmtItem | stmtItemKind
  | fnItem | fnQual | fnBody | fnParams | fnParam | selfParam | typedParam
  | implItem | implTrait
  | structItem | structBody | structFields | fieldDef | tupleFields | tupleField
  | enumItem | variant | traitItem | constItem | staticItem
  | useItem | useTree | useGroup | useRename
  | modItem | typeAlias | externCrate | externBlock | macroItem
  deriving DecidableEq

inductive StmtRule where
  | block | stmtSeq | stmtWs | stmt | emptyStmt | letStmt | letInit | letElse | blockStmt
  | exprStmt | blockTail
  deriving DecidableEq

inductive ExprRule where
  | expr (p : Place) | rangeExpr (p : Place) | rangeFull (p : Place) | orExpr (p : Place)
  | andExpr (p : Place) | cmpExpr (p : Place) | bitorExpr (p : Place) | bitxorExpr (p : Place)
  | bitandExpr (p : Place) | shiftExpr (p : Place) | addExpr (p : Place) | mulExpr (p : Place)
  | castExpr (p : Place) | unaryExpr (p : Place) | postfixExpr (p : Place) | primary (p : Place)
  | assignOp | rangeOp | orOp | andOp | cmpOp | bitorOp | bitxorOp | bitandOp | shiftOp | addOp
  | mulOp | unaryOp
  | postfixOp | methodCallOp | turbofish | awaitOp | fieldOp | callOp | indexOp | tryOp | exprList
  | closure | closureParams | closureParam | closureBody
  | blockLike | ifExpr | elseBranch | cond | letChain | letCond | matchExpr | matchArm
  | matchGuard | armBody | armEnd | loopExpr | whileExpr | forExpr | uncheckedBlock | asyncBlock
  | blockExpr | label
  | macroCall | structLit | structLitBody | structField | structBase
  | pathExpr | qualifiedPathExpr | plainPathExpr | exprSegment
  | unitExpr | parenExpr | tupleExpr | arrayExpr | arrayBody | arrayRepeat
  | returnExpr | breakExpr | continueExpr
  deriving DecidableEq

inductive Rule where
  | lex (r : LexRule)
  | type (r : TypeRule)
  | pattern (r : PatternRule)
  | item (r : ItemRule)
  | stmt (r : StmtRule)
  | expr (r : ExprRule)
  deriving DecidableEq

/-- A path before it is known to be an expression of its own. -/
structure PathRef where
  segments : List String
  text : String
  span : Span

/-- What is written behind an operand. -/
inductive PostfixOp where
  | method (name turbofish : String) (args : List Expr)
  | await
  | field (member : String)
  | call (args : List Expr)
  | index (index : Expr)
  | attempt

/-- A postfix operator and the offset behind it. -/
structure Postfix where
  op : PostfixOp
  stop : Nat

/-- The inside of square brackets. -/
inductive ArrayBody where
  | list (elems : List Expr)
  | copies (elem length : Expr)

abbrev LexRule.Value : LexRule → Type
  | .literal => Expr
  | .lifetime | .pathIdent | .ident | .underscore | .tupleIndex | .simplePath
  | .visibility => String
  | .outerAttr | .innerAttr => Attribute
  | .delimited | .roundTree | .squareTree | .curlyTree => Delimiter × String
  | _ => Unit

abbrev TypeRule.Value : TypeRule → Type
  | .type | .typeNoBounds | .typeAnnot | .retType => Fragment
  | _ => Unit

abbrev PatternRule.Value : PatternRule → Type
  | .pattern | .patternNoAlt => Fragment
  | _ => Unit

abbrev ItemRule.Value : ItemRule → Type
  | .file => List Attribute × List Item
  | .item | .stmtItem => Item
  | .itemKind | .stmtItemKind => ItemKind
  | .fnItem | .implItem | .structItem | .enumItem | .traitItem | .constItem | .staticItem
  | .useItem | .modItem | .typeAlias | .externCrate | .externBlock | .macroItem => ItemKind
  | .fnBody => Option Block
  | .fnParams => List Param
  | .fnParam | .selfParam | .typedParam => Param
  | .implTrait => Fragment
  | _ => Unit

abbrev StmtRule.Value : StmtRule → Type
  | .block | .letElse => Block
  | .stmtSeq => List Stmt × Option Expr
  | .stmtWs | .stmt | .emptyStmt | .letStmt | .blockStmt | .exprStmt => Stmt
  | .letInit => Expr × Option Block
  | .blockTail => Expr

abbrev ExprRule.Value : ExprRule → Type
  | .assignOp => Option ArithOp
  | .rangeOp => Bool
  | .orOp | .andOp | .cmpOp | .bitorOp | .bitxorOp | .bitandOp | .shiftOp | .addOp
  | .mulOp => BinaryOp
  | .unaryOp => UnaryOp
  | .postfixOp | .methodCallOp | .awaitOp | .fieldOp | .callOp | .indexOp | .tryOp => Postfix
  | .turbofish | .closureParams | .label | .exprSegment => String
  | .exprList => List Expr
  | .closureParam | .armEnd => Unit
  | .closureBody => Option Fragment × Expr
  | .matchArm => MatchArm
  | .structLitBody => List FieldInit × Option Expr
  | .structField => FieldInit
  | .pathExpr | .qualifiedPathExpr | .plainPathExpr => PathRef
  | .arrayBody => ArrayBody
  | .arrayRepeat => Expr × Expr
  | _ => Expr

abbrev Rule.Value : Rule → Type
  | .lex r => r.Value
  | .type r => r.Value
  | .pattern r => r.Value
  | .item r => r.Value
  | .stmt r => r.Value
  | .expr r => r.Value

abbrev P (α : Type) := Peg.Expression Token Rule Rule.Value α

open Peg (Slice)

def offsetBehind (s : Slice) : Nat := s.first.offset + (Text.trimRight s.chars).length

/-- The span of the slice without the blanks at its end. -/
def spanOf (s : Slice) : Span := ⟨s.first.offset, offsetBehind s, s.first.line, s.first.column⟩

def exactSpan (s : Slice) : Span := ⟨s.first.offset, s.stop, s.first.line, s.first.column⟩

def bareText (s : Slice) : String := String.ofList (Text.stripTrivia s.chars)

def gluedText (s : Slice) : String := String.ofList (Text.squeeze (Text.stripTrivia s.chars))

def compactText (s : Slice) : String := String.ofList (Text.compact s.chars)

def fragmentOf (s : Slice) : Fragment := ⟨compactText s, spanOf s⟩

def lex (r : LexRule) : P r.Value := .rule (Rule.lex r)
def typ (r : TypeRule) : P r.Value := .rule (Rule.type r)
def pat (r : PatternRule) : P r.Value := .rule (Rule.pattern r)
def itm (r : ItemRule) : P r.Value := .rule (Rule.item r)
def stm (r : StmtRule) : P r.Value := .rule (Rule.stmt r)
def exp (r : ExprRule) : P r.Value := .rule (Rule.expr r)

def trivia : P Unit := lex .trivia

/-- A fixed text with nothing behind it. -/
def bare (s : String) : P Unit := .text s.toList

/-- A fixed text and the trivia behind it. -/
def sym (s : String) : P Unit := bare s <* trivia

def kw (w : String) : P Unit := lex (.word w.toList)

def opt {α : Type} (p : P α) : P (Option α) := .option p

def many {α : Type} (p : P α) : P (List α) := .many p

/-- The value of `p`, thrown away. -/
def void {α : Type} (p : P α) : P Unit := .act (fun _ _ => ()) p

/-- The text that `p` read, through `f`. -/
def textOf {α β : Type} (f : Slice → β) (p : P α) : P β := .act (fun s _ => f s) p

/-- One or more of `p` with commas between them, and perhaps one at the end. -/
def commaList {α : Type} (p : P α) : P (List α) :=
  (fun a as => a :: as) <$> p <*> many (sym "," *> p) <* opt (sym ",")

/-- As `commaList`, but there may be none. -/
def commaList0 {α : Type} (p : P α) : P (List α) := (·.getD []) <$> opt (commaList p)

/-- One or more of `p` with `sep` between them, of which nothing is kept. -/
def separated {α : Type} (sep : String) (p : P α) : P Unit := void (p *> many (sym sep *> p))

def fixed {α : Type} (spelling : String) (value : α) : Peg.Symbol α :=
  ⟨spelling.toList, [], value⟩

/-- A spelling that none of the characters of `barred` may continue. -/
def fixedUnless {α : Type} (barred spelling : String) (value : α) : Peg.Symbol α :=
  ⟨spelling.toList, barred.toList, value⟩

def attrs : P (List Attribute) := many (lex .outerAttr)

def skipAttrs : P Unit := void attrs

def innerAttrs : P Unit := void (many (lex .innerAttr))

end InkGauge.Contract.Grammar
