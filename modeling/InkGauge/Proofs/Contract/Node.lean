import InkGauge.Contract.Tree
import Mathlib.Logic.Relation

namespace InkGauge.Contract

/-- Anything in a tree that has a span. -/
inductive Node where
  | expr (e : Expr)
  | stmt (s : Stmt)
  | block (b : Block)
  | arm (a : MatchArm)
  | field (f : FieldInit)
  | item (i : Item)
  /-- A type or a pattern. -/
  | fragment (f : Fragment)
  | attribute (a : Attribute)

def Node.span : Node → Span
  | .expr e => e.span
  | .stmt s => s.span
  | .block b => b.span
  | .arm a => a.span
  | .field f => f.span
  | .item i => i.span
  | .fragment f => f.span
  | .attribute a => a.span

def Node.exprs (es : List Expr) : List Node := es.map .expr

def Node.expr? (e : Option Expr) : List Node := exprs e.toList

def Node.fragment? (f : Option Fragment) : List Node := f.toList.map .fragment

def Node.block? (b : Option Block) : List Node := b.toList.map .block

def Node.attributes (as : List Attribute) : List Node := as.map .attribute

def Node.items (is : List Item) : List Node := is.map .item

def Expr.children : Expr → List Node
  | .lit .. | .path .. | .invoke .. | .cont .. => []
  | .methodCall receiver _ _ args _ => Node.exprs (receiver :: args)
  | .call func args _ => Node.exprs (func :: args)
  | .field base _ _ => Node.exprs [base]
  | .index base subscript _ => Node.exprs [base, subscript]
  | .binary _ left right _ | .assign left right _ => Node.exprs [left, right]
  | .unary _ e _ | .attempt e _ | .await e _ | .paren e _ => Node.exprs [e]
  | .cast e type _ => [.expr e, .fragment type]
  | .tuple elems _ | .array elems _ => Node.exprs elems
  | .arrayRepeat elem length _ => Node.exprs [elem, length]
  | .structLit _ fields base _ => fields.map .field ++ Node.expr? base
  | .range start stop _ _ => Node.expr? start ++ Node.expr? stop
  | .closure _ _ result body _ => Node.fragment? result ++ [.expr body]
  | .letCond pattern e _ => [.fragment pattern, .expr e]
  | .block body _ _ _ | .loop body _ _ => [.block body]
  | .ifElse cond thenBlock orElse _ => .expr cond :: .block thenBlock :: Node.expr? orElse
  | .matchOn scrutinee arms _ => .expr scrutinee :: arms.map .arm
  | .whileLoop cond body _ _ => [.expr cond, .block body]
  | .forLoop pattern iter body _ _ => [.fragment pattern, .expr iter, .block body]
  | .ret value _ | .brk _ value _ => Node.expr? value

def Stmt.children : Stmt → List Node
  | .letBind pattern type init orElse attrs _ =>
    Node.attributes attrs ++ .fragment pattern :: Node.fragment? type ++ Node.expr? init
      ++ Node.block? orElse
  | .expr e _ attrs _ => Node.attributes attrs ++ [.expr e]
  | .item i _ => [.item i]
  | .empty _ => []

def Param.children (p : Param) : List Node := Node.fragment? p.type

def Function.children (fn : Function) : List Node :=
  fn.params.flatMap Param.children ++ Node.fragment? fn.result ++ Node.block? fn.body

def ItemKind.children : ItemKind → List Node
  | .function fn => fn.children
  | .impl selfType traitType items =>
    Node.fragment? traitType ++ .fragment selfType :: Node.items items
  | .trait _ items | .mod _ (some items) => Node.items items
  | .const _ type value _ => .fragment type :: Node.expr? value
  | .struct _ | .enum _ | .mod _ none | .invoke .. | .other .. => []

/-- What stands directly below a node. -/
def Node.children : Node → List Node
  | .expr e => e.children
  | .stmt s => s.children
  | .block b => b.stmts.map .stmt ++ Node.expr? b.tail
  | .arm a => .fragment a.pattern :: Node.expr? a.guard ++ [.expr a.body]
  | .field f => Node.expr? f.value
  | .item i => Node.attributes i.attrs ++ i.kind.children
  | .fragment _ => []
  | .attribute _ => []

/-- The second node is the first, or stands somewhere below it. -/
def Node.Holds : Node → Node → Prop := Relation.ReflTransGen fun n m => m ∈ n.children

theorem Node.Holds.of_child {n m k : Node} (hm : m ∈ n.children) (h : m.Holds k) : n.Holds k :=
  Relation.ReflTransGen.head hm h

/-- The nodes of a file. -/
inductive SourceFile.Contains (f : SourceFile) : Node → Prop where
  | attr {a : Attribute} (h : a ∈ f.attrs) : f.Contains (.attribute a)
  | item {i : Item} (h : i ∈ f.items) : f.Contains (.item i)
  | child {n m : Node} (h : f.Contains n) (hm : m ∈ n.children) : f.Contains m

/-- The number of the line that holds an offset. -/
def lineAt (text : List Char) (offset : Nat) : Nat := 1 + (text.take offset).count '\n'

/-- The column of an offset, counted from the last line feed before it. -/
def columnAt (text : List Char) (offset : Nat) : Nat :=
  1 + ((text.take offset).reverse.takeWhile (· != '\n')).length

/-- The span is a stretch of the text that is not empty, and its line and column are those of its
first character. -/
structure Span.Marks (s : Span) (text : List Char) : Prop where
  nonempty : s.start < s.stop
  inside : s.stop ≤ text.length
  line : s.line = lineAt text s.start
  column : s.column = columnAt text s.start

def Span.Within (s t : Span) : Prop := t.start ≤ s.start ∧ s.stop ≤ t.stop

/-- `s` ends before `t` starts. -/
def Span.Before (s t : Span) : Prop := s.stop ≤ t.start

/-- The literal that an expression ends with, if its last operand is one. -/
def Expr.lastLiteral? : Expr → Option String
  | .lit text _ => some text
  | .binary _ _ right _ | .assign _ right _ => right.lastLiteral?
  | _ => none

/-- Is the statement a `let`, or an expression with a semicolon that owns no statements? -/
def Stmt.isSimple : Stmt → Bool
  | .letBind .. => true
  | .expr e semi _ _ => semi && !e.isBlockLike
  | _ => false

end InkGauge.Contract
