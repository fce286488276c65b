/-!
Items, statements and expressions are taken apart because costs hang on them. Types, patterns and
attributes are kept as canonical text. Every node records where it was read.
-/

namespace InkGauge.Contract

/-- A stretch of the source: its first offset, the offset behind it, and the line and column of its
first character. -/
structure Span where
  start : Nat
  stop : Nat
  line : Nat
  column : Nat
  deriving DecidableEq, Inhabited

/-- From the start of one span to the end of another, or to its own end if that is farther. -/
def Span.join (a b : Span) : Span := { a with stop := max a.stop b.stop }

/-- A type or a pattern, as canonical text. -/
structure Fragment where
  text : String
  span : Span
  deriving DecidableEq

/-- The last name of a path. -/
def lastName (path : String) : String :=
  let rec go (best : List Char) : List Char → List Char
    | ':' :: ':' :: s => go s (':' :: s)
    | _ :: s => go best s
    | [] => best
  String.ofList (go path.toList path.toList)

/-- An attribute; `path` is its name and `text` the whole of it, as canonical text. -/
structure Attribute where
  path : String
  text : String
  inner : Bool
  span : Span
  deriving DecidableEq

def Attribute.name (a : Attribute) : String := lastName a.path

inductive ArithOp where
  | add | sub | mul | div | rem | bitAnd | bitOr | bitXor | shl | shr
  deriving DecidableEq

inductive BinaryOp where
  | or | and | eq | ne | lt | le | gt | ge
  | arith (op : ArithOp)
  /-- An assignment through an operator, such as `+=`. -/
  | compound (op : ArithOp)
  deriving DecidableEq

inductive UnaryOp where
  | neg | not | deref | ref | refMut | refRef | refRefMut
  deriving DecidableEq

def ArithOp.symbol : ArithOp → String
  | .add => "+" | .sub => "-" | .mul => "*" | .div => "/" | .rem => "%"
  | .bitAnd => "&" | .bitOr => "|" | .bitXor => "^" | .shl => "<<" | .shr => ">>"

def BinaryOp.symbol : BinaryOp → String
  | .or => "||" | .and => "&&" | .eq => "==" | .ne => "!=" | .lt => "<" | .le => "<="
  | .gt => ">" | .ge => ">="
  | .arith op => op.symbol
  | .compound op => op.symbol ++ "="

def UnaryOp.symbol : UnaryOp → String
  | .neg => "-" | .not => "!" | .deref => "*" | .ref => "&" | .refMut => "&mut"
  | .refRef => "&&" | .refRefMut => "&&mut"

/-- The brackets around the arguments of a macro. -/
inductive Delimiter where
  | round | square | curly
  deriving DecidableEq

def Delimiter.opening : Delimiter → String
  | .round => "(" | .square => "[" | .curly => "\x7b"

def Delimiter.closing : Delimiter → String
  | .round => ")" | .square => "]" | .curly => "\x7d"

/-- What stands before the braces of a block expression. -/
inductive BlockKind where
  | plain
  | unchecked
  | async
  deriving DecidableEq

def BlockKind.word : BlockKind → String
  | .plain => "" | .unchecked => "unsafe" | .async => "async"

/-- A parameter of a function: its pattern, or the whole receiver for `self`. -/
structure Param where
  pattern : String
  type : Option Fragment
  isSelf : Bool

/-- Items of which only the text is kept. -/
inductive OtherKind where
  | use | alias | externCrate | externBlock
  deriving DecidableEq

mutual

inductive Expr where
  | lit (text : String) (span : Span)
  | path (segments : List String) (text : String) (span : Span)
  | methodCall (receiver : Expr) (method : String) (turbofish : String) (args : List Expr)
      (span : Span)
  | call (func : Expr) (args : List Expr) (span : Span)
  | field (base : Expr) (member : String) (span : Span)
  | index (base index : Expr) (span : Span)
  | binary (op : BinaryOp) (left right : Expr) (span : Span)
  | assign (left right : Expr) (span : Span)
  | unary (op : UnaryOp) (operand : Expr) (span : Span)
  | cast (expr : Expr) (type : Fragment) (span : Span)
  /-- An expression with a question mark behind it. -/
  | attempt (expr : Expr) (span : Span)
  | await (expr : Expr) (span : Span)
  | paren (inner : Expr) (span : Span)
  | tuple (elems : List Expr) (span : Span)
  | array (elems : List Expr) (span : Span)
  | arrayRepeat (elem length : Expr) (span : Span)
  | structLit (path : String) (fields : List FieldInit) (base : Option Expr) (span : Span)
  /-- The call of a macro, with its arguments as canonical text. -/
  | invoke (path : String) (delimiter : Delimiter) (tokens : String) (span : Span)
  | range (start stop : Option Expr) (inclusive : Bool) (span : Span)
  | closure (params : String) (moves : Bool) (result : Option Fragment) (body : Expr) (span : Span)
  /-- A `let` in a condition. -/
  | letCond (pattern : Fragment) (expr : Expr) (span : Span)
  | block (body : Block) (kind : BlockKind) (label : String) (span : Span)
  | ifElse (cond : Expr) (thenBlock : Block) (orElse : Option Expr) (span : Span)
  | matchOn (scrutinee : Expr) (arms : List MatchArm) (span : Span)
  | loop (body : Block) (label : String) (span : Span)
  | whileLoop (cond : Expr) (body : Block) (label : String) (span : Span)
  | forLoop (pattern : Fragment) (iter : Expr) (body : Block) (label : String) (span : Span)
  | ret (value : Option Expr) (span : Span)
  | brk (label : String) (value : Option Expr) (span : Span)
  | cont (label : String) (span : Span)

/-- A field of a struct literal; without a value it is the shorthand for a variable. -/
structure FieldInit where
  name : String
  value : Option Expr
  span : Span

structure MatchArm where
  pattern : Fragment
  guard : Option Expr
  body : Expr
  span : Span

inductive Stmt where
  | letBind (pattern : Fragment) (type : Option Fragment) (init : Option Expr)
      (orElse : Option Block) (attrs : List Attribute) (span : Span)
  /-- `semi` is false for a block-like statement without a semicolon. -/
  | expr (expr : Expr) (semi : Bool) (attrs : List Attribute) (span : Span)
  | item (item : Item) (span : Span)
  | empty (span : Span)

structure Block where
  stmts : List Stmt
  tail : Option Expr
  span : Span

structure Function where
  name : String
  params : List Param
  result : Option Fragment
  body : Option Block
  /-- The text up to the body, in canonical spacing. -/
  signature : String

inductive ItemKind where
  | function (fn : Function)
  | impl (selfType : Fragment) (trait : Option Fragment) (items : List Item)
  | struct (name : String)
  | enum (name : String)
  | trait (name : String) (items : List Item)
  | const (name : String) (type : Fragment) (value : Option Expr) (isStatic : Bool)
  /-- A module; without items it is declared elsewhere. -/
  | mod (name : String) (items : Option (List Item))
  /-- The call of a macro in place of an item. -/
  | invoke (path : String) (tokens : String)
  | other (kind : OtherKind) (text : String)

structure Item where
  attrs : List Attribute
  visibility : String
  span : Span
  kind : ItemKind

end

/-- A contract as it was read. -/
structure SourceFile where
  attrs : List Attribute
  items : List Item
  text : List Char
  filename : String

def Expr.span : Expr → Span
  | .lit _ s | .path _ _ s | .methodCall _ _ _ _ s | .call _ _ s | .field _ _ s | .index _ _ s
  | .binary _ _ _ s | .assign _ _ s | .unary _ _ s | .cast _ _ s | .attempt _ s | .await _ s
  | .paren _ s | .tuple _ s | .array _ s | .arrayRepeat _ _ s | .structLit _ _ _ s
  | .invoke _ _ _ s | .range _ _ _ s | .closure _ _ _ _ s | .letCond _ _ s | .block _ _ _ s
  | .ifElse _ _ _ s | .matchOn _ _ s | .loop _ _ s | .whileLoop _ _ _ s | .forLoop _ _ _ _ s
  | .ret _ s | .brk _ _ s | .cont _ s => s

def Stmt.span : Stmt → Span
  | .letBind _ _ _ _ _ s | .expr _ _ _ s | .item _ s | .empty s => s

/-- Does the expression own statements of its own? -/
def Expr.isBlockLike : Expr → Bool
  | .block .. | .ifElse .. | .matchOn .. | .loop .. | .whileLoop .. | .forLoop .. => true
  | _ => false

def Item.function? (i : Item) : Option Function :=
  match i.kind with
  | .function fn => some fn
  | _ => none

def Function.hasSelf (fn : Function) : Bool := fn.params.any (·.isSelf)

/-- The items of an inline module. -/
def Item.inner (i : Item) : List Item :=
  match i.kind with
  | .mod _ (some items) => items
  | _ => []

theorem sizeOf_items_append (is js : List Item) :
    sizeOf (is ++ js) + 1 = sizeOf is + sizeOf js := by
  induction is with
  | nil => simp [Nat.add_comm]
  | cons i is ih =>
    simp only [List.cons_append, List.cons.sizeOf_spec]
    omega

theorem Item.sizeOf_inner_le (i : Item) : sizeOf i.inner ≤ sizeOf i := by
  obtain ⟨attrs, visibility, span, kind⟩ := i
  unfold inner
  split
  · rename_i name items heq
    cases heq
    simp only [Item.mk.sizeOf_spec, ItemKind.mod.sizeOf_spec, Option.some.sizeOf_spec]
    omega
  · simp only [List.nil.sizeOf_spec, Item.mk.sizeOf_spec]
    omega

/-- A module is taken off the stack for its items, which are smaller. -/
theorem Item.sizeOf_inner_append_lt (i : Item) (stack : List Item) :
    sizeOf (i.inner ++ stack) < sizeOf (i :: stack) := by
  have happend := sizeOf_items_append i.inner stack
  have hinner := i.sizeOf_inner_le
  simp only [List.cons.sizeOf_spec]
  omega

/-- Takes items off a stack, and puts the items of a module in its place. -/
def walkFrom : List Item → List Item
  | [] => []
  | i :: stack => i :: walkFrom (i.inner ++ stack)
termination_by stack => sizeOf stack
decreasing_by exact i.sizeOf_inner_append_lt stack

/-- Every item of the file and of its inline modules, in source order. -/
def SourceFile.walk (f : SourceFile) : List Item := walkFrom f.items

end InkGauge.Contract
