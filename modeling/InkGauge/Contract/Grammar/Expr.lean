import InkGauge.Contract.Grammar.Rule

/-!
Operators of one level associate to the left, comparisons not at all, assignments to the right. The
levels are told apart by what may not follow an operator: a `<` is none before a second `<` or
a `=`.
-/

namespace InkGauge.Contract.Grammar

open Peg (Slice)

/-- Applies the operators of one level from the left. -/
def foldBinary : Expr → List (BinaryOp × Expr) → Expr
  | left, [] => left
  | left, (op, right) :: rest =>
    foldBinary (.binary op left right (left.span.join right.span)) rest

/-- One level of operators that associate to the left. -/
def leftLevel (operand : P Expr) (op : P BinaryOp) : P Expr :=
  foldBinary <$> operand <*> many (.both (op <* trivia) operand)

def foldCasts : Expr → List Fragment → Expr
  | e, [] => e
  | e, type :: rest => foldCasts (.cast e type (e.span.join type.span)) rest

/-- Applies postfix operators; each result reaches from the operand's start to its operator's
end. -/
def foldPostfix (first : Span) : Expr → List Postfix → Expr
  | e, [] => e
  | e, p :: rest =>
    let span := { first with stop := p.stop }
    let e := match p.op with
      | .method name turbofish args => .methodCall e name turbofish args span
      | .await => .await e span
      | .field member => .field e member span
      | .call args => .call e args span
      | .index i => .index e i span
      | .attempt => .attempt e span
    foldPostfix first e rest

def assignment (left : Expr) : Option (Option ArithOp × Expr) → Expr
  | none => left
  | some (none, right) => .assign left right (left.span.join right.span)
  | some (some op, right) => .binary (.compound op) left right (left.span.join right.span)

def referenceOp (double : Bool) (mutable : Option Unit) : UnaryOp :=
  match double, mutable with
  | true, some _ => .refRefMut
  | true, none => .refRef
  | false, some _ => .refMut
  | false, none => .ref

def postfixOf (p : P PostfixOp) : P Postfix := .act (fun s op => ⟨op, offsetBehind s⟩) p

/-- The name of a label, without its colon. -/
def labelText (s : Slice) : String :=
  String.ofList (Text.trim ((Text.stripTrivia s.chars).reverse.dropWhile (· == ':')).reverse)

def exprs : P (List Expr) := (·.getD []) <$> opt (exp .exprList)

def labelled : P String := (·.getD "") <$> opt (exp .label)

/-- The operands that can stand anywhere. A struct literal is tried before the path it starts
with. -/
def primaries (structs : P Expr → P Expr) : P Expr :=
  lex .literal <|> exp .returnExpr <|> exp .breakExpr <|> exp .continueExpr <|> exp .closure
    <|> exp .blockLike <|> exp .macroCall
    <|> structs (((fun p : PathRef => Expr.path p.segments p.text p.span) <$> exp .pathExpr)
      <|> exp .unitExpr <|> exp .parenExpr <|> exp .tupleExpr <|> exp .arrayExpr)

def exprBody : (r : ExprRule) → P r.Value
  | .expr p =>
    assignment <$> exp (.rangeExpr p)
      <*> opt (.both (exp .assignOp <* trivia) (exp (.expr p)))
  | .rangeExpr p => exp (.rangeFull p) <|> exp (.orExpr p)
  | .rangeFull p =>
    .act (fun s (start, inclusive, stop) => .range start stop inclusive (spanOf s))
      (.both (opt (exp (.orExpr p)))
        (.both (exp .rangeOp <* trivia) (opt (exp (.orExpr p)))))
  | .orExpr p => leftLevel (exp (.andExpr p)) (exp .orOp)
  | .andExpr p => leftLevel (exp (.cmpExpr p)) (exp .andOp)
  | .cmpExpr p =>
    (fun left rest => foldBinary left rest.toList) <$> exp (.bitorExpr p)
      <*> opt (.both (exp .cmpOp <* trivia) (exp (.bitorExpr p)))
  | .bitorExpr p => leftLevel (exp (.bitxorExpr p)) (exp .bitorOp)
  | .bitxorExpr p => leftLevel (exp (.bitandExpr p)) (exp .bitxorOp)
  | .bitandExpr p => leftLevel (exp (.shiftExpr p)) (exp .bitandOp)
  | .shiftExpr p => leftLevel (exp (.addExpr p)) (exp .shiftOp)
  | .addExpr p => leftLevel (exp (.mulExpr p)) (exp .addOp)
  | .mulExpr p => leftLevel (exp (.castExpr p)) (exp .mulOp)
  | .castExpr p =>
    foldCasts <$> exp (.unaryExpr p) <*> many (kw "as" *> typ .typeNoBounds)
  | .unaryExpr p =>
    (.act (fun s (op, operand) => .unary op operand (spanOf s))
        (.both (exp .unaryOp) (exp (.unaryExpr p))))
      <|> exp (.postfixExpr p)
  | .postfixExpr p =>
    (fun e ops => foldPostfix e.span e ops) <$> exp (.primary p) <*> many (exp .postfixOp)
  | .primary .anywhere => primaries (exp .structLit <|> ·)
  | .primary .beforeBlock => primaries id
  | .assignOp =>
    .symbol [fixed "<<=" (some .shl), fixed ">>=" (some .shr), fixed "+=" (some .add),
      fixed "-=" (some .sub), fixed "*=" (some .mul), fixed "/=" (some .div),
      fixed "%=" (some .rem), fixed "^=" (some .bitXor), fixed "&=" (some .bitAnd),
      fixed "|=" (some .bitOr), fixedUnless "=>" "=" none]
  | .rangeOp => .symbol [fixed "..=" true, fixedUnless ".=" ".." false]
  | .orOp => .symbol [fixed "||" .or]
  | .andOp => .symbol [fixed "&&" .and]
  | .cmpOp =>
    .symbol [fixed "==" .eq, fixed "!=" .ne, fixed "<=" .le, fixed ">=" .ge,
      fixedUnless "<=" "<" .lt, fixedUnless ">=" ">" .gt]
  | .bitorOp => .symbol [fixedUnless "|=" "|" (.arith .bitOr)]
  | .bitxorOp => .symbol [fixedUnless "=" "^" (.arith .bitXor)]
  | .bitandOp => .symbol [fixedUnless "&=" "&" (.arith .bitAnd)]
  | .shiftOp => .symbol [fixedUnless "=" "<<" (.arith .shl), fixedUnless "=" ">>" (.arith .shr)]
  | .addOp => .symbol [fixedUnless "=>" "+" (.arith .add), fixedUnless "=>" "-" (.arith .sub)]
  | .mulOp =>
    .symbol [fixedUnless "=" "*" (.arith .mul), fixedUnless "=" "/" (.arith .div),
      fixedUnless "=" "%" (.arith .rem)]
  | .unaryOp =>
    (referenceOp <$> (.symbol [fixed "&&" true, fixed "&" false] <* trivia) <*> opt (kw "mut"))
      <|> (.symbol [fixed "-" .neg, fixed "!" .not, fixed "*" .deref] <* trivia)
  | .postfixOp =>
    exp .methodCallOp <|> exp .awaitOp <|> exp .fieldOp <|> exp .callOp <|> exp .indexOp
      <|> exp .tryOp
  | .methodCallOp =>
    postfixOf ((fun name turbofish args => .method name (turbofish.getD "") args)
      <$> (sym "." *> lex .ident) <*> opt (exp .turbofish) <*> (sym "(" *> exprs <* sym ")"))
  | .turbofish => textOf compactText (sym "::" *> typ .genericArgs)
  | .awaitOp => postfixOf ((fun _ => .await) <$> (sym "." *> kw "await"))
  | .fieldOp => postfixOf (.field <$> (sym "." *> (lex .ident <|> lex .tupleIndex)))
  | .callOp => postfixOf (.call <$> (sym "(" *> exprs <* sym ")"))
  | .indexOp => postfixOf (.index <$> (sym "[" *> exp (.expr .anywhere) <* sym "]"))
  | .tryOp => postfixOf ((fun _ => .attempt) <$> sym "?")
  | .exprList => commaList (exp (.expr .anywhere))
  | .closure =>
    .act (fun s (moves, params, result, body) =>
        .closure params (Option.isSome moves) result body (spanOf s))
      (opt (kw "async") *> .both (opt (kw "move"))
        (.both (exp .closureParams) (exp .closureBody)))
  | .closureParams =>
    textOf compactText (sym "||" <|>
      (sym "|" *> void (commaList0 (exp .closureParam)) *> sym "|"))
  | .closureParam => skipAttrs *> pat .patternNoAlt *> void (opt (typ .typeAnnot))
  | .closureBody =>
    ((fun result (b : Block) => (some result, .block b .plain "" b.span))
        <$> typ .retType <*> stm .block)
      <|> ((fun e => (none, e)) <$> exp (.expr .anywhere))
  | .blockLike =>
    exp .ifExpr <|> exp .matchExpr <|> exp .loopExpr <|> exp .whileExpr <|> exp .forExpr
      <|> exp .uncheckedBlock <|> exp .asyncBlock <|> exp .blockExpr
  | .ifExpr =>
    .act (fun s (cond, thenBlock, orElse) => .ifElse cond thenBlock orElse (spanOf s))
      (kw "if" *> .both (exp .cond) (.both (stm .block) (opt (exp .elseBranch))))
  | .elseBranch => kw "else" *> (exp .ifExpr <|> exp .blockExpr)
  | .cond => exp .letChain <|> exp (.expr .beforeBlock)
  | .letChain =>
    foldBinary <$> exp .letCond
      <*> many (.both (exp .andOp <* trivia) (exp .letCond <|> exp (.cmpExpr .beforeBlock)))
  | .letCond =>
    .act (fun s (pattern, e) => .letCond pattern e (spanOf s))
      (kw "let" *> .both (pat .pattern) (sym "=" *> exp (.cmpExpr .beforeBlock)))
  | .matchExpr =>
    .act (fun s (scrutinee, arms) => .matchOn scrutinee arms (spanOf s))
      (kw "match" *> .both (exp (.expr .beforeBlock))
        (sym "\x7b" *> innerAttrs *> many (exp .matchArm) <* sym "\x7d"))
  | .matchArm =>
    .act (fun s (pattern, guard, body) => ⟨pattern, guard, body, spanOf s⟩)
      (skipAttrs *> .both (pat .pattern)
        (.both (opt (exp .matchGuard)) (sym "=>" *> exp .armBody)))
  | .matchGuard => kw "if" *> exp (.expr .anywhere)
  | .armBody =>
    (exp (.expr .anywhere) <* exp .armEnd) <|> (exp .blockLike <* opt (sym ","))
  | .armEnd => sym "," <|> .ahead (bare "\x7d")
  | .loopExpr =>
    .act (fun s (label, body) => .loop body label (spanOf s))
      (.both (labelled <* kw "loop") (stm .block))
  | .whileExpr =>
    .act (fun s (label, cond, body) => .whileLoop cond body label (spanOf s))
      (.both (labelled <* kw "while") (.both (exp .cond) (stm .block)))
  | .forExpr =>
    .act (fun s (label, pattern, iter, body) => .forLoop pattern iter body label (spanOf s))
      (.both (labelled <* kw "for") (.both (pat .pattern <* kw "in")
        (.both (exp (.expr .beforeBlock)) (stm .block))))
  | .uncheckedBlock =>
    .act (fun s body => .block body .unchecked "" (spanOf s)) (kw "unsafe" *> stm .block)
  | .asyncBlock =>
    .act (fun s body => .block body .async "" (spanOf s))
      (kw "async" *> opt (kw "move") *> stm .block)
  | .blockExpr =>
    .act (fun s (label, body) => .block body .plain label (spanOf s))
      (.both labelled (stm .block))
  | .label => textOf labelText (lex .lifetime *> sym ":")
  | .macroCall =>
    .act (fun s (path, delimiter, tokens) => .invoke path delimiter tokens (spanOf s))
      (.both (lex .simplePath <* sym "!") (lex .delimited))
  | .structLit =>
    .act (fun s (path, fields, base) => .structLit path.text fields base (spanOf s))
      (.both (exp .pathExpr) (sym "\x7b" *> exp .structLitBody <* sym "\x7d"))
  | .structLitBody => .both (commaList0 (exp .structField)) (opt (exp .structBase))
  | .structField =>
    .act (fun s (name, value) => ⟨name, value, spanOf s⟩)
      (skipAttrs *> (.both ((lex .ident <|> lex .tupleIndex) <* sym ":")
          (some <$> exp (.expr .anywhere))
        <|> ((fun name => (name, none)) <$> lex .ident)))
  | .structBase => sym ".." *> exp (.expr .anywhere)
  | .pathExpr => exp .qualifiedPathExpr <|> exp .plainPathExpr
  | .qualifiedPathExpr =>
    .act (fun s segments => ⟨segments, compactText s, spanOf s⟩)
      (typ .qself *> .many1 (sym "::" *> exp .exprSegment))
  | .plainPathExpr =>
    .act (fun s (first, rest) => ⟨first :: rest, gluedText s, spanOf s⟩)
      (opt (sym "::") *> .both (exp .exprSegment) (many (sym "::" *> exp .exprSegment)))
  | .exprSegment => lex .pathIdent <* opt (exp .turbofish)
  | .unitExpr => textOf (fun s => .tuple [] (spanOf s)) (sym "(" *> sym ")")
  | .parenExpr =>
    .act (fun s e => .paren e (spanOf s)) (sym "(" *> exp (.expr .anywhere) <* sym ")")
  | .tupleExpr =>
    .act (fun s (first, rest) => .tuple (first :: rest) (spanOf s))
      (.both (sym "(" *> exp (.expr .anywhere) <* sym ",") (exprs <* sym ")"))
  | .arrayExpr =>
    .act (fun s body =>
        match body with
        | none => .array [] (spanOf s)
        | some (.list elems) => .array elems (spanOf s)
        | some (.copies elem length) => .arrayRepeat elem length (spanOf s))
      (sym "[" *> opt (exp .arrayBody) <* sym "]")
  | .arrayBody =>
    ((fun (elem, length) => .copies elem length) <$> exp .arrayRepeat)
      <|> (.list <$> exp .exprList)
  | .arrayRepeat => .both (exp (.expr .anywhere) <* sym ";") (exp (.expr .anywhere))
  | .returnExpr =>
    .act (fun s value => .ret value (spanOf s)) (kw "return" *> opt (exp (.expr .anywhere)))
  | .breakExpr =>
    .act (fun s (label, value) => .brk (label.getD "") value (spanOf s))
      (kw "break" *> .both (opt (lex .lifetime)) (opt (exp (.expr .anywhere))))
  | .continueExpr =>
    .act (fun s label => .cont (label.getD "") (spanOf s)) (kw "continue" *> opt (lex .lifetime))

end InkGauge.Contract.Grammar
