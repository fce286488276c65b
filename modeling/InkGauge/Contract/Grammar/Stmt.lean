import InkGauge.Contract.Grammar.Rule

namespace InkGauge.Contract.Grammar

def stmtBody : (r : StmtRule) → P r.Value
  | .block =>
    .act (fun s (stmts, tail) => ⟨stmts, tail, spanOf s⟩)
      (sym "\x7b" *> innerAttrs *> stm .stmtSeq <* sym "\x7d")
  | .stmtSeq => .both (many (stm .stmtWs)) (opt (stm .blockTail))
  | .stmtWs => stm .stmt <* trivia
  | .stmt =>
    stm .emptyStmt <|> (Peg.Expression.act (fun s i => Stmt.item i (spanOf s)) (itm .stmtItem))
      <|> stm .letStmt <|> stm .blockStmt <|> stm .exprStmt
  | .emptyStmt => textOf (fun s => .empty (spanOf s)) (bare ";")
  | .letStmt =>
    .act (fun s (attrs, pattern, type, init) =>
        .letBind pattern type (init.map Prod.fst) (init.bind Prod.snd) attrs (spanOf s))
      (.both (attrs <* kw "let")
        (.both (pat .pattern) (.both (opt (typ .typeAnnot)) (opt (stm .letInit) <* bare ";"))))
  | .letInit => .both (sym "=" *> exp (.expr .anywhere)) (opt (stm .letElse))
  | .letElse => kw "else" *> stm .block
  | .blockStmt =>
    .act (fun s (attrs, expr, semi) => .expr expr semi.isSome attrs (spanOf s))
      (.both attrs (.both (exp .blockLike <* .absent (bare "." <|> bare "?")) (opt (bare ";"))))
  | .exprStmt =>
    .act (fun s (attrs, expr) => .expr expr true attrs (spanOf s))
      (.both attrs (exp (.expr .anywhere) <* bare ";"))
  | .blockTail => skipAttrs *> exp (.expr .anywhere)

end InkGauge.Contract.Grammar
