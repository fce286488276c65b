import InkGauge.Contract.Grammar.Rule

/-!
Patterns. They are recognised, and kept as text.
-/

namespace InkGauge.Contract.Grammar

/-- A bar between two patterns, which is not half of an `||`. -/
def patternBar : P Unit := bare "|" *> .absent (bare "|") *> trivia

def patternBody : (r : PatternRule) → P r.Value
  | .pattern =>
    textOf fragmentOf
      (opt patternBar *> pat .patternNoAlt *> many (patternBar *> pat .patternNoAlt))
  | .patternNoAlt =>
    textOf fragmentOf (pat .rangePattern <|> pat .refPattern <|> pat .tuplePattern
      <|> pat .slicePattern <|> pat .literalPattern <|> void (lex .underscore)
      <|> pat .restPattern <|> pat .structPattern <|> pat .tupleStructPattern
      <|> pat .identPattern <|> pat .pathPattern)
  | .rangePattern => void (pat .rangeBound *> pat .rangePatOp *> opt (pat .rangeBound))
  | .rangePatOp =>
    .symbol [fixed "..=" (), fixed "..." (), fixedUnless "." ".." ()] *> trivia
  | .rangeBound => pat .literalPattern <|> pat .pathPattern
  | .refPattern =>
    void ((bare "&&" <|> bare "&") *> trivia *> opt (kw "mut") *> pat .patternNoAlt)
  | .tuplePattern => sym "(" *> void (commaList0 (pat .pattern)) *> sym ")"
  | .slicePattern => sym "[" *> void (commaList0 (pat .pattern)) *> sym "]"
  | .literalPattern => opt (sym "-") *> void (lex .literal)
  | .restPattern => bare ".." *> .absent (bare "." <|> bare "=") *> trivia
  | .structPattern =>
    pat .pathPattern *> sym "\x7b" *> void (commaList0 (pat .fieldPattern)) *> sym "\x7d"
  | .fieldPattern =>
    skipAttrs *> (pat .restPattern
      <|> ((lex .ident <|> lex .tupleIndex) *> sym ":" *> void (pat .pattern))
      <|> void (opt (kw "ref") *> opt (kw "mut") *> lex .ident))
  | .tupleStructPattern =>
    pat .pathPattern *> sym "(" *> void (commaList0 (pat .pattern)) *> sym ")"
  | .identPattern =>
    void (opt (kw "ref") *> opt (kw "mut") *> lex .ident *> .absent (bare "::") *>
      opt (sym "@" *> pat .patternNoAlt))
  | .pathPattern => void (exp .qualifiedPathExpr <|> exp .plainPathExpr)

end InkGauge.Contract.Grammar
