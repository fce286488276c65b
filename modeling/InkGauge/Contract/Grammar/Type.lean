import InkGauge.Contract.Grammar.Rule

/-!
Types, generic parameters and bounds. They are recognised, and kept as text.
-/

namespace InkGauge.Contract.Grammar

def typeBody : (r : TypeRule) → P r.Value
  | .genericParams => sym "<" *> void (commaList0 (typ .genericParam)) *> sym ">"
  | .genericParam =>
    skipAttrs *> (typ .lifetimeParam <|> typ .constParam <|> typ .typeParam)
  | .lifetimeParam =>
    void (lex .lifetime *> opt (sym ":" *> separated "+" (lex .lifetime)))
  | .constParam =>
    void (kw "const" *> lex .ident *> sym ":" *> typ .type *>
      opt (sym "=" *> (void (stm .block) <|> void (lex .literal) <|> typ .pathType)))
  | .typeParam =>
    void (lex .ident *> opt (sym ":" *> opt (typ .bounds)) *> opt (sym "=" *> typ .type))
  | .whereClause => kw "where" *> void (commaList0 (typ .wherePred))
  | .wherePred =>
    (lex .lifetime *> sym ":" *> separated "+" (lex .lifetime))
      <|> void (opt (typ .forLifetimes) *> typ .type *> sym ":" *> opt (typ .bounds))
  | .forLifetimes => kw "for" *> typ .genericParams
  | .bounds => separated "+" (typ .bound)
  | .bound =>
    void (lex .lifetime) <|> (sym "(" *> typ .bound *> sym ")")
      <|> (sym "?" *> opt (typ .forLifetimes) *> typ .pathType)
      <|> (opt (typ .forLifetimes) *> typ .pathType)
  | .type =>
    textOf fragmentOf (typ .implTraitType <|> typ .dynType <|> void (typ .typeNoBounds))
  | .typeNoBounds =>
    textOf fragmentOf (typ .refType <|> typ .ptrType <|> typ .tupleType <|> typ .arrayType
      <|> typ .fnPtrType <|> typ .neverType <|> void (lex .underscore)
      <|> typ .qualifiedPathType <|> typ .pathType)
  | .refType => void (sym "&" *> opt (lex .lifetime) *> opt (kw "mut") *> typ .type)
  | .ptrType => void (sym "*" *> (kw "const" <|> kw "mut") *> typ .typeNoBounds)
  | .tupleType => sym "(" *> void (commaList0 (typ .type)) *> sym ")"
  | .arrayType =>
    sym "[" *> void (typ .type *> opt (sym ";" *> exp (.expr .anywhere))) *> sym "]"
  | .fnPtrType =>
    void (opt (typ .forLifetimes) *> opt (kw "unsafe") *> opt (kw "extern" *> opt (lex .abi)) *>
      kw "fn" *> sym "(" *> commaList0 (typ .fnPtrParam) *> sym ")" *> opt (typ .retType))
  | .fnPtrParam => void (opt (lex .ident *> sym ":") *> typ .type)
  | .neverType => sym "!"
  | .implTraitType => kw "impl" *> typ .bounds
  | .dynType => kw "dyn" *> typ .bounds
  | .qualifiedPathType => typ .qself *> void (.many1 (sym "::" *> typ .typeSegment))
  | .qself => sym "<" *> void (typ .type *> opt (kw "as" *> typ .type)) *> sym ">"
  | .pathType => opt (sym "::") *> separated "::" (typ .typeSegment)
  | .typeSegment =>
    void (lex .pathIdent *> opt (opt (sym "::") *> typ .genericArgs) *> opt (typ .fnSugar))
  | .fnSugar =>
    void (sym "(" *> commaList0 (typ .type) *> sym ")" *> opt (typ .retType))
  | .genericArgs => sym "<" *> void (commaList0 (typ .genericArg)) *> sym ">"
  | .genericArg =>
    void (lex .lifetime) <|> typ .assocBinding <|> void (typ .type) <|> void (stm .block)
      <|> void (lex .literal) <|> (sym "-" *> void (lex .literal))
  | .assocBinding =>
    lex .ident *> opt (typ .genericArgs) *>
      ((bare "=" *> .absent (bare "=") *> trivia *> void (typ .type)) <|>
        (sym ":" *> typ .bounds))
  | .typeAnnot => sym ":" *> typ .type
  | .retType =>
    -- The text leaves out the arrow, the span has it.
    textOf (fun s => ⟨String.ofList (Text.compact (s.chars.drop 2)), spanOf s⟩)
      (sym "->" *> typ .type)

end InkGauge.Contract.Grammar
