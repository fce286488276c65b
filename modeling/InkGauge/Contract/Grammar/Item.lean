import InkGauge.Contract.Grammar.Rule

namespace InkGauge.Contract.Grammar

open Peg (Slice)

/-- Without a comma that stands just before a closing bracket. -/
def dropLastCommas : List Char → List Char
  | ',' :: ')' :: s => ')' :: dropLastCommas s
  | c :: s => c :: dropLastCommas s
  | [] => []

/-- The signature of a function, given its text from the visibility on. -/
def signatureOf (s : Slice) (body : Option Block) : String :=
  let upTo := match body with
    | some b => s.chars.take (b.span.start - s.first.offset)
    | none => s.chars
  let ended := ((Text.compact upTo).reverse.dropWhile (· == ';')).reverse
  String.ofList (dropLastCommas (Text.trim ended))

/-- The item with its signature, if it is a function. -/
def ItemKind.signed (s : Slice) : ItemKind → ItemKind
  | .function fn => .function { fn with signature := signatureOf s fn.body }
  | kind => kind

def itemOf (kind : P ItemKind) : P Item :=
  .act (fun s (attrs, visibility, kind) => ⟨attrs, visibility, spanOf s, kind⟩)
    (.both attrs (.act (fun s (visibility, kind) => (visibility.getD "", ItemKind.signed s kind))
      (.both (opt (lex .visibility)) kind)))

/-- An item of which only the text is kept. -/
def otherItem {α : Type} (kind : OtherKind) (p : P α) : P ItemKind :=
  textOf (fun s => .other kind (compactText s)) p

def initializer : P (Option Expr) := opt (sym "=" *> exp (.expr .anywhere))

def members : P (List Item) :=
  sym "\x7b" *> innerAttrs *> many (itm .item) <* sym "\x7d"

def renamed : P Unit := kw "as" *> void (lex .ident <|> lex .underscore)

def itemBody : (r : ItemRule) → P r.Value
  | .file => trivia *> .both (many (lex .innerAttr)) (many (itm .item))
  | .item => itemOf (itm .itemKind)
  | .itemKind =>
    itm .fnItem <|> itm .implItem <|> itm .structItem <|> itm .enumItem <|> itm .traitItem
      <|> itm .constItem <|> itm .staticItem <|> itm .useItem <|> itm .modItem
      <|> itm .typeAlias <|> itm .externCrate <|> itm .externBlock <|> itm .macroItem
  | .stmtItem => itemOf (itm .stmtItemKind)
  | .stmtItemKind =>
    itm .fnItem <|> itm .implItem <|> itm .structItem <|> itm .enumItem <|> itm .traitItem
      <|> itm .constItem <|> itm .staticItem <|> itm .useItem <|> itm .modItem
      <|> itm .typeAlias <|> itm .externCrate
  | .fnItem =>
    (fun name params result body => .function ⟨name, params.getD [], result, body, ""⟩)
      <$> (many (itm .fnQual) *> kw "fn" *> lex .ident <* opt (typ .genericParams))
      <*> (sym "(" *> opt (itm .fnParams) <* sym ")")
      <*> (opt (typ .retType) <* opt (typ .whereClause))
      <*> itm .fnBody
  | .fnQual =>
    kw "const" <|> kw "async" <|> kw "unsafe" <|> (kw "extern" *> void (opt (lex .abi)))
  | .fnBody => (some <$> stm .block) <|> ((fun _ => none) <$> sym ";")
  | .fnParams => commaList (itm .fnParam)
  | .fnParam => skipAttrs *> (itm .selfParam <|> itm .typedParam)
  | .selfParam =>
    textOf (fun s => ⟨compactText s, none, true⟩)
      (opt (sym "&" *> opt (lex .lifetime)) *> opt (kw "mut") *> kw "self"
        *> opt (typ .typeAnnot))
  | .typedParam =>
    (fun pattern type => ⟨pattern.text, some type, false⟩)
      <$> pat .patternNoAlt <*> typ .typeAnnot
  | .implItem =>
    (fun trait selfType items => .impl selfType trait items)
      <$> (opt (kw "unsafe") *> kw "impl" *> opt (typ .genericParams) *> opt (itm .implTrait))
      <*> (typ .type <* opt (typ .whereClause))
      <*> members
  | .implTrait => opt (bare "!") *> trivia *> typ .type <* kw "for"
  | .structItem =>
    .struct <$> (kw "struct" *> lex .ident <* opt (typ .genericParams) <* itm .structBody)
  | .structBody =>
    (opt (typ .whereClause) *> itm .structFields)
      <|> (itm .tupleFields *> opt (typ .whereClause) *> sym ";")
      <|> (opt (typ .whereClause) *> sym ";")
  | .structFields => sym "\x7b" *> void (commaList0 (itm .fieldDef)) *> sym "\x7d"
  | .fieldDef =>
    skipAttrs *> opt (lex .visibility) *> lex .ident *> sym ":" *> void (typ .type)
  | .tupleFields => sym "(" *> void (commaList0 (itm .tupleField)) *> sym ")"
  | .tupleField => skipAttrs *> opt (lex .visibility) *> void (typ .type)
  | .enumItem =>
    .enum <$> (kw "enum" *> lex .ident <* opt (typ .genericParams) <* opt (typ .whereClause)
      <* sym "\x7b" <* commaList0 (itm .variant) <* sym "\x7d")
  | .variant =>
    skipAttrs *> opt (lex .visibility) *> lex .ident
      *> opt (itm .structFields <|> itm .tupleFields) *> void initializer
  | .traitItem =>
    .trait
      <$> (opt (kw "unsafe") *> opt (kw "auto") *> kw "trait" *> lex .ident
        <* opt (typ .genericParams) <* opt (sym ":" *> opt (typ .bounds))
        <* opt (typ .whereClause))
      <*> members
  | .constItem =>
    (fun name type value => .const name type value false)
      <$> (kw "const" *> (lex .ident <|> lex .underscore) <* sym ":")
      <*> typ .type <*> initializer <* sym ";"
  | .staticItem =>
    (fun name type value => .const name type value true)
      <$> (kw "static" *> opt (kw "mut") *> lex .ident <* sym ":")
      <*> typ .type <*> initializer <* sym ";"
  | .useItem => otherItem .use (kw "use" *> itm .useTree *> sym ";")
  | .useTree =>
    (opt (opt (lex .simplePath) *> sym "::") *> (sym "*" <|> itm .useGroup))
      <|> (lex .simplePath *> void (opt (itm .useRename)))
  | .useGroup => sym "\x7b" *> void (commaList0 (itm .useTree)) *> sym "\x7d"
  | .useRename => renamed
  | .modItem =>
    .mod <$> (opt (kw "unsafe") *> kw "mod" *> lex .ident)
      <*> (((fun _ => none) <$> sym ";") <|> (some <$> members))
  | .typeAlias =>
    otherItem .alias (kw "type" *> lex .ident *> opt (typ .genericParams)
      *> opt (sym ":" *> typ .bounds) *> opt (typ .whereClause) *> opt (sym "=" *> typ .type)
      *> opt (typ .whereClause) *> sym ";")
  | .externCrate =>
    otherItem .externCrate (kw "extern" *> kw "crate" *> lex .pathIdent *> opt renamed *> sym ";")
  | .externBlock =>
    otherItem .externBlock (opt (kw "unsafe") *> kw "extern" *> opt (lex .abi)
      *> sym "\x7b" *> many (lex .tree) *> sym "\x7d")
  | .macroItem =>
    (fun path tokens => .invoke path tokens.2)
      <$> (lex .simplePath <* sym "!" <* opt (lex .ident))
      <*> (lex .delimited <* opt (sym ";"))

end InkGauge.Contract.Grammar
