import InkGauge.Contract.Grammar.Rule

namespace InkGauge.Contract.Grammar

open Text
open Peg (Slice)

/-- The identifier that a text starts with, and the text behind it. -/
def takeName? : List Char → Option (List Char × List Char)
  | c :: s =>
    if isIdentStart c then some (c :: s.takeWhile isIdentPart, s.dropWhile isIdentPart) else none
  | [] => none

/-- The further names of a path, each with the `::` before it; there are at most `n`. -/
def takeFurtherNames : Nat → List Char → List Char
  | 0, _ => []
  | n + 1, s =>
    match (dropPrefix? [':', ':'] (trimLeft s)).bind fun rest => takeName? (trimLeft rest) with
    | some (name, rest) => ':' :: ':' :: name ++ takeFurtherNames n rest
    | none => []

/-- The path that a text starts with, without blanks. -/
def takePath? (s : List Char) : Option (List Char) :=
  (takeName? s).map fun (name, rest) => name ++ takeFurtherNames rest.length rest

/-- The start of an attribute, up to its path. -/
def attributeStart : Ways :=
  (Ways.text "#").next ((Ways.run isBlank).next ((Ways.text "!").opt.next
    ((Ways.run isBlank).next ((Ways.text "[").next (Ways.run isBlank)))))

/-- The wrapper that may stand around the path. -/
def unsafeWrapper : Ways :=
  (Ways.text "unsafe").next ((Ways.run isBlank).next ((Ways.text "(").next (Ways.run isBlank)))

/-- The path of an attribute, given its text; there is none if a name is missing. -/
def attributePath (text : List Char) : String :=
  match ((attributeStart.next unsafeWrapper.opt) text).findSome? takePath? with
  | some path => String.ofList path
  | none => ""

def attributeOf (inner : Bool) (p : P Unit) : P Attribute :=
  .act (fun s text => ⟨attributePath text, String.ofList text, inner, spanOf s⟩)
    (textOf (fun s => compact s.chars) p <* trivia)

def inBrackets (opening closing : String) (d : Delimiter) : P (Delimiter × String) :=
  sym opening *> textOf (fun s => (d, String.ofList (compactTokens s.chars))) (many (lex .tree))
    <* sym closing

def lexBody : (r : LexRule) → P r.Value
  | .trivia => void (many (.token .gap <|> lex .blockComment))
  | .blockComment =>
    bare "/*" *> void (many (lex .blockComment <|> .token .commentText)) *> bare "*/"
  | .literal =>
    textOf (fun s => Expr.lit (String.ofList s.chars) (exactSpan s))
      (lex .rawString <|> lex .stringLit <|> lex .charLit <|> lex .number <|> lex .truth) <* trivia
  | .rawString => .token .rawString
  | .stringLit => .token .string
  | .charLit => .token .character
  | .number => .token .number
  | .truth => .token .truth
  | .abi => lex .stringLit *> trivia
  | .lifetime => textOf bareText (.token .lifetime *> trivia)
  | .pathIdent => textOf bareText ((.token .selfWord *> trivia) <|> void (lex .ident))
  | .ident => textOf bareText (.absent (lex .reserved) *> .token .name *> trivia)
  | .underscore => textOf bareText (.token .underscore *> trivia)
  | .reserved => .token .reserved
  | .tupleIndex => textOf bareText (.token .digits *> trivia)
  | .word w => .token (.word w) *> trivia
  | .simplePath =>
    textOf gluedText (opt (sym "::") *> lex .pathIdent *> many (sym "::" *> lex .pathIdent))
  | .outerAttr =>
    attributeOf false (sym "#" *> sym "[" *> void (many (lex .tree)) *> bare "]")
  | .innerAttr =>
    attributeOf true (sym "#" *> sym "!" *> sym "[" *> void (many (lex .tree)) *> bare "]")
  | .visibility => textOf gluedText (kw "pub" *> opt (lex .visScope))
  | .visScope =>
    sym "(" *> (kw "crate" <|> kw "self" <|> kw "super" <|> (kw "in" *> void (lex .simplePath)))
      *> sym ")"
  | .tree => void (lex .delimited) <|> lex .looseToken
  | .looseToken =>
    (lex .rawString <|> lex .stringLit <|> lex .charLit <|> void (lex .lifetime)
      <|> .token .loose <|> bare "/" <|> bare "'") *> trivia
  | .delimited => lex .roundTree <|> lex .squareTree <|> lex .curlyTree
  | .roundTree => inBrackets "(" ")" .round
  | .squareTree => inBrackets "[" "]" .square
  | .curlyTree => inBrackets "\x7b" "\x7d" .curly

end InkGauge.Contract.Grammar
