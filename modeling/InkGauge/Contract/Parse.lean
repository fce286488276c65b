import InkGauge.Contract.Grammar.Expr
import InkGauge.Contract.Grammar.Item
import InkGauge.Contract.Grammar.Lexical
import InkGauge.Contract.Grammar.Pattern
import InkGauge.Contract.Grammar.Stmt
import InkGauge.Contract.Grammar.Type
import InkGauge.Diagnostic
import InkGauge.Peg.Run
import InkGauge.Text.Lines
import InkGauge.Text.Quoted

/-!
A file is items up to its end. If items stop matching earlier, the item at that place is tried
again on its own, and the farthest place it reached is where the text is at fault.
-/

namespace InkGauge.Contract

open Peg (Cursor)

namespace Grammar

def body : (r : Rule) → P r.Value
  | .lex r => lexBody r
  | .type r => typeBody r
  | .pattern r => patternBody r
  | .item r => itemBody r
  | .stmt r => stmtBody r
  | .expr r => exprBody r

/-- Rules that are tried again at one place by a later alternative, and that can nest. -/
def keeps : Rule → Bool
  | .expr (.expr _) | .expr (.orExpr _) | .expr .blockLike | .expr .pathExpr => true
  | .stmt .block => true
  | .type .type | .type .genericArgs => true
  | .lex .outerAttr => true
  | _ => false

end Grammar

/-- The grammar of contracts. -/
def grammar : Peg.Grammar Token Grammar.Rule Grammar.Rule.Value where
  scan := Token.scan
  body := Grammar.body
  keeps := Grammar.keeps
  height := 200

/-- Where a text that is no contract goes wrong. -/
structure Fault where
  text : List Char
  filename : String
  /-- The item that could not be read. -/
  item : Cursor
  /-- The farthest place that was reached in it. -/
  place : Cursor

/-- The contract in a text, or where the text is at fault. -/
def parse (text : List Char) (filename : String) : Except Fault SourceFile :=
  let start := Cursor.start text
  match (grammar.apply (.item .file) start).1 with
  | .matched (attrs, items) k =>
    if k.atEnd then .ok ⟨attrs, items, text, filename⟩
    else
      let farthest := ((grammar.apply (.item .item) k).2).getD k.offset
      .error ⟨text, filename, k, k.advance (farthest - k.offset)⟩
  | _ => .error ⟨text, filename, start, start⟩

/-- The start of the text at fault: up to forty characters of its line. -/
def Fault.snippet (f : Fault) : List Char :=
  (f.place.rest.take 40).takeWhile (· != '\n')

/-- The line with a given number, without the blanks at its end. -/
def lineText (text : List Char) (line : Nat) : String :=
  String.ofList (Text.trimRight ((Text.lines text)[line - 1]?.getD []))

def Fault.diagnostic (f : Fault) : Diagnostic where
  code := .incompleteParse
  message := "unexpected input " ++ Text.quoted f.snippet
  location := ⟨f.filename, f.place.line, f.place.column⟩
  notes := []
  hint := "the item starting on line " ++ Number.natText f.item.line ++ " could not be parsed"
  sourceLine := lineText f.text f.place.line

end InkGauge.Contract
