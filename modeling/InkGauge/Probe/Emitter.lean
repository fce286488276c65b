import InkGauge.Text.Blank
import InkGauge.Text.Lines

/-!
An emitter holds what has been written so far, how far in the next line starts, and how the blocks
that are open will be closed. `Code` is a piece of code as a tree, which an emitter writes out.
-/

namespace InkGauge.Probe

open Text

/-- Backslashes, quotes and line feeds are written with a backslash. -/
def escapeLiteral : List Char → List Char
  | [] => []
  | '\\' :: s => '\\' :: '\\' :: escapeLiteral s
  | '"' :: s => '\\' :: '"' :: escapeLiteral s
  | '\n' :: s => '\\' :: 'n' :: escapeLiteral s
  | c :: s => c :: escapeLiteral s

/-- A text as a string literal of the contract language. -/
def stringLiteral (s : String) : String :=
  "\"" ++ String.ofList (escapeLiteral s.toList) ++ "\""

structure Emitter where
  /-- One step of indentation. -/
  step : String
  level : Nat
  /-- The last lines of the open blocks, the innermost first. -/
  closers : List String
  code : String

namespace Emitter

def start (step : String) : Emitter := ⟨step, 0, [], ""⟩

def write (e : Emitter) (s : String) : Emitter := { e with code := e.code ++ s }

/-- A line of code. A blank one is written without its blanks. -/
def emit (e : Emitter) (line : String) : Emitter :=
  if (trim line.toList).isEmpty then e.write "\n"
  else e.write (String.join (List.replicate e.level e.step) ++ line ++ "\n")

def emitLines (e : Emitter) (ls : List String) : Emitter := ls.foldl emit e

def emitBlank (e : Emitter) (count : Nat) : Emitter :=
  e.write (String.ofList (List.replicate count '\n'))

/-- Every line of a text behind a mark. -/
def emitMarked (e : Emitter) (mark : String) (text : List Char) : Emitter :=
  e.emitLines ((splitLineFeeds text).map fun l =>
    String.ofList (trimRight (mark.toList ++ ' ' :: l)))

def emitComment (e : Emitter) (text : String) : Emitter := e.emitMarked "//" text.toList

def emitDoc (e : Emitter) (text : String) : Emitter := e.emitMarked "///" (trim text.toList)

def indent (e : Emitter) : Emitter := { e with level := e.level + 1 }

def dedent (e : Emitter) : Emitter := { e with level := e.level - 1 }

/-- Opens a block that `closer` will close. -/
def openBlock (e : Emitter) (header closer : String) : Emitter :=
  let e := (e.emit (if header = "" then "\x7b" else header ++ " \x7b")).indent
  { e with closers := closer :: e.closers }

/-- Closes the innermost block, if one is open. -/
def closeBlock? (e : Emitter) : Option Emitter :=
  match e.closers with
  | [] => none
  | closer :: closers => some ({ e with closers := closers }.dedent.emit closer)

end Emitter

/-- A piece of code. -/
inductive Code where
  | line (text : String)
  | blank
  | doc (text : String)
  | comment (text : String)
  /-- Lines one step farther in than the others. -/
  | inner (body : List Code)
  | block (header : String) (closer : String) (body : List Code)

mutual

def Code.emitTo (e : Emitter) : Code → Emitter
  | .line text => e.emit text
  | .blank => e.emitBlank 1
  | .doc text => e.emitDoc text
  | .comment text => e.emitComment text
  | .inner body => (emitAll e.indent body).dedent
  | .block header closer body =>
    let e := emitAll (e.openBlock header closer) body
    e.closeBlock?.getD e

def emitAll (e : Emitter) : List Code → Emitter
  | [] => e
  | c :: cs => emitAll (c.emitTo e) cs

end

/-- The text of some code, four blanks to a step. -/
def Code.render (code : List Code) : String := (emitAll (.start "    ") code).code

end InkGauge.Probe
