import InkGauge.Contract.Parse
import InkGauge.Probe.Edit
import InkGauge.Probe.Module
import InkGauge.Probe.Site

/-!
Every site in an entry point is replaced by lines that read the ink counter before and after it,
and the module they call is put behind the text. In a build that is not to be profiled all of it
drops out and what was there stays: a probed statement either stands as it was between the lines of
the probe, or, if its value has to be caught, once more for that build.
-/

namespace InkGauge.Probe

open Contract Cost Number Text

/-- A probe that was put in. -/
structure Placement where
  id : Nat
  kind : ProbeClass
  line : Nat
  function : String
  deriving DecidableEq

/-- A line that takes the place of a probed statement. -/
inductive ProbeLine where
  /-- Only in a build that is to be profiled. -/
  | profiled (code : List Char)
  /-- Only in a build that is not. -/
  | unprofiled (code : List Char)
  | always (code : List Char)
  deriving DecidableEq

/-- The line with the attribute that guards it. -/
def ProbeLine.text : ProbeLine → List (List Char)
  | .profiled code => [profiledOnly.toList, code]
  | .unprofiled code => [unprofiledOnly.toList, code]
  | .always code => [code]

/-- The text of a span. -/
def slice (text : List Char) (s : Span) : List Char := (text.drop s.start).take (s.stop - s.start)

/-- The path from an entry point to the module of the tracker. -/
def modulePath (depth : Nat) : String :=
  String.join (List.replicate depth "super::") ++ moduleName

namespace Site

def label (s : Site) : String := "Some(" ++ stringLiteral s.target.kind.name ++ ")"

def before (s : Site) (id : Nat) : ProbeLine :=
  .profiled ("let __ink_before_" ++ natText id ++ " = " ++ modulePath s.depth ++ "::probe_before("
    ++ natText id ++ ");").toList

/-- The lines around a statement that is left as it is. -/
def plainLines (s : Site) (id : Nat) (text : List Char) : List ProbeLine := [
  s.before id,
  .always (slice text s.target.stmt.span),
  .profiled (modulePath s.depth ++ "::probe_after(" ++ natText id ++ ", __ink_before_"
    ++ natText id ++ ", " ++ s.label ++ ");").toList]

/-- The type that a statement gives its variable. -/
def ascription : Stmt → String
  | .letBind _ (some type) _ _ _ _ => ": " ++ type.text
  | _ => ""

/-- The statement once its value has been caught. -/
def rebind (id : Nat) (text : List Char) : Stmt → List ProbeLine
  | .letBind pattern type init orElse attrs span =>
    [.profiled (("let " ++ pattern.text ++ ascription (.letBind pattern type init orElse attrs span)
        ++ " = __ink_result_" ++ natText id).toList
      ++ (match orElse with
        | some b => " else ".toList ++ slice text b.span
        | none => [])
      ++ [';'])]
  | _ => []

/-- The lines for a statement whose value is caught, so that its size is known. -/
def caughtLines (s : Site) (id : Nat) (text : List Char) : List ProbeLine :=
  [s.before id,
    .profiled (("let __ink_result_" ++ natText id ++ ascription s.target.stmt ++ " = ").toList
      ++ slice text s.target.value.span ++ [';']),
    .profiled (modulePath s.depth ++ "::probe_after_with_size(" ++ natText id ++ ", __ink_before_"
      ++ natText id ++ ", ::core::mem::size_of_val(&__ink_result_" ++ natText id ++ "), "
      ++ s.label ++ ");").toList]
    ++ rebind id text s.target.stmt
    ++ [.unprofiled (slice text s.target.stmt.span)]

/-- The lines that take the place of the statement. -/
def lines (s : Site) (id : Nat) (text : List Char) : List ProbeLine :=
  if s.target.kind = .storageRead then s.caughtLines id text else s.plainLines id text

end Site

/-- What stands before an offset on its line, if it is blank. -/
def indentAt (text : List Char) (offset : Nat) : List Char :=
  let before := ((text.take offset).reverse.takeWhile (· != '\n')).reverse
  if before.all isBlank then before else []

/-- The edit that puts in the probe with an id. -/
def Site.edit (s : Site) (id : Nat) (text : List Char) : Edit :=
  let span := s.target.stmt.span
  ⟨span.start, span.stop,
    ('\n' :: indentAt text span.start).intercalate ((s.lines id text).flatMap ProbeLine.text)⟩

def Site.probe (s : Site) (id : Nat) : Placement :=
  ⟨id, s.target.kind, s.target.stmt.span.line, s.function⟩

/-- The text with the module behind it, after a blank line. -/
def withModule (t : Thresholds) (text : List Char) : List Char :=
  text ++ (if endsWith ['\n'] text then [] else ['\n']) ++ '\n' :: (moduleText t).toList

/-- Instruments one text after another. It keeps the probes that it put into the last contract, the
id of the next one, and the text that statements are cut from. -/
structure Instrumentor where
  thresholds : Thresholds
  nextId : Nat
  probes : List Placement
  text : List Char

/-- An instrumentor that was given no text yet. -/
def Instrumentor.fresh (t : Thresholds) : Instrumentor := ⟨t, 0, [], []⟩

/-- Puts a probe at a site: the probe takes the next id, and is kept. -/
def Site.place (s : Site) : StateM Instrumentor Edit := do
  let i ← get
  set { i with nextId := i.nextId + 1, probes := i.probes ++ [s.probe i.nextId] }
  return s.edit i.nextId i.text

section

variable (function : String) (depth : Nat)

mutual

/-- Puts probes into a block, in source order. What is inside a probed statement gets no probe of
its own; in any other statement, the blocks it owns are gone through. -/
def placeBlock : Block → StateM Instrumentor (List Edit)
  | ⟨stmts, tail, _⟩ => do
    let edits ← placeStmts stmts
    let more ← placeInside? tail
    return edits ++ more

def placeStmts : List Stmt → StateM Instrumentor (List Edit)
  | [] => return []
  | s :: ss => do
    let edits ← placeStmt s
    let more ← placeStmts ss
    return edits ++ more

def placeStmt : Stmt → StateM Instrumentor (List Edit)
  | .letBind pattern type init orElse attrs span =>
    match target? (.letBind pattern type init orElse attrs span) with
    | some t => do return [← Site.place ⟨t, function, depth⟩]
    | none => placeInside? init
  | .expr e semi attrs span =>
    match target? (.expr e semi attrs span) with
    | some t => do return [← Site.place ⟨t, function, depth⟩]
    | none => placeInside e
  | _ => return []

/-- Puts probes into the blocks that an expression owns. Of the arms of a match, those with braces
count. -/
def placeInside : Expr → StateM Instrumentor (List Edit)
  | .block body _ _ _ => placeBlock body
  | .ifElse _ thenBlock orElse _ => do
    let edits ← placeBlock thenBlock
    let more ← placeInside? orElse
    return edits ++ more
  | .matchOn _ arms _ => placeArms arms
  | .loop body _ _ => placeBlock body
  | .whileLoop _ body _ _ => placeBlock body
  | .forLoop _ _ body _ _ => placeBlock body
  | _ => return []

def placeInside? : Option Expr → StateM Instrumentor (List Edit)
  | none => return []
  | some e => placeInside e

def placeArms : List MatchArm → StateM Instrumentor (List Edit)
  | [] => return []
  | ⟨_, _, body, _⟩ :: arms => do
    let edits ← placeArmBody body
    let more ← placeArms arms
    return edits ++ more

def placeArmBody : Expr → StateM Instrumentor (List Edit)
  | .block body _ _ _ => placeBlock body
  | _ => return []

end

end

def placeEntryPoint (depths : Depths) (e : EntryPoint) : StateM Instrumentor (List Edit) :=
  match e.method.fn.body with
  | some body => placeBlock e.name (depths.of e.block) body
  | none => return []

/-- Puts probes into the entry points of a contract, one after the other. -/
def placeAll (depths : Depths) : List EntryPoint → StateM Instrumentor (List Edit)
  | [] => return []
  | e :: es => do
    let edits ← placeEntryPoint depths e
    let more ← placeAll depths es
    return edits ++ more

/-- Starts over with a text: ids are counted from zero, and no probe is kept. -/
def Instrumentor.reset (i : Instrumentor) (text : List Char) : Instrumentor :=
  { i with nextId := 0, probes := [], text := text }

/-- The edits that put probes into a contract, and the instrumentor behind them. -/
def Instrumentor.place (i : Instrumentor) (tree : SourceFile) : List Edit × Instrumentor :=
  (placeAll (moduleDepths tree) tree.discover.entryPoints).run (i.reset tree.text)

/-- Why a text cannot be instrumented. -/
inductive InstrumentError where
  | unparsed (fault : Fault)
  | overlap (o : Overlap)

/-- Instruments a contract, given its tree. -/
def Instrumentor.runTree (i : Instrumentor) (tree : SourceFile) :
    Except Overlap (List Char) × Instrumentor :=
  let (edits, next) := i.place tree
  ((applyEdits tree.text edits).map (withModule next.thresholds), next)

/-- Instruments a text. A text that is no contract leaves the instrumentor as it was. -/
def Instrumentor.run (i : Instrumentor) (source : List Char) (filename : String) :
    Except InstrumentError (List Char) × Instrumentor :=
  match parse source filename with
  | .error fault => (.error (.unparsed fault), i)
  | .ok tree =>
    let (text, next) := i.runTree tree
    (text.mapError .overlap, next)

end InkGauge.Probe
