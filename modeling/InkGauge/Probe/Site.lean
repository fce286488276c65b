import InkGauge.Contract.EntryPoint
import InkGauge.Cost.Evidence

/-!
A statement is probed if the text of what it computes shows a costly operation. The probe calls a
module that stands outside of all others, so it has to know how many modules stand around it.
-/

namespace InkGauge.Probe

open Contract Cost

/-- A statement to be probed, what it computes, and the label of its probe. -/
structure Target where
  stmt : Stmt
  value : Expr
  kind : ProbeClass

/-- What a statement computes, if the statement can be probed at all. -/
def computed? : Stmt → Option Expr
  | .letBind _ _ init _ _ _ => init
  | .expr e semi _ _ => if semi && !e.isBlockLike then some e else none
  | _ => none

/-- The statement as a target, if it is costly. -/
def target? (s : Stmt) : Option Target := do
  let value ← computed? s
  let kind ← probeClass? value.render
  if isProbeCandidate value.render then return ⟨s, value, kind⟩ else none

/-- A target in the entry point that holds it. -/
structure Site where
  target : Target
  function : String
  /-- How many inline modules stand around the entry point. -/
  depth : Nat

/-- How many inline modules stand around impl blocks. A block is known by its span, and what was
noted last is found first. -/
abbrev Depths := List (Span × Nat)

mutual

/-- Notes the impl blocks of an item that stands inside so many modules. -/
def noteItem (depth : Nat) (out : Depths) : Item → Depths
  | ⟨_, _, span, kind⟩ => noteKind depth out span kind

def noteKind (depth : Nat) (out : Depths) (span : Span) : ItemKind → Depths
  | .impl _ _ _ => (span, depth) :: out
  | .mod _ (some items) => noteItems (depth + 1) out items
  | _ => out

def noteItems (depth : Nat) (out : Depths) : List Item → Depths
  | [] => out
  | i :: is => noteItems depth (noteItem depth out i) is

end

def moduleDepths (tree : SourceFile) : Depths := noteItems 0 [] tree.items

/-- The depth that was noted for a block; a block that was not noted counts as outside of all
modules. -/
def Depths.of (depths : Depths) (block : ImplBlock) : Nat := (depths.lookup block.span).getD 0

end InkGauge.Probe
