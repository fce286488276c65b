import InkGauge.Probe.Instrument

/-!
What an instrumentor does as it goes through a contract.

It comes by the sites of the contract in source order, and at each of them it uses up one id, keeps
one probe and makes one edit. So its counter, its probes and its edits can be told from the list of
the sites, from wherever it started.
-/

namespace InkGauge.Probe

open Contract

mutual

/-- The targets in a block, in source order. -/
def targetsIn : Block → List Target
  | ⟨stmts, tail, _⟩ => targetsInStmts stmts ++ targetsInside? tail

def targetsInStmts : List Stmt → List Target
  | [] => []
  | s :: ss => targetsInStmt s ++ targetsInStmts ss

def targetsInStmt : Stmt → List Target
  | .letBind pattern type init orElse attrs span =>
    match target? (.letBind pattern type init orElse attrs span) with
    | some t => [t]
    | none => targetsInside? init
  | .expr e semi attrs span =>
    match target? (.expr e semi attrs span) with
    | some t => [t]
    | none => targetsInside e
  | _ => []

/-- The targets in the blocks that an expression owns. -/
def targetsInside : Expr → List Target
  | .block body _ _ _ => targetsIn body
  | .ifElse _ thenBlock orElse _ => targetsIn thenBlock ++ targetsInside? orElse
  | .matchOn _ arms _ => targetsInArms arms
  | .loop body _ _ => targetsIn body
  | .whileLoop _ body _ _ => targetsIn body
  | .forLoop _ _ body _ _ => targetsIn body
  | _ => []

def targetsInside? : Option Expr → List Target
  | none => []
  | some e => targetsInside e

def targetsInArms : List MatchArm → List Target
  | [] => []
  | ⟨_, _, body, _⟩ :: arms => targetsInArmBody body ++ targetsInArms arms

def targetsInArmBody : Expr → List Target
  | .block body _ _ _ => targetsIn body
  | _ => []

end

/-- The sites of an entry point, in source order. -/
def sitesOf (depths : Depths) (e : EntryPoint) : List Site :=
  match e.method.fn.body with
  | some body => (targetsIn body).map (⟨·, e.name, depths.of e.block⟩)
  | none => []

/-- The sites of a contract, in source order. -/
def sites (tree : SourceFile) : List Site :=
  tree.discover.entryPoints.flatMap (sitesOf (moduleDepths tree))

/-- The edits at sites that an instrumentor comes by, and the instrumentor behind them. -/
def Instrumentor.passed (i : Instrumentor) (ss : List Site) : List Edit × Instrumentor :=
  ((ss.zipIdx i.nextId).map fun (s, id) => s.edit id i.text,
    { i with
      nextId := i.nextId + ss.length
      probes := i.probes ++ (ss.zipIdx i.nextId).map fun (s, id) => s.probe id })

/-- The action takes an instrumentor past these sites, whatever its state. -/
def Passes (x : StateM Instrumentor (List Edit)) (ss : List Site) : Prop :=
  ∀ i, x.run i = i.passed ss

namespace Passes

variable {x y : StateM Instrumentor (List Edit)} {ss us : List Site}

theorem nil : Passes (return []) [] := by
  intro i
  simp [Instrumentor.passed]
  rfl

/-- One probe is put in: the counter goes up by one, and the probe and the edit have its old
value. -/
theorem single (s : Site) : Passes (do return [← s.place]) [s] := fun _ => rfl

/-- The second action goes on with the counter that the first one left. -/
theorem append (hx : Passes x ss) (hy : Passes y us) :
    Passes (do
      let edits ← x
      let more ← y
      return edits ++ more) (ss ++ us) := by
  intro i
  have hrun : (do
      let edits ← x
      let more ← y
      return edits ++ more).run i =
        ((x.run i).1 ++ (y.run (x.run i).2).1, (y.run (x.run i).2).2) := rfl
  rw [hrun, hx i, hy]
  simp [Instrumentor.passed, List.zipIdx_append, Nat.add_assoc]

end Passes

section

variable (function : String) (depth : Nat)

/-- The sites of targets in one entry point. -/
def sitesAt (ts : List Target) : List Site := ts.map (⟨·, function, depth⟩)

theorem sitesAt_append (ts us : List Target) :
    sitesAt function depth (ts ++ us) = sitesAt function depth ts ++ sitesAt function depth us :=
  List.map_append

mutual

/-- Going through a block, an instrumentor comes by the targets in it. -/
theorem passes_placeBlock :
    (b : Block) → Passes (placeBlock function depth b) (sitesAt function depth (targetsIn b))
  | ⟨stmts, tail, _⟩ => by
    rw [placeBlock, targetsIn, sitesAt_append]
    exact (passes_placeStmts stmts).append (passes_placeInside? tail)

theorem passes_placeStmts : (ss : List Stmt) →
    Passes (placeStmts function depth ss) (sitesAt function depth (targetsInStmts ss))
  | [] => .nil
  | s :: ss => by
    rw [placeStmts, targetsInStmts, sitesAt_append]
    exact (passes_placeStmt s).append (passes_placeStmts ss)

theorem passes_placeStmt (s : Stmt) :
    Passes (placeStmt function depth s) (sitesAt function depth (targetsInStmt s)) := by
  cases s with
  | letBind pattern type init orElse attrs span =>
    rw [placeStmt, targetsInStmt]
    cases target? (.letBind pattern type init orElse attrs span) with
    | some t => exact .single _
    | none => exact passes_placeInside? init
  | expr e semi attrs span =>
    rw [placeStmt, targetsInStmt]
    cases target? (.expr e semi attrs span) with
    | some t => exact .single _
    | none => exact passes_placeInside e
  | item => exact .nil
  | empty => exact .nil

theorem passes_placeInside (e : Expr) :
    Passes (placeInside function depth e) (sitesAt function depth (targetsInside e)) := by
  cases e with
  | block body => exact passes_placeBlock body
  | ifElse cond thenBlock orElse span =>
    rw [placeInside, targetsInside, sitesAt_append]
    exact (passes_placeBlock thenBlock).append (passes_placeInside? orElse)
  | matchOn scrutinee arms => exact passes_placeArms arms
  | loop body => exact passes_placeBlock body
  | whileLoop cond body => exact passes_placeBlock body
  | forLoop pattern iter body => exact passes_placeBlock body
  | _ => exact .nil

theorem passes_placeInside? : (o : Option Expr) →
    Passes (placeInside? function depth o) (sitesAt function depth (targetsInside? o))
  | none => .nil
  | some e => passes_placeInside e

theorem passes_placeArms : (arms : List MatchArm) →
    Passes (placeArms function depth arms) (sitesAt function depth (targetsInArms arms))
  | [] => .nil
  | ⟨_, _, body, _⟩ :: arms => by
    rw [placeArms, targetsInArms, sitesAt_append]
    exact (passes_placeArmBody body).append (passes_placeArms arms)

theorem passes_placeArmBody (e : Expr) :
    Passes (placeArmBody function depth e) (sitesAt function depth (targetsInArmBody e)) := by
  cases e with
  | block body => exact passes_placeBlock body
  | _ => exact .nil

end

end

theorem passes_placeEntryPoint (depths : Depths) (e : EntryPoint) :
    Passes (placeEntryPoint depths e) (sitesOf depths e) := by
  unfold placeEntryPoint sitesOf
  cases e.method.fn.body with
  | some body => exact passes_placeBlock e.name (depths.of e.block) body
  | none => exact .nil

theorem passes_placeAll (depths : Depths) (es : List EntryPoint) :
    Passes (placeAll depths es) (es.flatMap (sitesOf depths)) := by
  induction es with
  | nil => exact .nil
  | cons e es ih =>
    rw [placeAll, List.flatMap_cons]
    exact (passes_placeEntryPoint depths e).append ih

/-- However an instrumentor was left, it starts over and comes by the sites of the contract. -/
theorem place_eq_passed (i : Instrumentor) (tree : SourceFile) :
    i.place tree = (i.reset tree.text).passed (sites tree) :=
  passes_placeAll (moduleDepths tree) tree.discover.entryPoints (i.reset tree.text)

/-- The edits that a fresh instrumentor makes in a contract. -/
def edits (tree : SourceFile) : List Edit := ((Instrumentor.fresh .default).place tree).1

/-- The probes that a fresh instrumentor puts into a contract. -/
def probes (tree : SourceFile) : List Placement :=
  ((Instrumentor.fresh .default).place tree).2.probes

theorem edits_eq_zipIdx (tree : SourceFile) :
    edits tree = (sites tree).zipIdx.map fun (s, id) => s.edit id tree.text := by
  rw [edits, place_eq_passed]
  rfl

theorem probes_eq_zipIdx (tree : SourceFile) :
    probes tree = (sites tree).zipIdx.map fun (s, id) => s.probe id := by
  rw [probes, place_eq_passed]
  rfl

theorem length_edits (tree : SourceFile) : (edits tree).length = (sites tree).length := by
  rw [edits_eq_zipIdx, List.length_map, List.length_zipIdx]

/-- What was left of earlier texts has no part in what is made of a contract. -/
theorem place_eq (i : Instrumentor) (tree : SourceFile) :
    i.place tree = (edits tree, ⟨i.thresholds, (edits tree).length, probes tree, tree.text⟩) := by
  rw [place_eq_passed, edits_eq_zipIdx, probes_eq_zipIdx]
  simp [Instrumentor.passed, Instrumentor.reset]

end InkGauge.Probe
