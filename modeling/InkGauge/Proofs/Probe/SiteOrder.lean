import InkGauge.Proofs.Contract.Modules
import InkGauge.Proofs.Probe.Placing

/-!
The search for targets goes through a file from front to back and never into a statement that it
took. So the targets stand one behind the other, like the pieces of a row.
-/

namespace InkGauge.Probe

open Contract

variable {text : List Char}

/-- Targets that stand one behind the other from `lo` to `hi`, each found where it stands. -/
structure Lined (text : List Char) (lo hi : Nat) (ts : List Target) : Prop where
  row : Row text lo hi (ts.map fun t => .node (.stmt t.stmt))
  found : ∀ t ∈ ts, target? t.stmt = some t

namespace Lined

variable {lo mid hi : Nat} {ts us : List Target}

theorem nil (h : lo ≤ hi) : Lined text lo hi [] := ⟨h, by simp⟩

theorem mono {lo' hi' : Nat} (h : Lined text lo hi ts) (hlo : lo' ≤ lo) (hhi : hi ≤ hi') :
    Lined text lo' hi' ts :=
  ⟨h.row.mono hlo hhi, h.found⟩

theorem append (h : Lined text lo mid ts) (h' : Lined text mid hi us) :
    Lined text lo hi (ts ++ us) := by
  constructor
  · rw [List.map_append]
    exact h.row.append h'.row
  · intro t ht
    rcases List.mem_append.1 ht with ht | ht
    · exact h.found t ht
    · exact h'.found t ht

theorem laid (h : Lined text lo hi ts) {t : Target} (ht : t ∈ ts) : Laid text (.stmt t.stmt) := by
  have hr : Row text lo hi ((ts.map fun t => Node.stmt t.stmt).map .node) := by
    rw [List.map_map]
    exact h.row
  exact hr.laid (List.mem_map.2 ⟨t, ht, rfl⟩)

end Lined

theorem stmt_of_target? {s : Stmt} {t : Target} (h : target? s = some t) : t.stmt = s := by
  simp only [target?, bind, Option.bind_eq_some_iff, Option.ite_none_right_eq_some, pure] at h
  obtain ⟨value, _, kind, _, _, ht⟩ := h
  cases ht
  rfl

theorem computed_of_target? {s : Stmt} {t : Target} (h : target? s = some t) :
    computed? s = some t.value := by
  simp only [target?, bind, Option.bind_eq_some_iff, Option.ite_none_right_eq_some, pure] at h
  obtain ⟨value, hvalue, kind, _, _, ht⟩ := h
  cases ht
  exact hvalue

/-- Only simple statements are taken. -/
theorem isSimple_of_target? {s : Stmt} {t : Target} (h : target? s = some t) :
    s.isSimple = true := by
  obtain ⟨value, hvalue, _⟩ := Option.bind_eq_some_iff.1 h
  cases s with
  | letBind => rfl
  | expr e semi attrs span =>
    simp only [computed?, Option.ite_none_right_eq_some] at hvalue
    exact hvalue.1
  | item => cases hvalue
  | empty => cases hvalue

/-- A statement that is taken is the only target in it. -/
theorem lined_taken {s : Stmt} {t : Target} (hs : Laid text (.stmt s)) (h : target? s = some t) :
    Lined text s.span.start s.span.stop [t] := by
  have he := stmt_of_target? h
  constructor
  · rw [List.map_singleton, he]
    exact ⟨Nat.le_refl _, hs, Nat.le_refl _⟩
  · intro u hu
    rw [List.mem_singleton.1 hu, he]
    exact h

mutual

theorem lined_targetsIn : (b : Block) → Laid text (.block b) →
    Lined text b.span.start b.span.stop (targetsIn b)
  | ⟨stmts, tail, span⟩, h => by
    have hr := h.row
    rw [Node.children, List.map_append] at hr
    obtain ⟨mid, hs, ht⟩ := hr.of_append
    exact (lined_targetsInStmts stmts hs).append (lined_targetsInside? tail ht)

theorem lined_targetsInStmts : (ss : List Stmt) → {lo hi : Nat} →
    Row text lo hi ((ss.map Node.stmt).map .node) → Lined text lo hi (targetsInStmts ss)
  | [], _, _, h => .nil h
  | s :: ss, _, _, h =>
    ((lined_targetsInStmt s h.2.1).mono h.1 (Nat.le_refl _)).append
      (lined_targetsInStmts ss h.2.2)

theorem lined_targetsInStmt (s : Stmt) (h : Laid text (.stmt s)) :
    Lined text s.span.start s.span.stop (targetsInStmt s) := by
  cases s with
  | letBind pattern type init orElse attrs span =>
    unfold targetsInStmt
    split
    · rename_i t ht
      exact lined_taken h ht
    · apply lined_targetsInside? init
      apply Row.sublist _ h.row
      apply List.Sublist.map
      exact (List.sublist_append_right _ _).trans (List.sublist_append_left _ _)
  | expr e semi attrs span =>
    unfold targetsInStmt
    split
    · rename_i t ht
      exact lined_taken h ht
    · have hr : Row text span.start span.stop [.node (.expr e)] := by
        apply Row.sublist _ h.row
        simp [Node.children, Stmt.children]
      exact (lined_targetsInside e hr.2.1).mono hr.1 hr.2.2
  | _ => exact .nil (Nat.le_of_lt h.marks.nonempty)

theorem lined_targetsInside (e : Expr) (h : Laid text (.expr e)) :
    Lined text e.span.start e.span.stop (targetsInside e) := by
  have hr := h.row
  cases e with
  | block body kind label span =>
    obtain ⟨hlo, hb, hhi⟩ := hr
    exact (lined_targetsIn body hb).mono hlo hhi
  | ifElse cond thenBlock orElse span =>
    obtain ⟨hlo, hb, hrest⟩ := hr.sublist (List.sublist_cons_self _ _)
    exact ((lined_targetsIn thenBlock hb).mono hlo (Nat.le_refl _)).append
      (lined_targetsInside? orElse hrest)
  | matchOn scrutinee arms span =>
    exact lined_targetsInArms arms (hr.sublist (List.sublist_cons_self _ _))
  | loop body label span =>
    obtain ⟨hlo, hb, hhi⟩ := hr
    exact (lined_targetsIn body hb).mono hlo hhi
  | whileLoop cond body label span =>
    obtain ⟨hlo, hb, hhi⟩ := hr.sublist (List.sublist_cons_self _ _)
    exact (lined_targetsIn body hb).mono hlo hhi
  | forLoop pattern iter body label span =>
    obtain ⟨hlo, hb, hhi⟩ := (hr.sublist (List.sublist_cons_self _ _)).sublist
      (List.sublist_cons_self _ _)
    exact (lined_targetsIn body hb).mono hlo hhi
  | _ => exact .nil (Nat.le_of_lt h.marks.nonempty)

theorem lined_targetsInside? (e : Option Expr) {lo hi : Nat}
    (h : Row text lo hi ((Node.expr? e).map .node)) : Lined text lo hi (targetsInside? e) := by
  cases e with
  | none => exact .nil h
  | some e => exact (lined_targetsInside e h.2.1).mono h.1 h.2.2

theorem lined_targetsInArms (arms : List MatchArm) {lo hi : Nat}
    (h : Row text lo hi ((arms.map Node.arm).map .node)) :
    Lined text lo hi (targetsInArms arms) := by
  match arms with
  | [] => exact .nil h
  | ⟨pattern, guard, body, span⟩ :: arms =>
    obtain ⟨hlo, harm, hrest⟩ := h
    have hb : Row text span.start span.stop [.node (.expr body)] := by
      apply Row.sublist _ harm.row
      simp [Node.children]
    exact ((lined_targetsInArmBody body hb.2.1).mono (hlo.trans hb.1) hb.2.2).append
      (lined_targetsInArms arms hrest)

theorem lined_targetsInArmBody (e : Expr) (h : Laid text (.expr e)) :
    Lined text e.span.start e.span.stop (targetsInArmBody e) := by
  have hr := h.row
  cases e with
  | block body kind label span =>
    obtain ⟨hlo, hb, hhi⟩ := hr
    exact (lined_targetsIn body hb).mono hlo hhi
  | _ => exact .nil (Nat.le_of_lt h.marks.nonempty)

end

/-- The sites of a method, if it is an entry point of its block. -/
def methodSites (depths : Depths) (signals : Signals) (block : ImplBlock) (m : Method) : List Site :=
  if isEntryPoint signals block m then sitesOf depths ⟨m, block⟩ else []

def blockSites (depths : Depths) (signals : Signals) (block : ImplBlock) : List Site :=
  (methodsOf block.items).flatMap (methodSites depths signals block)

/-- Sites are found block by block and method by method. -/
theorem sites_eq_flatMap (tree : SourceFile) :
    sites tree = tree.impls.flatMap (blockSites (moduleDepths tree) tree.signals) := by
  have hmethods (block : ImplBlock) (ms : List Method) :
      (((ms.map fun m => (EntryPoint.mk m block, isEntryPoint tree.signals block m)).filter
        (·.2)).map (·.1)).flatMap (sitesOf (moduleDepths tree)) =
        ms.flatMap (methodSites (moduleDepths tree) tree.signals block) := by
    induction ms with
    | nil => rfl
    | cons m ms ih =>
      cases hm : isEntryPoint tree.signals block m <;> simp [methodSites, hm, ih]
  simp only [sites, Discovery.entryPoints, SourceFile.discover, List.filter_flatMap,
    List.map_flatMap, List.flatMap_assoc]
  congr 1
  funext block
  exact hmethods block _

/-- The targets that a list of sites is about. -/
def targetsOf (ss : List Site) : List Target := ss.map Site.target

theorem targetsOf_append (ss us : List Site) :
    targetsOf (ss ++ us) = targetsOf ss ++ targetsOf us := List.map_append

section

variable {depths : Depths} {signals : Signals}

theorem lined_methodSites {block : ImplBlock} {i : Item} {fn : Function}
    (hi : Laid text (.item i)) (hk : i.kind = .function fn) :
    Lined text i.span.start i.span.stop (targetsOf (methodSites depths signals block ⟨i, fn⟩)) := by
  have hle := Nat.le_of_lt hi.marks.nonempty
  unfold methodSites
  split
  · unfold sitesOf
    split
    · rename_i body hbody
      have hb : Row text i.span.start i.span.stop [.node (.block body)] := by
        apply Row.sublist _ hi.row
        have hmem : [Node.block body].Sublist (Node.item i).children := by
          simp only at hbody
          simp [Node.children, hk, ItemKind.children, Function.children, hbody, Node.block?]
        exact hmem.map Piece.node
      rw [targetsOf, List.map_map]
      simpa [Function.comp_def] using (lined_targetsIn body hb.2.1).mono hb.1 hb.2.2
    · exact .nil hle
  · exact .nil hle

theorem lined_methods {block : ImplBlock} {items : List Item} {lo hi : Nat}
    (h : Row text lo hi ((Node.items items).map .node)) :
    Lined text lo hi (targetsOf ((methodsOf items).flatMap (methodSites depths signals block))) := by
  induction items generalizing lo with
  | nil => exact .nil h
  | cons i items ih =>
    obtain ⟨hlo, hi, hrest⟩ := h
    have hle := Nat.le_of_lt hi.marks.nonempty
    cases hk : i.kind with
    | function fn =>
      have hm : methodsOf (i :: items) = ⟨i, fn⟩ :: methodsOf items := by
        simp [methodsOf, Item.function?, hk]
      rw [hm, List.flatMap_cons, targetsOf_append]
      exact ((lined_methodSites hi hk).mono hlo (Nat.le_refl _)).append (ih hrest)
    | _ =>
      have hm : methodsOf (i :: items) = methodsOf items := by
        simp [methodsOf, Item.function?, hk]
      rw [hm]
      exact (ih hrest).mono (hlo.trans hle) (Nat.le_refl _)

theorem lined_blockSites {block : ImplBlock} {i : Item} (h : Laid text (.item i))
    (hblock : block.WrittenAs i) :
    Lined text i.span.start i.span.stop (targetsOf (blockSites depths signals block)) := by
  obtain ⟨-, -, traitType, hkind⟩ := hblock
  apply lined_methods
  apply Row.sublist _ h.row
  apply List.Sublist.map
  rw [Node.children, hkind, ItemKind.children]
  exact (List.sublist_cons_self _ _).trans
    ((List.sublist_append_right _ _).trans (List.sublist_append_right _ _))

/-- The walk comes by the blocks from front to back, and so do the sites in them. -/
theorem lined_walkFrom {stack : List Item} {lo hi : Nat}
    (h : Row text lo hi ((Node.items stack).map .node)) :
    Lined text lo hi (targetsOf (((walkFrom stack).filterMap Item.implBlock?).flatMap
      (blockSites depths signals))) := by
  fun_induction walkFrom stack generalizing lo with
  | case1 => exact .nil h
  | case2 i stack ih =>
    obtain ⟨hlo, hlaid, hstack⟩ := h
    cases himpl : i.implBlock? with
    | none =>
      rw [List.filterMap_cons_none himpl]
      apply ih
      rw [Node.items, List.map_append, List.map_append]
      exact (hlaid.row_inner.mono hlo (Nat.le_refl _)).append hstack
    | some b =>
      have hb := implBlock?_eq_some_iff.1 himpl
      have hnil := hb.inner_eq_nil
      rw [hnil, List.nil_append] at ih
      rw [List.filterMap_cons_some himpl, hnil, List.nil_append, List.flatMap_cons,
        targetsOf_append]
      exact ((lined_blockSites hlaid hb).mono hlo (Nat.le_refl _)).append (ih hstack)

end

/-- The sites of a file that was read stand one behind the other. -/
theorem lined_sites {source : List Char} {filename : String} {tree : SourceFile}
    (h : parse source filename = .ok tree) :
    Lined source 0 source.length (targetsOf (sites tree)) := by
  have hr := parse_row h
  rw [List.map_append] at hr
  rw [sites_eq_flatMap]
  exact lined_walkFrom (hr.sublist (List.sublist_append_right _ _))

end InkGauge.Probe
