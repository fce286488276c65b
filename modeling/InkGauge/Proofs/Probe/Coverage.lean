import InkGauge.Proofs.Probe.Patches
import Mathlib.Logic.Relation

/-!
The body of an entry point leads to the blocks of what its statements compute, of what they give a
variable and of its tail, and these lead on, but a statement that gets a probe leads nowhere. Every
costly statement in a block that is reached so gets one probe, and nothing else gets one. Of a
match, only the arms with braces are followed: what an arm such as `_ => if c { .. }` owns is
reached by following every arm, and gets no probe.
-/

namespace InkGauge.Probe

open Contract Cost

/-- The expression owns the block. Of the arms of a match, those whose body is picked count. -/
inductive Owns (picks : Expr → Prop) : Expr → Block → Prop where
  | block {body : Block} {kind : BlockKind} {label : String} {span : Span} :
    Owns picks (.block body kind label span) body
  | thenBlock {cond : Expr} {body : Block} {orElse : Option Expr} {span : Span} :
    Owns picks (.ifElse cond body orElse span) body
  | orElse {cond e : Expr} {thenBlock body : Block} {span : Span} :
    Owns picks e body → Owns picks (.ifElse cond thenBlock (some e) span) body
  | arm {scrutinee : Expr} {arms : List MatchArm} {span : Span} {a : MatchArm} {body : Block} :
    a ∈ arms → picks a.body → Owns picks a.body body →
      Owns picks (.matchOn scrutinee arms span) body
  | loop {body : Block} {label : String} {span : Span} : Owns picks (.loop body label span) body
  | whileLoop {cond : Expr} {body : Block} {label : String} {span : Span} :
    Owns picks (.whileLoop cond body label span) body
  | forLoop {pattern : Fragment} {iter : Expr} {body : Block} {label : String} {span : Span} :
    Owns picks (.forLoop pattern iter body label span) body

/-- Every arm counts. -/
def anyBody (_ : Expr) : Prop := True

/-- Only arms with braces count. -/
def Braced (e : Expr) : Prop := ∃ body kind label span, e = .block body kind label span

/-- What a statement computes or gives a variable. -/
def held? : Stmt → Option Expr
  | .letBind _ _ init _ _ _ => init
  | .expr e _ _ _ => some e
  | _ => none

/-- The expression is held by a statement of the block that gets no probe, or is its tail. -/
def Enters (b : Block) (e : Expr) : Prop :=
  (∃ s ∈ b.stmts, target? s = none ∧ held? s = some e) ∨ b.tail = some e

/-- The second block is searched because of the first. -/
def Leads (picks : Expr → Prop) (b b' : Block) : Prop := ∃ e, Enters b e ∧ Owns picks e b'

def Reaches (picks : Expr → Prop) : Block → Block → Prop := Relation.ReflTransGen (Leads picks)

/-- The target is a statement of a block that is reached. -/
def Found (picks : Expr → Prop) (b : Block) (t : Target) : Prop :=
  ∃ b', Reaches picks b b' ∧ ∃ s ∈ b'.stmts, target? s = some t

/-- The target is found in a block that the expression owns. -/
def FoundInside (picks : Expr → Prop) (e : Expr) (t : Target) : Prop :=
  ∃ b, Owns picks e b ∧ Found picks b t

section

variable {picks : Expr → Prop} {b : Block} {e : Expr} {t : Target}

theorem Found.here {s : Stmt} (hs : s ∈ b.stmts) (ht : target? s = some t) : Found picks b t :=
  ⟨b, .refl, s, hs, ht⟩

theorem FoundInside.of_enters (h : FoundInside picks e t) (he : Enters b e) : Found picks b t := by
  obtain ⟨b', howns, b'', hreach, hfound⟩ := h
  exact ⟨b'', .head ⟨e, he, howns⟩ hreach, hfound⟩

end

/-! ### The targets that are found are those that are reached -/

section

variable {b : Block} {t : Target}

/-- The statement is the target, or it is none and leads to the target. -/
def HoldsTarget (s : Stmt) (t : Target) : Prop :=
  target? s = some t ∨ target? s = none ∧ ∃ e, held? s = some e ∧ FoundInside Braced e t

mutual

theorem found_of_mem : (b : Block) → t ∈ targetsIn b → Found Braced b t
  | ⟨stmts, tail, span⟩, h => by
    rcases List.mem_append.1 h with h | h
    · obtain ⟨s, hs, ht | ⟨hnone, e, he, hinside⟩⟩ := holdsTarget_of_mem_stmts stmts h
      · exact .here hs ht
      · exact hinside.of_enters (.inl ⟨s, hs, hnone, he⟩)
    · obtain ⟨e, he, hinside⟩ := foundInside_of_mem? tail h
      exact hinside.of_enters (.inr he)

theorem holdsTarget_of_mem_stmts : (ss : List Stmt) → t ∈ targetsInStmts ss →
    ∃ s ∈ ss, HoldsTarget s t
  | [], h => by cases h
  | s :: ss, h => by
    rcases List.mem_append.1 h with h | h
    · exact ⟨s, List.mem_cons_self, holdsTarget_of_mem s h⟩
    · obtain ⟨s', hs', hholds⟩ := holdsTarget_of_mem_stmts ss h
      exact ⟨s', List.mem_cons_of_mem _ hs', hholds⟩

theorem holdsTarget_of_mem (s : Stmt) (h : t ∈ targetsInStmt s) : HoldsTarget s t := by
  cases s with
  | letBind pattern type init orElse attrs span =>
    unfold targetsInStmt at h
    split at h
    · rename_i t' ht'
      rw [List.mem_singleton.1 h]
      exact .inl ht'
    · rename_i hnone
      obtain ⟨e, he, hinside⟩ := foundInside_of_mem? init h
      exact .inr ⟨hnone, e, he, hinside⟩
  | expr e semi attrs span =>
    unfold targetsInStmt at h
    split at h
    · rename_i t' ht'
      rw [List.mem_singleton.1 h]
      exact .inl ht'
    · rename_i hnone
      exact .inr ⟨hnone, e, rfl, foundInside_of_mem e h⟩
  | _ => cases h

theorem foundInside_of_mem (e : Expr) (h : t ∈ targetsInside e) : FoundInside Braced e t := by
  cases e with
  | block body kind label span => exact ⟨body, .block, found_of_mem body h⟩
  | ifElse cond thenBlock orElse span =>
    rcases List.mem_append.1 h with h | h
    · exact ⟨thenBlock, .thenBlock, found_of_mem thenBlock h⟩
    · obtain ⟨e, rfl, b, howns, hfound⟩ := foundInside_of_mem? orElse h
      exact ⟨b, .orElse howns, hfound⟩
  | matchOn scrutinee arms span =>
    obtain ⟨a, ha, hbraced, b, howns, hfound⟩ := foundInside_of_mem_arms arms h
    exact ⟨b, .arm ha hbraced howns, hfound⟩
  | loop body label span => exact ⟨body, .loop, found_of_mem body h⟩
  | whileLoop cond body label span => exact ⟨body, .whileLoop, found_of_mem body h⟩
  | forLoop pattern iter body label span => exact ⟨body, .forLoop, found_of_mem body h⟩
  | _ => cases h

theorem foundInside_of_mem? : (o : Option Expr) → t ∈ targetsInside? o →
    ∃ e, o = some e ∧ FoundInside Braced e t
  | none, h => by cases h
  | some e, h => ⟨e, rfl, foundInside_of_mem e h⟩

theorem foundInside_of_mem_arms : (arms : List MatchArm) → t ∈ targetsInArms arms →
    ∃ a ∈ arms, Braced a.body ∧ FoundInside Braced a.body t
  | [], h => by cases h
  | ⟨pattern, guard, body, span⟩ :: arms, h => by
    rcases List.mem_append.1 h with h | h
    · exact ⟨_, List.mem_cons_self, foundInside_of_mem_armBody body h⟩
    · obtain ⟨a, ha, hfound⟩ := foundInside_of_mem_arms arms h
      exact ⟨a, List.mem_cons_of_mem _ ha, hfound⟩

theorem foundInside_of_mem_armBody (e : Expr) (h : t ∈ targetsInArmBody e) :
    Braced e ∧ FoundInside Braced e t := by
  cases e with
  | block body kind label span =>
    exact ⟨⟨body, kind, label, span, rfl⟩, body, .block, found_of_mem body h⟩
  | _ => cases h

end

/-! The other way round, along the blocks that are reached. -/

theorem mem_targetsInStmts {s : Stmt} {ss : List Stmt} (hs : s ∈ ss) (h : t ∈ targetsInStmt s) :
    t ∈ targetsInStmts ss := by
  induction ss with
  | nil => cases hs
  | cons s' ss ih =>
    rcases List.mem_cons.1 hs with rfl | hs
    · exact List.mem_append_left _ h
    · exact List.mem_append_right _ (ih hs)

theorem targetsInArms_cons (a : MatchArm) (arms : List MatchArm) :
    targetsInArms (a :: arms) = targetsInArmBody a.body ++ targetsInArms arms := by
  cases a
  rfl

theorem mem_targetsInArms {a : MatchArm} {arms : List MatchArm} (ha : a ∈ arms)
    (h : t ∈ targetsInArmBody a.body) : t ∈ targetsInArms arms := by
  induction arms with
  | nil => cases ha
  | cons a' arms ih =>
    rw [targetsInArms_cons]
    rcases List.mem_cons.1 ha with rfl | ha
    · exact List.mem_append_left _ h
    · exact List.mem_append_right _ (ih ha)

theorem mem_targetsInStmt_of_target? {s : Stmt} (h : target? s = some t) :
    t ∈ targetsInStmt s := by
  cases s with
  | letBind pattern type init orElse attrs span => simp [targetsInStmt, h]
  | expr e semi attrs span => simp [targetsInStmt, h]
  | item => cases h
  | empty => cases h

theorem mem_targetsInStmt_of_held? {s : Stmt} {e : Expr} (hnone : target? s = none)
    (he : held? s = some e) (h : t ∈ targetsInside e) : t ∈ targetsInStmt s := by
  cases s with
  | letBind pattern type init orElse attrs span =>
    obtain rfl : init = some e := he
    simpa [targetsInStmt, hnone, targetsInside?] using h
  | expr e' semi attrs span =>
    obtain rfl : e' = e := Option.some.inj he
    simpa [targetsInStmt, hnone] using h
  | item => cases he
  | empty => cases he

theorem mem_targetsInside_of_owns {e : Expr} (howns : Owns Braced e b) (h : t ∈ targetsIn b) :
    t ∈ targetsInside e := by
  induction howns with
  | block => exact h
  | thenBlock => exact List.mem_append_left _ h
  | orElse _ ih => exact List.mem_append_right _ (ih h)
  | arm ha hbraced _ ih =>
    obtain ⟨body, kind, label, span, hbody⟩ := hbraced
    have hmem := ih h
    rw [hbody] at hmem
    exact mem_targetsInArms ha (by rwa [hbody])
  | loop => exact h
  | whileLoop => exact h
  | forLoop => exact h

theorem targetsIn_eq (b : Block) :
    targetsIn b = targetsInStmts b.stmts ++ targetsInside? b.tail := by
  cases b
  rfl

theorem mem_targetsIn_of_enters {e : Expr} (he : Enters b e) (h : t ∈ targetsInside e) :
    t ∈ targetsIn b := by
  rw [targetsIn_eq]
  rcases he with ⟨s, hs, hnone, he⟩ | he
  · exact List.mem_append_left _ (mem_targetsInStmts hs (mem_targetsInStmt_of_held? hnone he h))
  · refine List.mem_append_right _ ?_
    rw [he]
    exact h

/-- The search finds the targets in the blocks that are reached. -/
theorem mem_targetsIn_iff : t ∈ targetsIn b ↔ Found Braced b t := by
  constructor
  · exact found_of_mem b
  · rintro ⟨b', hreach, s, hs, ht⟩
    induction hreach using Relation.ReflTransGen.head_induction_on with
    | refl =>
      rw [targetsIn_eq]
      exact List.mem_append_left _ (mem_targetsInStmts hs (mem_targetsInStmt_of_target? ht))
    | head hleads _ ih =>
      obtain ⟨e, he, howns⟩ := hleads
      exact mem_targetsIn_of_enters he (mem_targetsInside_of_owns howns ih)

end

/-- The expression is the body of an arm that the search of another comes to. -/
inductive Meets : Expr → Expr → Prop where
  | arm {scrutinee : Expr} {arms : List MatchArm} {span : Span} {a : MatchArm} :
    a ∈ arms → Meets (.matchOn scrutinee arms span) a.body
  | orElse {cond e x : Expr} {thenBlock : Block} {span : Span} :
    Meets e x → Meets (.ifElse cond thenBlock (some e) span) x

/-- The bodies of arms that own blocks have braces wherever the search comes. -/
def BracesArms (body : Block) : Prop :=
  ∀ b e x, Reaches Braced body b → Enters b e → Meets e x → x.isBlockLike = true → Braced x

theorem Owns.isBlockLike {picks : Expr → Prop} {e : Expr} {b : Block} (h : Owns picks e b) :
    e.isBlockLike = true := by
  cases h <;> rfl

theorem Owns.mono {picks picks' : Expr → Prop} (hpicks : ∀ e, picks e → picks' e) {e : Expr}
    {b : Block} (h : Owns picks e b) : Owns picks' e b := by
  induction h with
  | block => exact .block
  | thenBlock => exact .thenBlock
  | orElse _ ih => exact .orElse ih
  | arm ha hbody _ ih => exact .arm ha (hpicks _ hbody) ih
  | loop => exact .loop
  | whileLoop => exact .whileLoop
  | forLoop => exact .forLoop

theorem Found.mono {picks picks' : Expr → Prop} (hpicks : ∀ e, picks e → picks' e) {b : Block}
    {t : Target} (h : Found picks b t) : Found picks' b t := by
  obtain ⟨b', hreach, hfound⟩ := h
  refine ⟨b', Relation.ReflTransGen.mono ?_ _ _ hreach, hfound⟩
  rintro b₁ b₂ ⟨e, he, howns⟩
  exact ⟨e, he, howns.mono hpicks⟩

theorem Owns.braced {e : Expr} {b : Block} (h : Owns anyBody e b)
    (hmeets : ∀ x, Meets e x → x.isBlockLike = true → Braced x) : Owns Braced e b := by
  induction h with
  | block => exact .block
  | thenBlock => exact .thenBlock
  | orElse _ ih => exact .orElse (ih fun x hx => hmeets x (.orElse hx))
  | arm ha _ howns ih =>
    have hbraced := hmeets _ (.arm ha) howns.isBlockLike
    refine .arm ha hbraced (ih ?_)
    obtain ⟨body, kind, label, span, hbody⟩ := hbraced
    rw [hbody]
    exact nofun
  | loop => exact .loop
  | whileLoop => exact .whileLoop
  | forLoop => exact .forLoop

theorem reaches_braced {body b : Block} (hbraces : BracesArms body) (h : Reaches anyBody body b) :
    Reaches Braced body b := by
  induction h with
  | refl => exact .refl
  | tail _ hleads ih =>
    obtain ⟨e, he, howns⟩ := hleads
    exact .tail ih ⟨e, he, howns.braced fun x => hbraces _ e x ih he⟩

/-- Where arms have braces, following every arm finds nothing more. -/
theorem found_braced_iff {body : Block} {t : Target} (hbraces : BracesArms body) :
    Found anyBody body t ↔ Found Braced body t := by
  constructor
  · rintro ⟨b, hreach, hfound⟩
    exact ⟨b, reaches_braced hbraces hreach, hfound⟩
  · exact Found.mono fun _ _ => trivial

/-- The statement gives a variable a value, or has its value computed behind a semicolon, and the
text of the value shows signs of a class of costly operations. -/
structure Costly (s : Stmt) (t : Target) : Prop where
  stmt : t.stmt = s
  computes : (∃ pattern type orElse attrs span,
      s = .letBind pattern type (some t.value) orElse attrs span) ∨
    ∃ attrs span, s = .expr t.value true attrs span ∧ t.value.isBlockLike = false
  labelled : probeClass? t.value.render = some t.kind
  candidate : isProbeCandidate t.value.render = true

theorem computed?_eq_some_iff {s : Stmt} {e : Expr} : computed? s = some e ↔
    (∃ pattern type orElse attrs span, s = .letBind pattern type (some e) orElse attrs span) ∨
      ∃ attrs span, s = .expr e true attrs span ∧ e.isBlockLike = false := by
  cases s with
  | letBind => simp [computed?]
  | expr e' semi =>
    simp only [computed?, Option.ite_none_right_eq_some, Bool.and_eq_true, Bool.not_eq_true',
      Option.some.injEq, Stmt.expr.injEq, reduceCtorEq, exists_false, false_or]
    constructor
    · rintro ⟨⟨rfl, hblock⟩, rfl⟩
      exact ⟨_, _, ⟨rfl, rfl, rfl, rfl⟩, hblock⟩
    · rintro ⟨_, _, ⟨rfl, rfl, -, -⟩, hblock⟩
      exact ⟨⟨rfl, hblock⟩, rfl⟩
  | item => simp [computed?]
  | empty => simp [computed?]

/-- A statement is taken for its own value, and under the first class that its text shows. -/
theorem target?_eq_some_iff {s : Stmt} {t : Target} : target? s = some t ↔ Costly s t := by
  simp only [target?, bind, Option.bind_eq_some_iff, Option.ite_none_right_eq_some, pure]
  constructor
  · rintro ⟨value, hvalue, kind, hkind, hcandidate, ht⟩
    cases ht
    exact ⟨rfl, computed?_eq_some_iff.1 hvalue, hkind, hcandidate⟩
  · intro h
    refine ⟨t.value, computed?_eq_some_iff.2 h.computes, t.kind, h.labelled, h.candidate, ?_⟩
    rw [← h.stmt]

/-- The target is found in the body of the entry point. -/
def Qualifies (picks : Expr → Prop) (tree : SourceFile) (e : EntryPoint) (t : Target) : Prop :=
  e ∈ tree.discover.entryPoints ∧ ∃ body, e.method.fn.body = some body ∧ Found picks body t

/-- The probe with the id is the one that covers the target: its edit takes the place of the
statement, and no other edit touches it. -/
structure CoveredBy (tree : SourceFile) (ps : List Placement) (e : EntryPoint) (t : Target)
    (id : Nat) : Prop where
  probe : ps[id]? = some ⟨id, t.kind, t.stmt.span.line, e.name⟩
  edit : ∃ replacement,
    (edits tree)[id]? = some ⟨t.stmt.span.start, t.stmt.span.stop, replacement⟩
  only : ∀ id' edit, (edits tree)[id']? = some edit → edit.start < (t.stmt.span.stop : Int) →
    (t.stmt.span.start : Int) < edit.stop → id' = id

theorem mem_sites_iff {tree : SourceFile} {s : Site} : s ∈ sites tree ↔
    ∃ e, Qualifies Braced tree e s.target ∧
      s = ⟨s.target, e.name, (moduleDepths tree).of e.block⟩ := by
  have hsitesOf (e : EntryPoint) : s ∈ sitesOf (moduleDepths tree) e ↔
      (∃ body, e.method.fn.body = some body ∧ Found Braced body s.target) ∧
        s = ⟨s.target, e.name, (moduleDepths tree).of e.block⟩ := by
    unfold sitesOf
    cases e.method.fn.body with
    | none => simp
    | some body =>
      simp only [List.mem_map, Option.some.injEq, exists_eq_left', ← mem_targetsIn_iff]
      constructor
      · rintro ⟨t, ht, rfl⟩
        exact ⟨ht, rfl⟩
      · rintro ⟨ht, hs⟩
        exact ⟨s.target, ht, hs.symm⟩
  simp only [sites, List.mem_flatMap, hsitesOf, Qualifies, and_assoc]

section

variable {source : List Char} {filename : String} {tree : SourceFile}

theorem exists_site_of_probe {id : Nat} {p : Placement} (hp : (probes tree)[id]? = some p) :
    ∃ s, (sites tree)[id]? = some s := by
  simp only [probes_eq_zipIdx, List.getElem?_map, List.getElem?_zipIdx,
    Option.map_eq_some_iff] at hp
  obtain ⟨_, ⟨s, hs, -⟩, -⟩ := hp
  exact ⟨s, hs⟩

theorem edits_apart (h : parse source filename = .ok tree) :
    (edits tree).Pairwise fun a b => a.stop ≤ b.start := by
  rw [edits_eq_map, List.pairwise_map]
  exact (patches_inOrder h).pairwise.imp fun hpq => Int.ofNat_le.2 hpq

theorem coveredBy_of_getElem? (h : parse source filename = .ok tree) {e : EntryPoint} {s : Site}
    {id : Nat} (hs : (sites tree)[id]? = some s) (hname : s.function = e.name) :
    CoveredBy tree (probes tree) e s.target id := by
  have hedit : (edits tree)[id]? = some (s.edit id tree.text) := by
    simp [edits_eq_zipIdx, hs]
  refine ⟨?_, ⟨_, hedit⟩, ?_⟩
  · simp [probes_eq_zipIdx, hs, Site.probe, hname]
  · intro id' edit hedit' hstart hstop
    have hapart := List.pairwise_iff_getElem.1 (edits_apart h)
    obtain ⟨hlt, heq⟩ := List.getElem?_eq_some_iff.1 hedit
    obtain ⟨hlt', heq'⟩ := List.getElem?_eq_some_iff.1 hedit'
    rcases Nat.lt_trichotomy id' id with hless | hsame | hmore
    · have hle := hapart id' id hlt' hlt hless
      rw [heq, heq'] at hle
      exact absurd hstop (Int.not_lt.2 hle)
    · exact hsame
    · have hle := hapart id id' hlt hlt' hmore
      rw [heq, heq'] at hle
      exact absurd hstart (Int.not_lt.2 hle)

/-- Exactly the costly statements that are reached get a probe, and each of them gets one. Where the
arms of matches have braces, these are all that following every arm would reach. -/
theorem probes_exact (h : parse source filename = .ok tree) (i : Instrumentor) :
    (∀ s t, target? s = some t ↔ Costly s t) ∧
    (∃ out, applyEdits source (edits tree) = .ok out ∧
      (i.run source filename).1 = .ok (withModule i.thresholds out)) ∧
    (∀ e t, Qualifies Braced tree e t →
      ∃ id, CoveredBy tree (i.run source filename).2.probes e t id) ∧
    (∀ id p, (i.run source filename).2.probes[id]? = some p → ∃ e t, Qualifies Braced tree e t ∧
      CoveredBy tree (i.run source filename).2.probes e t id) ∧
    ∀ e body, e.method.fn.body = some body → BracesArms body →
      ∀ t, Qualifies anyBody tree e t ↔ Qualifies Braced tree e t := by
  rw [run_of_parse h i]
  refine ⟨fun _ _ => target?_eq_some_iff, ⟨_, ?_, rfl⟩, ?_, ?_, ?_⟩
  · rw [edits_eq_map]
    exact applyEdits_patches (patches_inOrder h)
  · intro e t ht
    have hmem : ⟨t, e.name, (moduleDepths tree).of e.block⟩ ∈ sites tree :=
      mem_sites_iff.2 ⟨e, ht, rfl⟩
    obtain ⟨id, hid⟩ := List.mem_iff_getElem?.1 hmem
    exact ⟨id, coveredBy_of_getElem? h hid rfl⟩
  · intro id p hp
    obtain ⟨s, hs⟩ := exists_site_of_probe hp
    obtain ⟨e, ht, hsite⟩ := mem_sites_iff.1 (List.mem_of_getElem? hs)
    exact ⟨e, s.target, ht, coveredBy_of_getElem? h hs (congrArg Site.function hsite)⟩
  · intro e body hbody hbraces t
    simp only [Qualifies, hbody, Option.some.injEq, exists_eq_left', found_braced_iff hbraces]

end

/-- A variable is given what is read, in an arm with braces. -/
def armRead : String :=
  "impl A\x7bpub fn f(&self)\x7bmatch c\x7b_=>\x7blet v=self.b.get(x);\x7d\x7d\x7d\x7d"

theorem probes_exact_armRead : ∃ tree, parse armRead.toList "" = .ok tree ∧
    probes tree = [⟨0, .storageRead, 1, "f"⟩] ∧
    ∀ id p, ((Instrumentor.fresh .default).run armRead.toList "").2.probes[id]? = some p →
      ∃ e t, Qualifies Braced tree e t ∧
        CoveredBy tree ((Instrumentor.fresh .default).run armRead.toList "").2.probes e t id := by
  have hcheck : parsesTo armRead (fun tree => probes tree = [⟨0, .storageRead, 1, "f"⟩]) = true :=
    by decide +kernel
  obtain ⟨tree, htree, hprobes⟩ := exists_of_parsesTo hcheck
  exact ⟨tree, htree, of_decide_eq_true hprobes, (probes_exact htree (.fresh .default)).2.2.2.1⟩

/-- The statement `msg::sender();`. -/
def senderStmt : Stmt :=
  let here : Span := ⟨0, 0, 0, 0⟩
  .expr (.call (.path ["msg", "sender"] "msg::sender" here) [] here) true [] here

/-- The body `{ match k { _ => if c { msg::sender(); } } }`. -/
def bareArm : Block :=
  let here : Span := ⟨0, 0, 0, 0⟩
  let choice : Expr := .ifElse (.path ["c"] "c" here) ⟨[senderStmt], none, here⟩ none here
  ⟨[], some (.matchOn (.path ["k"] "k" here) [⟨⟨"_", here⟩, none, choice, here⟩] here), here⟩

/-- Following every arm reaches a costly statement that gets no probe. -/
theorem bareArm_missed :
    (∃ t, Found anyBody bareArm t ∧ t.kind = .msgSender) ∧ ∀ t, ¬Found Braced bareArm t := by
  constructor
  · have hkind : (target? senderStmt).map Target.kind = some .msgSender := by decide +kernel
    obtain ⟨t, ht, hkind⟩ := Option.map_eq_some_iff.1 hkind
    refine ⟨t, ⟨⟨[senderStmt], none, ⟨0, 0, 0, 0⟩⟩, .single ⟨_, .inr rfl, ?_⟩, senderStmt, ?_, ht⟩,
      hkind⟩
    · exact .arm (List.mem_singleton.2 rfl) trivial .thenBlock
    · exact List.mem_singleton.2 rfl
  · intro t ht
    cases mem_targetsIn_iff.2 ht

end InkGauge.Probe
