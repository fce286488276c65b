import InkGauge.Proofs.Contract.Ladder

/-!
From level to level, the reader gives back what the canonical text of an expression of the ladder
was made from, and so does a function whose body binds that text.
-/

namespace InkGauge.Contract

open Text Grammar Token

variable {n : Level} {e : Expr}

/-- On the level, the canonical text of the expression reads as the expression. -/
def ReadsAt (n : Level) (e : Expr) : Prop :=
  ∀ ⦃g t : List Char⦄, Stop n g t →
    grammar.Reads n.reader (e.chars ++ g) t fun a => a.unplaced = e.unplaced

/-- On the level, the canonical text of the expression reads as the left end of a chain of
operators, whatever the further links `s` are. -/
def ReadsChain (n : Level) (e : Expr) : Prop :=
  ∀ ⦃g s t : List Char⦄ ⦃Q : List (BinaryOp × Expr) → Prop⦄, Stop n.next g (s ++ t) →
    grammar.ReadsMany (.both (n.sign <* trivia) n.next.reader) s t Q →
    grammar.Reads n.reader (e.chars ++ g ++ s) t fun a =>
      ∃ left links, a = foldBinary left links ∧ left.unplaced = e.unplaced ∧ Q links

theorem reads_left {s t : List Char} {Q : Expr → Prop} (hn : n.isLeft = true)
    (h : grammar.Reads (leftLevel n.next.reader n.sign) s t Q) : grammar.Reads n.reader s t Q := by
  cases n
  case assign | range | compare | cast | unary | suffix | primary => cases hn
  all_goals exact reads_exp h

/-- A tighter expression is a chain of one link. -/
theorem ReadsAt.chain (hn : n.isLeft = true) (h : ReadsAt n.next e) : ReadsChain n e := by
  intro g s t Q hstop hlinks
  refine reads_left hn (((h hstop).map₂ foldBinary hlinks.many).imp ?_)
  rintro _ ⟨left, links, hleft, hQ, rfl⟩
  exact ⟨left, links, rfl, hleft, hQ⟩

theorem ReadsChain.readsAt (hn : n.isLeft = true) (h : ReadsChain n e) : ReadsAt n e := by
  intro g t hstop
  have hnext : Stop n.next g t := hstop.mono (by rw [Level.rank_next (by rintro rfl; cases hn)]; omega)
  have hend := Peg.Grammar.ReadsMany.stop (p := .both (n.sign <* trivia) n.next.reader)
    (.inl (hstop.refuses_sign (.inl hn)).seqLeft.both)
  have hread := h (s := []) hnext hend
  rw [List.append_nil] at hread
  refine hread.imp ?_
  rintro _ ⟨left, _, rfl, hleft, rfl⟩
  exact hleft

theorem Stop.sign {op : Between} (hop : op.level.rank < n.rank) (u t : List Char) :
    Stop n [' '] (op.spelling ++ [' '] ++ u ++ t) := by
  rw [List.append_assoc, List.append_assoc]
  exact .looser hop (u ++ t)

/-- The operators of a level between two operands are read by their spelling. -/
theorem reads_sign (op : BinaryOp) (hop : op.level.isLeft = true ∨ op.level = .compare)
    (t : List Char) : grammar.Reads op.level.sign op.symbol.toList (' ' :: t) (· = op) := by
  cases op with
  | arith op => cases op <;> exact reads_exp (Peg.Grammar.reads_symbol rfl)
  | compound => exact absurd hop (by simp [BinaryOp.level, Level.isLeft])
  | or | and | eq | ne | lt | le | gt | ge => exact reads_exp (Peg.Grammar.reads_symbol rfl)

/-- An operator, the blank behind it and its right operand. -/
theorem reads_link {op : BinaryOp} {right : Expr} {g t : List Char}
    (hop : op.level.isLeft = true ∨ op.level = .compare) (hright : ReadsAt op.level.next right)
    (hstarts : right.Starts) (hstop : Stop op.level.next g t) :
    grammar.Reads (.both (op.level.sign <* trivia) op.level.next.reader)
      (op.symbol.toList ++ [' '] ++ (right.chars ++ g)) t
      fun x => x.1 = op ∧ x.2.unplaced = right.unplaced := by
  have hfresh : noTrivia (right.chars ++ g ++ t) = true := by
    rw [List.append_assoc]
    exact noTrivia_of_startsExpr hstarts.1 _
  exact ((reads_sign op hop _).seqLeft (reads_trivia ⟨.inr rfl, hfresh⟩)).both (hright hstop)

theorem ReadsChain.binary {op : BinaryOp} {left right : Expr} {span : Span}
    (hop : op.level.isLeft = true) (hleft : ReadsChain op.level left)
    (hright : ReadsAt op.level.next right) (hstarts : right.Starts) :
    ReadsChain op.level (.binary op left right span) := by
  intro g s t Q hstop hlinks
  have hlink := reads_link (.inl hop) hright hstarts hstop
  have hnext : (Between.level (some op)).rank < op.level.next.rank := by
    change op.level.rank < _
    rw [Level.rank_next (by intro h; rw [h] at hop; cases hop)]
    omega
  have hsign : Stop op.level.next [' ']
      (op.symbol.toList ++ [' '] ++ (right.chars ++ g) ++ s ++ t) := by
    rw [List.append_assoc _ s]
    exact .sign hnext _ _
  have hread := hleft hsign (Peg.Grammar.ReadsMany.step hlink (by simp) hlinks)
  have hcut : left.chars ++ [' '] ++ (op.symbol.toList ++ [' '] ++ (right.chars ++ g) ++ s) =
      (Expr.binary op left right span).chars ++ g ++ s := by
    simp [chars_binary]
  rw [hcut] at hread
  refine hread.imp ?_
  rintro _ ⟨l, _, rfl, hl, ⟨_, r⟩, links, rfl, ⟨rfl, hr⟩, hQ⟩
  exact ⟨_, links, rfl, congrArg₂ (Expr.binary _ · · ⟨0, 0, 0, 0⟩) hl hr, hQ⟩

theorem ReadsAt.compare (h : ReadsAt .bitOr e) : ReadsAt .compare e := by
  intro g t hstop
  have hend := (hstop.refuses_sign (.inr rfl)).seqLeft (q := trivia) |>.both
    (q := Level.bitOr.reader) |>.option
  have hread := (h (hstop.mono (by decide))).map₂ (u := [])
    (fun left rest => foldBinary left rest.toList) hend
  rw [List.append_nil] at hread
  refine reads_exp (hread.imp ?_)
  rintro _ ⟨left, _, hleft, rfl, rfl⟩
  exact hleft

theorem ReadsAt.comparison {op : BinaryOp} {left right : Expr} {span : Span}
    (hop : op.level = .compare) (hleft : ReadsAt .bitOr left) (hright : ReadsAt .bitOr right)
    (hstarts : right.Starts) : ReadsAt .compare (.binary op left right span) := by
  intro g t hstop
  have hnext : Stop op.level.next g t := hstop.mono (by rw [hop]; decide)
  have hlink := reads_link (.inr hop) (by rw [hop]; exact hright) hstarts hnext
  rw [hop] at hlink
  have hlooser : (Between.level (some op)).rank < Level.bitOr.rank := by
    change op.level.rank < _
    rw [hop]
    decide
  have hread := (hleft (.sign hlooser _ _)).map₂ (fun left rest => foldBinary left rest.toList)
    (hlink.option (by simp))
  have hcut : left.chars ++ [' '] ++
      (Between.spelling (some op) ++ [' '] ++ (right.chars ++ g)) =
        (Expr.binary op left right span).chars ++ g := by
    simp [chars_binary, Between.spelling]
  rw [hcut] at hread
  refine reads_exp (hread.imp ?_)
  rintro _ ⟨l, _, hl, ⟨⟨_, r⟩, rfl, rfl, hr⟩, rfl⟩
  exact congrArg₂ (Expr.binary _ · · ⟨0, 0, 0, 0⟩) hl hr

theorem reads_assignOp (op : Option ArithOp) (t : List Char) :
    grammar.Reads (exp .assignOp) (Between.spelling (op.map .compound)) (' ' :: t) (· = op) := by
  rcases op with _ | (_ | _)
  all_goals exact reads_exp (Peg.Grammar.reads_symbol rfl)

theorem ReadsAt.assign (h : ReadsAt .range e) : ReadsAt .assign e := by
  intro g t hstop
  have hnone : grammar.Refuses (exp .assignOp) t := by
    cases hstop with
    | @closing _ c hc t =>
      have hall : ∀ c ∈ [')', ']', ',', ';'],
          (exp .assignOp).fate (lookAt c) (grammar.fate (lookAt c) 1) = .refused := by
        decide
      exact refuses_at 1 (hall c hc) t
    | looser hop => exact absurd hop (Nat.not_lt_zero _)
  have hend := hnone.seqLeft (q := trivia) |>.both (q := Level.assign.reader) |>.option
  have hread := (h (hstop.mono (by decide))).map₂ (u := []) assignment hend
  rw [List.append_nil] at hread
  refine reads_exp (hread.imp ?_)
  rintro _ ⟨left, _, hleft, rfl, rfl⟩
  exact hleft

/-- The assignment of a value, plain or through an operator. -/
def assigned (op : Option ArithOp) (left right : Expr) (span : Span) : Expr :=
  match op with
  | none => .assign left right span
  | some op => .binary (.compound op) left right span

theorem chars_assigned (op : Option ArithOp) (left right : Expr) (span : Span) :
    (assigned op left right span).chars =
      left.chars ++ [' '] ++ (Between.spelling (op.map .compound) ++ [' '] ++ right.chars) := by
  cases op with
  | none => exact chars_assign ..
  | some op => exact chars_binary ..

theorem ReadsAt.assigned (op : Option ArithOp) {left right : Expr} {span : Span}
    (hleft : ReadsAt .range left) (hright : ReadsAt .assign right) (hstarts : right.Starts) :
    ReadsAt .assign (assigned op left right span) := by
  intro g t hstop
  have hfresh : noTrivia (right.chars ++ g ++ t) = true := by
    rw [List.append_assoc]
    exact noTrivia_of_startsExpr hstarts.1 _
  have hlink := ((reads_assignOp op _).seqLeft (reads_trivia ⟨.inr rfl, hfresh⟩)).both
    (hright hstop)
  have hlooser : (Between.level (op.map .compound)).rank < Level.range.rank := by
    cases op <;> exact Nat.zero_lt_one
  have hread := (hleft (.sign hlooser _ _)).map₂ assignment (hlink.option (by simp))
  have hcut : left.chars ++ [' '] ++
      (Between.spelling (op.map .compound) ++ [' '] ++ (right.chars ++ g)) =
        (Contract.assigned op left right span).chars ++ g := by
    simp [chars_assigned]
  rw [hcut] at hread
  refine reads_exp (hread.imp ?_)
  rintro _ ⟨l, _, hl, ⟨⟨op', r⟩, rfl, rfl, hr⟩, rfl⟩
  cases op' with
  | none => exact congrArg₂ (Expr.assign · · ⟨0, 0, 0, 0⟩) hl hr
  | some op => exact congrArg₂ (Expr.binary _ · · ⟨0, 0, 0, 0⟩) hl hr

theorem ReadsAt.range (h : ReadsAt .or e) (hstarts : e.Starts) : ReadsAt .range e := by
  intro g t hstop
  have hor := h (hstop.mono (by decide))
  have hne : e.chars ++ g ≠ [] := by
    obtain ⟨c, v, hc, _⟩ := hstarts.1
    simp [hc]
  have hnone : grammar.Refuses (exp .rangeOp) t := hstop.refuses (by decide) 1 (by decide)
  refine reads_exp (.orElse_right (refuses_exp (.act ?_)) hor)
  exact (hor.option hne).both_refuses hnone.seqLeft.both

theorem ReadsAt.cast (h : ReadsAt .unary e) : ReadsAt .cast e := by
  intro g t hstop
  have hnone : grammar.Refuses (kw "as" *> typ .typeNoBounds) t :=
    hstop.refuses (by decide) 1 (by decide)
  have hread := (h (hstop.mono (by decide))).map₂ (u := []) foldCasts hnone.many
  rw [List.append_nil] at hread
  refine reads_exp (hread.imp ?_)
  rintro _ ⟨left, _, hleft, rfl, rfl⟩
  exact hleft

/-- What may stand where an operand of a suffix starts. -/
def operandLook : Peg.Look Token where
  text x := x.head?.all startsOperand
  token _ := true

theorem sound_operandLook {u : List Char} (h : Opens startsOperand u) (t : List Char) :
    operandLook.Sound Token.scan (u ++ t) where
  ne_nil := by
    obtain ⟨c, v, rfl, _⟩ := h
    exact List.cons_ne_nil c _
  text x hx := by
    obtain ⟨c, v, rfl, hc⟩ := h
    cases x with
    | nil => rfl
    | cons d x =>
      rw [List.cons_append, List.cons_prefix_cons] at hx
      simp [operandLook, hx.1, hc]
  token _ _ _ := rfl

theorem ReadsAt.unary (h : ReadsAt .suffix e) (hstarts : Opens startsOperand e.chars) :
    ReadsAt .unary e := by
  intro g t hstop
  have hnone : grammar.Refuses (exp .unaryOp) (e.chars ++ g ++ t) := by
    rw [List.append_assoc]
    exact grammar_total.refuses_of_fate (sound_operandLook hstarts _) 1 (by decide)
  exact reads_exp (.orElse_right (.act hnone.both) (h (hstop.mono (by decide))))

theorem ReadsAt.signed {op : UnaryOp} {span : Span} (hop : op = .neg ∨ op = .not ∨ op = .deref)
    (h : ReadsAt .unary e) (hstarts : e.Starts) : ReadsAt .unary (.unary op e span) := by
  intro g t hstop
  have hfresh : noTrivia (e.chars ++ g ++ t) = true := by
    rw [List.append_assoc]
    exact noTrivia_of_startsExpr hstarts.1 _
  have hno : grammar.Refuses (.symbol [fixed "&&" true, fixed "&" false] : P Bool)
      (op.lead.toList ++ (e.chars ++ g ++ t)) := by
    rcases hop with rfl | rfl | rfl <;> exact Peg.Grammar.refuses_symbol rfl
  have hsymbol : grammar.Reads
      (.symbol [fixed "-" .neg, fixed "!" .not, fixed "*" .deref] : P UnaryOp)
      op.lead.toList (e.chars ++ g ++ t) (· = op) := by
    obtain ⟨c, v, hc, _⟩ := hstarts.1
    rw [hc]
    rcases hop with rfl | rfl | rfl <;> exact Peg.Grammar.reads_symbol rfl
  have hsign : grammar.Reads (exp .unaryOp) op.lead.toList (e.chars ++ g ++ t) (· = op) := by
    have hread := hsymbol.seqLeft (u := []) (reads_trivia ⟨.inl rfl, hfresh⟩)
    rw [List.append_nil] at hread
    exact reads_exp (.orElse_right (.seq (.map (.seqLeft hno))) hread)
  have hread := hsign.both (h hstop)
  rw [chars_unary, List.append_assoc]
  refine reads_exp (.orElse (.act (hread.imp ?_)))
  rintro ⟨_, a⟩ ⟨rfl, ha⟩ x _
  exact congrArg (Expr.unary _ · ⟨0, 0, 0, 0⟩) ha

/-- The expression reads back where any expression is expected. -/
def ReadsBack (e : Expr) : Prop := ReadsAt .assign e ∧ e.Starts

variable {c : Char} {es : List Expr}

/-- Behind an argument stands a comma or the closing bracket. -/
theorem exists_closing (hc : c = ')' ∨ c = ']') (es : List Expr) (t : List Char) :
    ∃ d v, (es.flatMap fun a => [',', ' '] ++ a.chars) ++ c :: t = d :: v ∧
      d ∈ [')', ']', ','] := by
  cases es with
  | nil => exact ⟨c, t, rfl, by rcases hc with rfl | rfl <;> decide⟩
  | cons e es => exact ⟨',', _, rfl, by decide⟩

/-- An expression before a bracket or a comma. -/
theorem ReadsBack.before (h : ReadsBack e) {u : List Char}
    (hu : ∃ d v, u = d :: v ∧ d ∈ [')', ']', ',']) :
    grammar.Reads (exp (.expr .anywhere)) e.chars u fun a => a.unplaced = e.unplaced := by
  obtain ⟨d, v, rfl, hd⟩ := hu
  have hread := h.1 (.closing (List.mem_append_left [';'] hd) v)
  rwa [List.append_nil] at hread

theorem ReadsBack.fresh (h : ReadsBack e) (t : List Char) : noTrivia (e.chars ++ t) = true :=
  noTrivia_of_startsExpr h.2.1 t

theorem readsMany_commas (hc : c = ')' ∨ c = ']') (hes : ∀ e ∈ es, ReadsBack e) (t : List Char) :
    grammar.ReadsMany (sym "," *> exp (.expr .anywhere))
      (es.flatMap fun a => [',', ' '] ++ a.chars) (c :: t)
      fun as => unplacedAll as = unplacedAll es := by
  induction es with
  | nil =>
    have hno : grammar.Refuses (sym ",") (c :: t) := by
      refine refuses_sym ?_
      rcases hc with rfl | rfl <;> exact fun h => absurd (List.cons_prefix_cons.1 h).1 (by decide)
    refine (Peg.Grammar.ReadsMany.stop (.inl hno.seqRight)).imp ?_
    rintro _ rfl
    rfl
  | cons e es ih =>
    obtain ⟨he, hes⟩ := List.forall_mem_cons.1 hes
    have hread := he.before (exists_closing hc es t)
    have hcomma := (reads_sym "," ⟨.inr rfl, he.fresh _⟩).seqRight hread
    refine (Peg.Grammar.ReadsMany.step hcomma (by simp) (ih hes)).imp ?_
    rintro _ ⟨a, as, rfl, ha, has⟩
    exact congrArg₂ List.cons ha has

theorem reads_exprList (hc : c = ')' ∨ c = ']') (he : ReadsBack e) (hes : ∀ e ∈ es, ReadsBack e)
    (t : List Char) :
    grammar.Reads (exp .exprList) (argChars (e :: es)) (c :: t)
      fun as => unplacedAll as = unplacedAll (e :: es) := by
  have hno : grammar.Refuses (sym ",") (c :: t) := by
    refine refuses_sym ?_
    rcases hc with rfl | rfl <;> exact fun h => absurd (List.cons_prefix_cons.1 h).1 (by decide)
  have hread := (he.before (exists_closing hc es t)).map₂ (fun a as => a :: as)
    (readsMany_commas hc hes t).many
  have hlist := hread.seqLeft (u := []) hno.option
  rw [List.append_nil, ← argChars_cons] at hlist
  refine reads_exp (hlist.imp ?_)
  rintro _ ⟨a, as, ha, has, rfl⟩
  exact congrArg₂ List.cons ha has

theorem reads_exprs (hc : c = ')' ∨ c = ']') (hes : ∀ e ∈ es, ReadsBack e) (t : List Char) :
    grammar.Reads exprs (argChars es) (c :: t) fun as => unplacedAll as = unplacedAll es := by
  cases es with
  | nil =>
    have hall : ∀ c ∈ [')', ']'],
        (exp .exprList).fate (lookAt c) (grammar.fate (lookAt c) 25) = .refused := by
      decide
    have hno : grammar.Refuses (exp .exprList) (c :: t) :=
      refuses_at 25 (hall c (by simpa using hc)) t
    refine (hno.option.map (·.getD [])).imp ?_
    rintro _ ⟨_, rfl, rfl⟩
    rfl
  | cons e es =>
    obtain ⟨he, hes⟩ := List.forall_mem_cons.1 hes
    have hne : argChars (e :: es) ≠ [] := by
      obtain ⟨d, v, hd, _⟩ := he.2.1
      simp [argChars_cons, hd]
    have hlist := reads_exprList hc he hes t
    refine ((hlist.option hne).map (·.getD [])).imp ?_
    rintro _ ⟨_, ⟨as, rfl, has⟩, rfl⟩
    exact has

theorem fresh_args (hc : c = ')' ∨ c = ']') (hes : ∀ e ∈ es, ReadsBack e) (t : List Char) :
    noTrivia (argChars es ++ c :: t) = true := by
  cases es with
  | nil => rcases hc with rfl | rfl <;> rfl
  | cons e es =>
    rw [argChars_cons, List.append_assoc]
    exact (hes e (by simp)).fresh _

/-- Arguments in round brackets. -/
theorem reads_roundArgs (hes : ∀ e ∈ es, ReadsBack e) {g t : List Char} (h : Parted g t) :
    grammar.Reads (sym "(" *> exprs <* sym ")") ('(' :: (argChars es ++ [')']) ++ g) t
      fun as => unplacedAll as = unplacedAll es := by
  have hopen : grammar.Reads (sym "(") "(".toList (argChars es ++ (')' :: g ++ t)) fun _ => True :=
    reads_sym (g := []) "(" ⟨.inl rfl, fresh_args (.inl rfl) hes _⟩
  have hread := (hopen.seqRight (reads_exprs (.inl rfl) hes _)).seqLeft (reads_sym ")" h)
  have hcut : "(".toList ++ argChars es ++ ')' :: g = '(' :: (argChars es ++ [')']) ++ g := by simp
  rwa [hcut] at hread

/-- The canonical text of the expression reads as the operand of further suffixes. An opening
bracket behind a field would make it a method. -/
def ReadsSuffix (e : Expr) : Prop :=
  ∀ ⦃g s t : List Char⦄ ⦃Q : List Postfix → Prop⦄, Stop .primary g (s ++ t) →
    (e.isField = true → ¬['('] <+: s ++ t) → grammar.ReadsMany (exp .postfixOp) s t Q →
    grammar.Reads Level.suffix.reader (e.chars ++ g ++ s) t fun a =>
      ∃ first left ops, a = foldPostfix first left ops ∧ left.unplaced = e.unplaced ∧ Q ops

theorem ReadsAt.operand (h : ReadsAt .primary e) : ReadsSuffix e := by
  intro g s t Q hstop _ hops
  have hread := (h hstop).map₂ (fun (e : Expr) ops => foldPostfix e.span e ops) hops.many
  refine reads_exp (hread.imp ?_)
  rintro _ ⟨left, ops, hleft, hQ, rfl⟩
  exact ⟨left.span, left, ops, rfl, hleft, hQ⟩

theorem ReadsSuffix.readsAt (h : ReadsSuffix e) : ReadsAt .suffix e := by
  intro g t hstop
  have hnone : grammar.Refuses (exp .postfixOp) t := hstop.refuses (by decide) 4 (by decide)
  have hround : ¬['('] <+: t := by
    obtain ⟨c, v, rfl, hc⟩ := hstop.opens (by decide)
    rw [List.cons_prefix_cons]
    rintro ⟨rfl, _⟩
    exact absurd hc (by decide)
  have hread := h (s := []) (hstop.mono (by decide)) (fun _ => hround) (.stop (.inl hnone))
  rw [List.append_nil] at hread
  refine hread.imp ?_
  rintro _ ⟨_, left, _, rfl, hleft, rfl⟩
  exact hleft

/-- What a suffix makes of an operand, up to spans, is the expression. -/
def Makes (p : Postfix) (e e' : Expr) : Prop :=
  ∀ first left rest, left.unplaced = e.unplaced →
    ∃ left', foldPostfix first left (p :: rest) = foldPostfix first left' rest ∧
      left'.unplaced = e'.unplaced

/-- One more suffix, with the text `x`. -/
theorem ReadsSuffix.link {e' : Expr} {x : List Char} (h : ReadsSuffix e)
    (hchars : e'.chars = e.chars ++ x) (hx : ∀ u, Stop .primary [] (x ++ u))
    (hround : e.isField = true → ∀ u, ¬['('] <+: x ++ u)
    (hop : ∀ {g t : List Char}, Stop .primary g t → (e'.isField = true → ¬['('] <+: t) →
      grammar.Reads (exp .postfixOp) (x ++ g) t fun p => Makes p e e') :
    ReadsSuffix e' := by
  intro g s t Q hstop hfield hops
  have hne : x ++ g ≠ [] := by
    intro hnil
    obtain ⟨rfl, rfl⟩ := List.append_eq_nil_iff.1 hnil
    obtain ⟨c, v, hc, _⟩ := (hx []).opens_any
    cases hc
  have hlink := Peg.Grammar.ReadsMany.step (hop hstop hfield) hne hops
  have hread := h (g := []) (s := x ++ g ++ s) (by simpa using hx _)
    (fun hf => by simpa using hround hf _) hlink
  have hcut : e.chars ++ [] ++ (x ++ g ++ s) = e'.chars ++ g ++ s := by simp [hchars]
  rw [hcut] at hread
  refine hread.imp ?_
  rintro _ ⟨first, left, _, rfl, hleft, p, ops, rfl, hp, hQ⟩
  obtain ⟨left', hfold, hleft'⟩ := hp first left ops hleft
  exact ⟨first, left', ops, hfold, hleft', hQ⟩

/-- A suffix that starts with a bracket or a question mark. -/
theorem ReadsSuffix.bracket {e' : Expr} {x : List Char} (h : ReadsSuffix e)
    (hc : c ∈ ['(', '[', '?']) (hchars : e'.chars = e.chars ++ c :: x)
    (hround : e.isField = true → c ≠ '(')
    (hop : ∀ {g t : List Char}, Stop .primary g t →
      grammar.Reads (exp .callOp <|> exp .indexOp <|> exp .tryOp) (c :: x ++ g) t
        fun p => Makes p e e') :
    ReadsSuffix e' := by
  refine h.link hchars (fun u => .opening hc (x ++ u)) (fun hf u hpre => ?_) fun hstop _ => ?_
  · rw [List.cons_append, List.cons_prefix_cons] at hpre
    exact hround hf hpre.1.symm
  · have hno {q : P Postfix} (k : Nat) (hq : ∀ c ∈ ['(', '[', '?'],
        q.fate (lookAt c) (grammar.fate (lookAt c) k) = .refused) (u : List Char) :
        grammar.Refuses q (c :: u) := refuses_at k (hq c hc) u
    refine reads_exp (.orElse_right (hno 3 (by decide) _) ?_)
    refine .orElse_right (hno 3 (by decide) _) ?_
    exact .orElse_right (hno 3 (by decide) _) (hop hstop)

theorem ReadsSuffix.call {span : Span} (h : ReadsSuffix e) (hfield : e.isField = false)
    (hes : ∀ a ∈ es, ReadsBack a) : ReadsSuffix (.call e es span) := by
  refine h.bracket (by decide) (chars_call ..) (by simp [hfield]) fun hstop => ?_
  have hread := (reads_roundArgs hes hstop.wordEnd.toParted).map PostfixOp.call
  refine .orElse (reads_exp (.act (hread.imp ?_)))
  rintro _ ⟨as, has, rfl⟩ x _ first left rest hleft
  exact ⟨_, rfl, congrArg₂ (Expr.call · · ⟨0, 0, 0, 0⟩) hleft has⟩

theorem ReadsSuffix.index {i : Expr} {span : Span} (h : ReadsSuffix e) (hi : ReadsBack i) :
    ReadsSuffix (.index e i span) := by
  refine h.bracket (by decide) (chars_index ..) (fun _ => by decide) fun {g t} hstop => ?_
  have hopen : grammar.Reads (sym "[") "[".toList (i.chars ++ (']' :: g ++ t)) fun _ => True :=
    reads_sym (g := []) "[" ⟨.inl rfl, hi.fresh _⟩
  have hinner := hi.before ⟨']', g ++ t, rfl, by decide⟩
  have hread := ((hopen.seqRight hinner).seqLeft (reads_sym "]" hstop.wordEnd.toParted)).map
    PostfixOp.index
  have hcut : "[".toList ++ i.chars ++ ']' :: g = '[' :: (i.chars ++ [']']) ++ g := by simp
  have hcall : grammar.Refuses (exp .callOp) ('[' :: (i.chars ++ [']']) ++ g ++ t) :=
    refuses_at 1 (by decide) _
  rw [hcut] at hread
  refine .orElse_right hcall (.orElse (reads_exp (.act (hread.imp ?_))))
  rintro _ ⟨a, ha, rfl⟩ x _ first left rest hleft
  exact ⟨_, rfl, congrArg₂ (Expr.index · · ⟨0, 0, 0, 0⟩) hleft ha⟩

theorem ReadsSuffix.attempt {span : Span} (h : ReadsSuffix e) : ReadsSuffix (.attempt e span) := by
  refine h.bracket (by decide) (chars_attempt ..) (fun _ => by decide) fun {g t} hstop => ?_
  have hno {q : P Postfix} (k : Nat)
      (hq : q.fate (lookAt '?') (grammar.fate (lookAt '?') k) = .refused) :
      grammar.Refuses q ('?' :: [] ++ g ++ t) := refuses_at k hq (g ++ t)
  have hread := (reads_sym "?" hstop.wordEnd.toParted).map fun _ => PostfixOp.attempt
  refine .orElse_right (hno 1 (by decide)) (.orElse_right (hno 1 (by decide +kernel)) ?_)
  refine reads_exp (.act (hread.imp ?_))
  rintro _ ⟨_, _, rfl⟩ x _ first left rest hleft
  exact ⟨_, rfl, congrArg (Expr.attempt · ⟨0, 0, 0, 0⟩) hleft⟩

section Member

variable {w : List Char} {g t : List Char}

theorem opens_of_isName (hw : isName w = true) (u : List Char) :
    ∃ c v, w ++ u = c :: v ∧ isIdentStart c = true :=
  opens_of_isWordSpelling (isWordSpelling_of_isName hw) u

theorem isSegment_of_isName (hw : isName w = true) : isSegment w = true := by
  simp [isSegment, hw]

theorem stop_member (hw : isName w = true) (u : List Char) : Stop .primary [] ('.' :: w ++ u) := by
  obtain ⟨c, v, hcut, hc⟩ := opens_of_isName hw u
  rw [List.cons_append, hcut]
  exact .member hc v

theorem fresh_member (hw : isName w = true) : noTrivia (w ++ g ++ t) = true := by
  rw [List.append_assoc]
  exact noTrivia_of_isSegment (isSegment_of_isName hw) _

theorem reads_point (hw : isName w = true) :
    grammar.Reads (sym ".") ['.'] (w ++ g ++ t) fun _ => True :=
  reads_sym (g := []) "." ⟨.inl rfl, fresh_member hw⟩

theorem refuses_turbofish (h : ¬[':', ':'] <+: t) : grammar.Refuses (exp .turbofish) t :=
  refuses_exp (.act (.seqRight (refuses_sym (x := "::") h)))

/-- Where no opening bracket follows, a point and a name are a field. -/
theorem reads_fieldOp (hw : isName w = true) (h : WordEnd g t) (hjoint : ¬[':', ':'] <+: t)
    (hround : ¬['('] <+: t) :
    grammar.Reads (exp .postfixOp) ('.' :: w ++ g) t
      fun p => p.op = .field (String.ofList w) := by
  have hname := (reads_point (g := g) (t := t) hw).seqRight (reads_ident hw h)
  have hmethod : grammar.Refuses (exp .methodCallOp) (['.'] ++ (w ++ g) ++ t) := by
    have hread := (hname.map fun name turbofish args =>
      PostfixOp.method name (Option.getD turbofish "") args).seq (u := [])
        (refuses_turbofish hjoint).option
    have hrefused := hread.seq_refuses (q := sym "(" *> exprs <* sym ")")
      (.seqLeft (.seqRight (refuses_sym hround)))
    rw [List.append_nil] at hrefused
    exact refuses_exp (.act hrefused)
  have hawait : grammar.Refuses (exp .awaitOp) (['.'] ++ (w ++ g) ++ t) := by
    have hno : grammar.Refuses (kw "await") (w ++ g ++ t) := by
      rw [List.append_assoc]
      exact refuses_word (isSegment_of_isName hw) h.breaks 1 (by decide)
    exact refuses_exp (.act (.map ((reads_point hw).seqRight_refuses hno)))
  have hname : grammar.Reads (lex .ident <|> lex .tupleIndex) (w ++ g) t (· = String.ofList w) :=
    .orElse (reads_ident hw h)
  have hfield := ((reads_point hw).seqRight hname).map PostfixOp.field
  refine reads_exp (.orElse_right hmethod (.orElse_right hawait (.orElse ?_)))
  refine reads_exp (.act (hfield.imp ?_))
  rintro _ ⟨_, rfl, rfl⟩ x _
  rfl

end Member

theorem ReadsSuffix.field {member : String} {span : Span} (h : ReadsSuffix e)
    (hw : isName member.toList = true) : ReadsSuffix (.field e member span) := by
  refine h.link (chars_field ..) (stop_member hw) (fun _ u hpre => ?_) fun {g t} hstop hround => ?_
  · exact absurd (List.cons_prefix_cons.1 hpre).1 (by decide)
  · have hread := reads_fieldOp hw hstop.wordEnd (hstop.not_starts (by decide)) (hround rfl)
    refine hread.imp ?_
    rintro ⟨_, stop⟩ hop first left rest hleft
    cases hop
    refine ⟨_, rfl, ?_⟩
    rw [String.ofList_toList]
    exact congrArg (Expr.field · member ⟨0, 0, 0, 0⟩) hleft

theorem ReadsSuffix.methodCall {method : String} {span : Span} (h : ReadsSuffix e)
    (hw : isName method.toList = true) (hes : ∀ a ∈ es, ReadsBack a) :
    ReadsSuffix (.methodCall e method "" es span) := by
  refine h.link (chars_methodCall ..) (fun u => ?_) (fun _ u hpre => ?_) fun {g t} hstop _ => ?_
  · have hstop := stop_member hw ('(' :: (argChars es ++ [')']) ++ u)
    simpa using hstop
  · exact absurd (List.cons_prefix_cons.1 hpre).1 (by decide)
  · have hargs := reads_roundArgs hes hstop.wordEnd.toParted
    have hend : WordEnd [] ('(' :: (argChars es ++ [')']) ++ g ++ t) :=
      (Stop.opening (by decide) _).wordEnd
    have hname := (reads_point hw).seqRight (reads_ident hw hend)
    have hfish : grammar.Refuses (exp .turbofish) ('(' :: (argChars es ++ [')']) ++ g ++ t) :=
      refuses_turbofish fun hpre => absurd (List.cons_prefix_cons.1 hpre).1 (by decide)
    have hread := ((hname.map fun name turbofish args =>
      PostfixOp.method name (Option.getD turbofish "") args).seq (u := []) hfish.option).seq hargs
    have hcut : ['.'] ++ (method.toList ++ []) ++ [] ++ ('(' :: (argChars es ++ [')']) ++ g) =
        '.' :: (method.toList ++ "".toList) ++ '(' :: (argChars es ++ [')']) ++ g := by simp
    rw [hcut] at hread
    refine reads_exp (.orElse (reads_exp (.act (hread.imp ?_))))
    rintro _ ⟨_, as, ⟨_, _, ⟨_, rfl, rfl⟩, rfl, rfl⟩, has, rfl⟩ x _ first left rest hleft
    refine ⟨_, rfl, ?_⟩
    rw [String.ofList_toList]
    exact congrArg₂ (Expr.methodCall · method "" · ⟨0, 0, 0, 0⟩) hleft has

theorem readsAt_lit {text : String} {span : Span} (h : isPlainLiteral text.toList = true) :
    ReadsAt .primary (.lit text span) := by
  intro g t hstop
  refine reads_exp (.orElse ((reads_literal h hstop.wordEnd).imp ?_))
  rintro _ ⟨_, rfl⟩
  rw [String.ofList_toList]
  rfl

theorem readsAt_path {w : List Char} {ws : List (List Char)} {span : Span}
    (hws : ∀ v ∈ w :: ws, isSegment v = true) :
    ReadsAt .primary
      (.path ((w :: ws).map String.ofList) (String.ofList (joined (w :: ws))) span) := by
  intro g t hstop
  have hend := hstop.wordEnd
  have hjoint : ¬[':', ':'] <+: t := hstop.not_starts (by decide)
  have hchars : (Expr.path ((w :: ws).map String.ofList) (String.ofList (joined (w :: ws)))
      span).chars = joined (w :: ws) := String.toList_ofList
  obtain ⟨_, _, hcut, hbreaks, _⟩ := exists_path_cut readsSegment_pathIdent hws hend hjoint
  have hno {α : Type} {p : P α} (k : Nat)
      (hp : p.fate segmentLook (grammar.fate segmentLook k) = .refused) :
      grammar.Refuses p (joined (w :: ws) ++ g ++ t) := by
    rw [hcut, List.append_assoc, List.append_assoc]
    exact refuses_word (hws w (by simp)) hbreaks.breaks k hp
  rw [hchars]
  refine reads_exp (.orElse_right (hno 3 (by decide)) ?_)
  refine .orElse_right (hno 3 (by decide)) ?_
  refine .orElse_right (hno 3 (by decide)) ?_
  refine .orElse_right (hno 3 (by decide)) ?_
  refine .orElse_right (hno 3 (by decide)) ?_
  refine .orElse_right (hno 6 (by decide)) ?_
  refine .orElse_right (refuses_macroCall hws hend hjoint hstop.bang) ?_
  refine .orElse_right (refuses_structLit hws hend hjoint (hstop.not_starts (by decide))) ?_
  refine .orElse (((reads_pathExpr hws hend hjoint).map _).imp ?_)
  rintro _ ⟨⟨segments, text, _⟩, ⟨hsegments, htext⟩, rfl⟩
  cases hsegments
  cases htext
  rfl

/-- A bracket opens no other operand than a bracketed one. -/
theorem reads_bracketed {s t : List Char} {Q : Expr → Prop} (hc : c = '(' ∨ c = '[')
    (h : grammar.Reads (exp .unitExpr <|> exp .parenExpr <|> exp .tupleExpr <|> exp .arrayExpr)
      (c :: s) t Q) : grammar.Reads Level.primary.reader (c :: s) t Q := by
  have hno {α : Type} {p : P α} (k : Nat)
      (hp : ∀ c ∈ ['(', '['], p.fate (lookAt c) (grammar.fate (lookAt c) k) = .refused) :
      grammar.Refuses p (c :: s ++ t) := refuses_at k (hp c (by simpa using hc)) (s ++ t)
  refine reads_exp (.orElse_right (hno 3 (by decide)) ?_)
  refine .orElse_right (hno 3 (by decide)) ?_
  refine .orElse_right (hno 3 (by decide)) ?_
  refine .orElse_right (hno 3 (by decide)) ?_
  refine .orElse_right (hno 3 (by decide)) ?_
  refine .orElse_right (hno 6 (by decide)) ?_
  refine .orElse_right (hno 6 (by decide)) ?_
  refine .orElse_right (hno 8 (by decide)) ?_
  exact .orElse_right (hno 8 (by decide)) h

section Round

variable {g t u v : List Char}

theorem reads_open (he : ReadsBack e) (u : List Char) :
    grammar.Reads (sym "(") ['('] (e.chars ++ u) fun _ => True :=
  reads_sym (g := []) "(" ⟨.inl rfl, he.fresh u⟩

/-- Round brackets around something are no unit. -/
theorem refuses_unit (he : ReadsBack e) :
    grammar.Refuses (exp .unitExpr) ('(' :: (e.chars ++ u) ++ v) := by
  have hno : grammar.Refuses (sym ")") (e.chars ++ (u ++ v)) := by
    obtain ⟨d, r, hd, hstart⟩ := he.2.1
    refine refuses_sym fun hpre => ?_
    rw [hd] at hpre
    rw [← (List.cons_prefix_cons.1 hpre).1] at hstart
    exact absurd hstart (by decide)
  rw [List.cons_append, List.append_assoc]
  exact refuses_exp (.act ((reads_open he _).seqRight_refuses hno))

/-- Round brackets with a comma behind their first expression are a tuple. -/
theorem refuses_paren (he : ReadsBack e) :
    grammar.Refuses (exp .parenExpr) ('(' :: (e.chars ++ ',' :: u) ++ v) := by
  have hread := (reads_open he _).seqRight (he.before ⟨',', u ++ v, rfl, by decide⟩)
  have hno : grammar.Refuses (sym ")") (',' :: (u ++ v)) :=
    refuses_sym fun hpre => absurd (List.cons_prefix_cons.1 hpre).1 (by decide)
  have hrefused := hread.seqLeft_refuses hno
  rw [List.append_assoc] at hrefused
  rw [List.cons_append, List.append_assoc]
  exact refuses_exp (.act hrefused)

end Round

theorem ReadsBack.paren {span : Span} (he : ReadsBack e) : ReadsAt .primary (.paren e span) := by
  intro g t hstop
  have hread := ((reads_open he _).seqRight (he.before ⟨')', g ++ t, rfl, by decide⟩)).seqLeft
    (reads_sym ")" hstop.wordEnd.toParted)
  rw [List.append_assoc] at hread
  rw [chars_paren, List.cons_append, List.append_assoc]
  refine reads_bracketed (.inl rfl) (.orElse_right (refuses_unit he) (.orElse ?_))
  refine reads_exp (.act (hread.imp fun a ha x _ => ?_))
  exact congrArg (Expr.paren · ⟨0, 0, 0, 0⟩) ha

theorem readsAt_unit {span : Span} : ReadsAt .primary (.tuple [] span) := by
  intro g t hstop
  have hopen : grammar.Reads (sym "(") ['('] (')' :: g ++ t) fun _ => True :=
    reads_sym (g := []) "(" ⟨.inl rfl, rfl⟩
  have hread := hopen.seqRight (reads_sym ")" hstop.wordEnd.toParted)
  have hchars : (Expr.tuple [] span).chars = ['(', ')'] := by
    rw [chars_tuple _ (by simp)]
    rfl
  rw [hchars]
  exact reads_bracketed (.inl rfl) (.orElse (reads_exp (.act (hread.imp fun _ _ _ _ => rfl))))

/-- A tuple is an expression and a comma, and then the other expressions if there are any. -/
theorem ReadsBack.tuple {u g t : List Char} (span : Span) (he : ReadsBack e)
    (hcomma : Parted u (argChars es ++ ')' :: g ++ t)) (hes : ∀ a ∈ es, ReadsBack a)
    (h : Parted g t) :
    grammar.Reads Level.primary.reader ('(' :: (e.chars ++ ',' :: (u ++ (argChars es ++ ')' :: g))))
      t fun a => a.unplaced = (Expr.tuple (e :: es) span).unplaced := by
  have hfirst := ((reads_open he _).seqRight (he.before ⟨',', _, rfl, by decide⟩)).seqLeft
    (reads_sym "," hcomma)
  have hrest := (reads_exprs (.inl rfl) hes (g ++ t)).seqLeft (reads_sym ")" h)
  have hread := hfirst.both hrest
  have hcut : ['('] ++ e.chars ++ (",".toList ++ u) ++ (argChars es ++ ')' :: g) =
      '(' :: (e.chars ++ ',' :: (u ++ (argChars es ++ ')' :: g))) := by simp
  rw [hcut] at hread
  refine reads_bracketed (.inl rfl) (.orElse_right (refuses_unit he) ?_)
  refine .orElse_right (refuses_paren he) (.orElse (reads_exp (.act (hread.imp ?_))))
  rintro ⟨a, as⟩ ⟨ha, has⟩ x _
  exact congrArg₂ (fun a as => Expr.tuple (a :: as) ⟨0, 0, 0, 0⟩) ha has

theorem readsAt_tuple {span : Span} (hes : ∀ a ∈ es, ReadsBack a) :
    ReadsAt .primary (.tuple es span) := by
  match es, hes with
  | [], _ => exact readsAt_unit
  | [e], hes =>
    intro g t hstop
    have hcomma : Parted [] (argChars [] ++ ')' :: g ++ t) := ⟨.inl rfl, rfl⟩
    have hread := (hes e (by simp)).tuple span hcomma (by simp) hstop.wordEnd.toParted
    have hcut : (Expr.tuple [e] span).chars ++ g =
        '(' :: (e.chars ++ ',' :: ([] ++ (argChars [] ++ ')' :: g))) := by
      rw [chars_tuple_one]
      simp [argChars, renderExprs, commas]
    rw [hcut]
    exact hread
  | e :: a :: es, hes =>
    intro g t hstop
    obtain ⟨he, hes⟩ := List.forall_mem_cons.1 hes
    have hfresh : noTrivia (argChars (a :: es) ++ ')' :: g ++ t) = true := by
      rw [List.append_assoc]
      exact fresh_args (.inl rfl) hes _
    have hread := he.tuple (u := [' ']) span ⟨.inr rfl, hfresh⟩ hes hstop.wordEnd.toParted
    have hcut : (Expr.tuple (e :: a :: es) span).chars ++ g =
        '(' :: (e.chars ++ ',' :: ([' '] ++ (argChars (a :: es) ++ ')' :: g))) := by
      rw [chars_tuple _ (by simp), argChars_cons, argChars_cons]
      simp
    rw [hcut]
    exact hread

theorem readsAt_array {span : Span} (hes : ∀ a ∈ es, ReadsBack a) :
    ReadsAt .primary (.array es span) := by
  intro g t hstop
  have hclose := reads_sym "]" hstop.wordEnd.toParted
  have hopen : grammar.Reads (sym "[") ['['] (argChars es ++ ']' :: (g ++ t)) fun _ => True :=
    reads_sym (g := []) "[" ⟨.inl rfl, fresh_args (.inr rfl) hes _⟩
  have hno {p : P Expr} (k : Nat)
      (hp : p.fate (lookAt '[') (grammar.fate (lookAt '[') k) = .refused) (u : List Char) :
      grammar.Refuses p ('[' :: u) := refuses_at k hp u
  have hcut : (Expr.array es span).chars ++ g = ['['] ++ argChars es ++ (']' :: g) := by
    rw [chars_array]
    simp
  have hbody : grammar.Reads (opt (exp .arrayBody)) (argChars es) (']' :: (g ++ t)) fun b =>
      (b = none ∧ es = []) ∨ ∃ as, b = some (.list as) ∧ unplacedAll as = unplacedAll es := by
    cases es with
    | nil =>
      have hnone : grammar.Refuses (exp .arrayBody) (']' :: (g ++ t)) :=
        refuses_at 25 (by decide) _
      exact hnone.option.imp fun _ h => .inl ⟨h, rfl⟩
    | cons e es =>
      obtain ⟨he, hes⟩ := List.forall_mem_cons.1 hes
      have hlist := (reads_exprList (.inr rfl) he hes (g ++ t)).map ArrayBody.list
      have hcopies : grammar.Refuses (exp .arrayRepeat) (argChars (e :: es) ++ ']' :: (g ++ t)) := by
        have hclosing := exists_closing (.inr rfl) es (g ++ t)
        have hno : grammar.Refuses (sym ";")
            ((es.flatMap fun a => [',', ' '] ++ a.chars) ++ ']' :: (g ++ t)) := by
          obtain ⟨d, v, hd, hmem⟩ := hclosing
          rw [hd]
          refine refuses_sym fun hpre => ?_
          rw [← (List.cons_prefix_cons.1 hpre).1] at hmem
          exact absurd hmem (by decide)
        rw [argChars_cons, List.append_assoc]
        exact refuses_exp ((he.before hclosing).seqLeft_refuses hno).both
      have hne : argChars (e :: es) ≠ [] := by
        obtain ⟨d, v, hd, _⟩ := he.2.1
        simp [argChars_cons, hd]
      have hread : grammar.Reads (exp .arrayBody) _ _ _ := reads_exp (.orElse_right hcopies.map hlist)
      refine (hread.option hne).imp ?_
      rintro _ ⟨_, rfl, as, has, rfl⟩
      exact .inr ⟨as, rfl, has⟩
  have hread := (hopen.seqRight hbody).seqLeft hclose
  rw [hcut]
  refine reads_bracketed (.inr rfl) (.orElse_right (hno 4 (by decide) _) ?_)
  refine .orElse_right (hno 4 (by decide) _) (.orElse_right (hno 4 (by decide +kernel) _) ?_)
  refine reads_exp (.act (hread.imp ?_))
  rintro _ (⟨rfl, rfl⟩ | ⟨as, rfl, has⟩) x _
  · rfl
  · exact congrArg (Expr.array · ⟨0, 0, 0, 0⟩) has

/-- On the level the expression reads back, and can be gone on with where the level has chains. -/
def Climbs (n : Level) (e : Expr) : Prop :=
  match n with
  | .or | .and | .bitOr | .bitXor | .bitAnd | .shift | .add | .mul => ReadsChain n e
  | .suffix => ReadsSuffix e
  | _ => ReadsAt n e

theorem climbs_iff_readsChain (hn : n.isLeft = true) : Climbs n e ↔ ReadsChain n e := by
  cases n
  case or | and | bitOr | bitXor | bitAnd | shift | add | mul => exact Iff.rfl
  all_goals cases hn

theorem Climbs.readsAt (h : Climbs n e) : ReadsAt n e := by
  cases n
  case or | and | bitOr | bitXor | bitAnd | shift | add | mul => exact ReadsChain.readsAt rfl h
  case suffix => exact ReadsSuffix.readsAt h
  all_goals exact h

/-- Down by one level. -/
theorem Climbs.down (hstarts : e.Starts) (hn : n.rank < e.level.rank) (h : Climbs n.next e) :
    Climbs n e := by
  have hread := h.readsAt
  cases n with
  | or | and | bitOr | bitXor | bitAnd | shift | add | mul => exact hread.chain rfl
  | assign => exact hread.assign
  | range => exact hread.range hstarts
  | compare => exact hread.compare
  | cast => exact hread.cast
  | unary => exact hread.unary (hstarts.2 hn)
  | suffix => exact hread.operand
  | primary => exact h

/-- Down to any looser level. -/
theorem Climbs.descend (hstarts : e.Starts) (h : Climbs e.level e) (hn : n.rank ≤ e.level.rank) :
    Climbs n e := by
  obtain ⟨k, hk⟩ := Nat.exists_eq_add_of_le hn
  induction k generalizing n with
  | zero =>
    rw [← Level.eq_of_rank (hk : e.level.rank = n.rank)]
    exact h
  | succ k ih =>
    have hprimary : n ≠ .primary := by
      rintro rfl
      have hmax : e.level.rank ≤ Level.primary.rank := by cases e.level <;> decide
      omega
    have hnext := Level.rank_next hprimary
    exact Climbs.down hstarts (by omega) (ih (by omega) (by omega))

theorem BinaryOp.level_cases (op : BinaryOp) :
    op.level.isLeft = true ∨ op.level = .compare ∨ ∃ a, op = .compound a := by
  cases op with
  | arith op => cases op <;> exact .inl rfl
  | compound a => exact .inr (.inr ⟨a, rfl⟩)
  | or | and => exact .inl rfl
  | eq | ne | lt | le | gt | ge => exact .inr (.inl rfl)

theorem BinaryOp.admits_left {op : BinaryOp} (hop : op.level.isLeft = true) {l r : Level}
    (h : op.admits l r = true) : op.level.rank ≤ l.rank ∧ op.level.rank < r.rank := by
  unfold BinaryOp.admits at h
  split at h
  · rename_i hlevel
    rw [hlevel] at hop
    cases hop
  · rename_i hlevel
    rw [hlevel] at hop
    cases hop
  · simpa using h

theorem BinaryOp.admits_compare {op : BinaryOp} (hop : op.level = .compare) {l r : Level}
    (h : op.admits l r = true) : Level.bitOr.rank ≤ l.rank ∧ Level.bitOr.rank ≤ r.rank := by
  rw [BinaryOp.admits, hop] at h
  simp only [Bool.and_eq_true, decide_eq_true_eq] at h
  exact h

mutual

theorem climbs_of_inLadder :
    (e : Expr) → e.inLadder = true → ∀ n : Level, n.rank ≤ e.level.rank → Climbs n e
  | .lit text s, h, _, hn => Climbs.descend (starts_of_inLadder _ h) (readsAt_lit h) hn
  | .path segments text s, h, _, hn => by
    refine Climbs.descend (starts_of_inLadder _ h) ?_ hn
    obtain ⟨w, ws, rfl, rfl, hws⟩ := path_of_inLadder h
    exact readsAt_path hws
  | .methodCall e method turbofish args s, h, _, hn => by
    refine Climbs.descend (starts_of_inLadder _ h) ?_ hn
    simp only [Expr.inLadder, Bool.and_eq_true, decide_eq_true_eq, beq_iff_eq] at h
    obtain ⟨⟨⟨⟨he, hlevel⟩, hmethod⟩, rfl⟩, hargs⟩ := h
    have hoperand : ReadsSuffix e := climbs_of_inLadder e he .suffix hlevel
    exact hoperand.methodCall hmethod (readsBack_all args hargs)
  | .call e args s, h, _, hn => by
    refine Climbs.descend (starts_of_inLadder _ h) ?_ hn
    simp only [Expr.inLadder, Bool.and_eq_true, decide_eq_true_eq, Bool.not_eq_true'] at h
    obtain ⟨⟨⟨he, hlevel⟩, hfield⟩, hargs⟩ := h
    have hoperand : ReadsSuffix e := climbs_of_inLadder e he .suffix hlevel
    exact hoperand.call hfield (readsBack_all args hargs)
  | .field e member s, h, _, hn => by
    refine Climbs.descend (starts_of_inLadder _ h) ?_ hn
    simp only [Expr.inLadder, Bool.and_eq_true, decide_eq_true_eq] at h
    have hoperand : ReadsSuffix e := climbs_of_inLadder e h.1.1 .suffix h.1.2
    exact hoperand.field h.2
  | .index e i s, h, _, hn => by
    refine Climbs.descend (starts_of_inLadder _ h) ?_ hn
    simp only [Expr.inLadder, Bool.and_eq_true, decide_eq_true_eq] at h
    have hoperand : ReadsSuffix e := climbs_of_inLadder e h.1.1 .suffix h.1.2
    have hindex : ReadsAt .assign i := climbs_of_inLadder i h.2 .assign (Nat.zero_le _)
    exact hoperand.index ⟨hindex, starts_of_inLadder i h.2⟩
  | .attempt e s, h, _, hn => by
    refine Climbs.descend (starts_of_inLadder _ h) ?_ hn
    simp only [Expr.inLadder, Bool.and_eq_true, decide_eq_true_eq] at h
    have hoperand : ReadsSuffix e := climbs_of_inLadder e h.1 .suffix h.2
    exact hoperand.attempt
  | .binary op left right s, h, _, hn => by
    refine Climbs.descend (starts_of_inLadder _ h) ?_ hn
    simp only [Expr.inLadder, Bool.and_eq_true] at h
    obtain ⟨⟨hl, hr⟩, hadmits⟩ := h
    have hstarts := starts_of_inLadder right hr
    change Climbs op.level _
    rcases op.level_cases with hop | hop | ⟨a, rfl⟩
    · obtain ⟨hleft, hright⟩ := BinaryOp.admits_left hop hadmits
      have hnext : op.level.next.rank = op.level.rank + 1 :=
        Level.rank_next (by intro h; rw [h] at hop; cases hop)
      have hchain := (climbs_iff_readsChain hop).1 (climbs_of_inLadder left hl _ hleft)
      have hread := (climbs_of_inLadder right hr op.level.next (by omega)).readsAt
      exact (climbs_iff_readsChain hop).2 (hchain.binary hop hread hstarts)
    · obtain ⟨hleft, hright⟩ := BinaryOp.admits_compare hop hadmits
      have hreadl := (climbs_of_inLadder left hl .bitOr hleft).readsAt
      have hreadr := (climbs_of_inLadder right hr .bitOr hright).readsAt
      rw [hop]
      exact hreadl.comparison hop hreadr hstarts
    · have hleft : Level.range.rank ≤ left.level.rank := of_decide_eq_true hadmits
      have hreadl : ReadsAt .range left := climbs_of_inLadder left hl .range hleft
      have hreadr : ReadsAt .assign right := climbs_of_inLadder right hr .assign (Nat.zero_le _)
      exact hreadl.assigned (some a) hreadr hstarts
  | .assign left right s, h, _, hn => by
    refine Climbs.descend (starts_of_inLadder _ h) ?_ hn
    simp only [Expr.inLadder, Bool.and_eq_true, decide_eq_true_eq] at h
    obtain ⟨⟨hl, hr⟩, hlevel⟩ := h
    have hreadl : ReadsAt .range left := climbs_of_inLadder left hl .range hlevel
    have hreadr : ReadsAt .assign right := climbs_of_inLadder right hr .assign (Nat.zero_le _)
    exact hreadl.assigned none hreadr (starts_of_inLadder right hr)
  | .unary op e s, h, _, hn => by
    refine Climbs.descend (starts_of_inLadder _ h) ?_ hn
    simp only [Expr.inLadder, Bool.and_eq_true, Bool.or_eq_true, beq_iff_eq, decide_eq_true_eq] at h
    obtain ⟨⟨hop, he⟩, hlevel⟩ := h
    have hread : ReadsAt .unary e := climbs_of_inLadder e he .unary hlevel
    exact hread.signed (or_assoc.1 hop) (starts_of_inLadder e he)
  | .paren e s, h, _, hn => by
    refine Climbs.descend (starts_of_inLadder _ h) ?_ hn
    have hread : ReadsAt .assign e := climbs_of_inLadder e h .assign (Nat.zero_le _)
    exact ReadsBack.paren ⟨hread, starts_of_inLadder e h⟩
  | .tuple es s, h, _, hn =>
    Climbs.descend (starts_of_inLadder _ h) (readsAt_tuple (readsBack_all es h)) hn
  | .array es s, h, _, hn =>
    Climbs.descend (starts_of_inLadder _ h) (readsAt_array (readsBack_all es h)) hn
  | .cast .., h, _, _ | .await .., h, _, _ | .arrayRepeat .., h, _, _ | .structLit .., h, _, _
  | .invoke .., h, _, _ | .range .., h, _, _ | .closure .., h, _, _ | .letCond .., h, _, _
  | .block .., h, _, _ | .ifElse .., h, _, _ | .matchOn .., h, _, _ | .loop .., h, _, _
  | .whileLoop .., h, _, _ | .forLoop .., h, _, _ | .ret .., h, _, _ | .brk .., h, _, _
  | .cont .., h, _, _ => by cases h

theorem readsBack_all : (es : List Expr) → allInLadder es = true → ∀ e ∈ es, ReadsBack e
  | [], _ => nofun
  | e :: es, h => by
    simp only [allInLadder, Bool.and_eq_true] at h
    have hread : ReadsAt .assign e := climbs_of_inLadder e h.1 .assign (Nat.zero_le _)
    exact List.forall_mem_cons.2
      ⟨⟨hread, starts_of_inLadder e h.1⟩, readsBack_all es h.2⟩

end

/-- An expression of the ladder reads back from its canonical text. -/
theorem readsBack (h : e.inLadder = true) : ReadsBack e :=
  ⟨climbs_of_inLadder e h .assign (Nat.zero_le _), starts_of_inLadder e h⟩

end InkGauge.Contract
