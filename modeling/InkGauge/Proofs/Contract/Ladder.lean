import InkGauge.Contract.Printer
import InkGauge.Proofs.Contract.Reads
import InkGauge.Proofs.Contract.Respan

/-!
An expression of operators, calls and brackets stands on a level, its operands on levels that bind
more tightly, and what follows it in canonical text cannot be taken for a part of it. Reading it on
its level, or on any looser one, then gives the expression back. Each level of the grammar has a
lemma that leads from the next tighter level to it.
-/

namespace InkGauge.Contract

open Text Grammar Token

/-- The levels of the grammar of expressions, the loosest first. -/
inductive Level where
  | assign | range | or | and | compare | bitOr | bitXor | bitAnd | shift | add | mul | cast | unary
  | suffix | primary
  deriving DecidableEq

namespace Level

/-- How tightly a level binds. -/
def rank : Level → Nat
  | .assign => 0 | .range => 1 | .or => 2 | .and => 3 | .compare => 4 | .bitOr => 5 | .bitXor => 6
  | .bitAnd => 7 | .shift => 8 | .add => 9 | .mul => 10 | .cast => 11 | .unary => 12
  | .suffix => 13 | .primary => 14

/-- The next tighter level. -/
def next : Level → Level
  | .assign => .range | .range => .or | .or => .and | .and => .compare | .compare => .bitOr
  | .bitOr => .bitXor | .bitXor => .bitAnd | .bitAnd => .shift | .shift => .add | .add => .mul
  | .mul => .cast | .cast => .unary | .unary => .suffix | .suffix | .primary => .primary

/-- The rule that reads the expressions of a level and of all tighter ones. -/
def reader : Level → P Expr
  | .assign => exp (.expr .anywhere)
  | .range => exp (.rangeExpr .anywhere)
  | .or => exp (.orExpr .anywhere)
  | .and => exp (.andExpr .anywhere)
  | .compare => exp (.cmpExpr .anywhere)
  | .bitOr => exp (.bitorExpr .anywhere)
  | .bitXor => exp (.bitxorExpr .anywhere)
  | .bitAnd => exp (.bitandExpr .anywhere)
  | .shift => exp (.shiftExpr .anywhere)
  | .add => exp (.addExpr .anywhere)
  | .mul => exp (.mulExpr .anywhere)
  | .cast => exp (.castExpr .anywhere)
  | .unary => exp (.unaryExpr .anywhere)
  | .suffix => exp (.postfixExpr .anywhere)
  | .primary => exp (.primary .anywhere)

/-- Do the operators of the level associate to the left? -/
def isLeft : Level → Bool
  | .or | .and | .bitOr | .bitXor | .bitAnd | .shift | .add | .mul => true
  | _ => false

/-- The rule for the operators of a level between two operands. -/
def sign : Level → P BinaryOp
  | .or => exp .orOp
  | .and => exp .andOp
  | .compare => exp .cmpOp
  | .bitOr => exp .bitorOp
  | .bitXor => exp .bitxorOp
  | .bitAnd => exp .bitandOp
  | .shift => exp .shiftOp
  | .add => exp .addOp
  | _ => exp .mulOp

theorem eq_of_rank {m n : Level} (h : m.rank = n.rank) : m = n := by
  cases m <;> cases n <;> first | rfl | cases h

theorem rank_next {n : Level} (hn : n ≠ .primary) : n.next.rank = n.rank + 1 := by
  cases n <;> first | rfl | exact absurd rfl hn

end Level

def ArithOp.level : ArithOp → Level
  | .add | .sub => .add
  | .mul | .div | .rem => .mul
  | .bitAnd => .bitAnd
  | .bitOr => .bitOr
  | .bitXor => .bitXor
  | .shl | .shr => .shift

def BinaryOp.level : BinaryOp → Level
  | .or => .or
  | .and => .and
  | .eq | .ne | .lt | .le | .gt | .ge => .compare
  | .arith op => op.level
  | .compound _ => .assign

def Expr.level : Expr → Level
  | .binary op _ _ _ => op.level
  | .assign .. => .assign
  | .unary .. => .unary
  | .methodCall .. | .call .. | .field .. | .index .. | .attempt .. => .suffix
  | _ => .primary

/-- Can operands of the two levels stand on the sides of the operator without brackets?
Comparisons do not associate, assignments associate to the right, all others to the left. -/
def BinaryOp.admits (op : BinaryOp) (left right : Level) : Bool :=
  match op.level with
  | .assign => Level.assign.rank < left.rank
  | .compare => Level.compare.rank < left.rank && Level.compare.rank < right.rank
  | n => n.rank ≤ left.rank && n.rank < right.rank

def Expr.isField : Expr → Bool
  | .field .. => true
  | _ => false

mutual

/-- Is this an expression of names, plain literals, operators, calls and brackets, with brackets
wherever a looser expression stands inside a tighter one? -/
def Expr.inLadder : Expr → Bool
  | .lit text _ => isPlainLiteral text.toList
  | .path segments text _ =>
    !segments.isEmpty && segments.all (isSegment ·.toList)
      && text.toList == joined (segments.map String.toList)
  | .methodCall receiver method turbofish args _ =>
    receiver.inLadder && Level.suffix.rank ≤ receiver.level.rank && isName method.toList
      && turbofish == "" && allInLadder args
  | .call func args _ =>
    func.inLadder && Level.suffix.rank ≤ func.level.rank && !func.isField && allInLadder args
  | .field base member _ =>
    base.inLadder && Level.suffix.rank ≤ base.level.rank && isName member.toList
  | .index base index _ =>
    base.inLadder && Level.suffix.rank ≤ base.level.rank && index.inLadder
  | .attempt e _ => e.inLadder && Level.suffix.rank ≤ e.level.rank
  | .binary op left right _ =>
    left.inLadder && right.inLadder && op.admits left.level right.level
  | .assign left right _ =>
    left.inLadder && right.inLadder && Level.assign.rank < left.level.rank
  | .unary op operand _ =>
    (op == .neg || op == .not || op == .deref) && operand.inLadder
      && Level.unary.rank ≤ operand.level.rank
  | .paren inner _ => inner.inLadder
  | .tuple elems _ | .array elems _ => allInLadder elems
  | _ => false

def allInLadder : List Expr → Bool
  | [] => true
  | e :: es => e.inLadder && allInLadder es

end

/-- An operator between two operands; none is the plain assignment. -/
abbrev Between := Option BinaryOp

def Between.spelling : Between → List Char
  | none => ['=']
  | some op => op.symbol.toList

def Between.level : Between → Level
  | none => .assign
  | some op => op.level

/-- In canonical text, with the gap `g` before it, `t` cannot go on with an operand of the level. -/
inductive Stop : Level → List Char → List Char → Prop where
  | closing {n : Level} {c : Char} (hc : c ∈ [')', ']', ',', ';']) (t : List Char) :
    Stop n [] (c :: t)
  /-- An operator of a looser level. -/
  | looser {n : Level} {op : Between} (hop : op.level.rank < n.rank) (t : List Char) :
    Stop n [' '] (op.spelling ++ ' ' :: t)
  | opening {c : Char} (hc : c ∈ ['(', '[', '?']) (t : List Char) : Stop .primary [] (c :: t)
  | member {c : Char} (hc : isIdentStart c = true) (t : List Char) :
    Stop .primary [] ('.' :: c :: t)

namespace Stop

variable {m n : Level} {g t : List Char}

theorem mono (h : Stop n g t) (hmn : n.rank ≤ m.rank) : Stop m g t := by
  cases h with
  | closing hc t => exact .closing hc t
  | looser hop t => exact .looser (Nat.lt_of_lt_of_le hop hmn) t
  | opening hc t =>
    cases m <;> first | exact .opening hc t | exact absurd hmn (by decide)
  | member hc t =>
    cases m <;> first | exact .member hc t | exact absurd hmn (by decide)

/-- The first characters of the operators between operands. -/
def signs : List Char := ['+', '-', '*', '/', '%', '^', '&', '|', '<', '>', '=', '!']

theorem opens_spelling (op : Between) (t : List Char) :
    ∃ c v, op.spelling ++ ' ' :: t = c :: v ∧ c ∈ signs := by
  rcases op with _ | (_ | _ | _ | _ | _ | _ | _ | _ | (_ | _) | (_ | _))
  all_goals exact ⟨_, _, rfl, by decide⟩

/-- The characters that a stop of a level above the operands can start with. -/
def starters : List Char := [')', ']', ',', ';'] ++ signs

theorem opens (h : Stop n g t) (hn : n ≠ .primary) : ∃ c v, t = c :: v ∧ c ∈ starters := by
  cases h with
  | closing hc t => exact ⟨_, t, rfl, List.mem_append_left _ hc⟩
  | looser _ t =>
    obtain ⟨c, v, hcut, hc⟩ := opens_spelling _ t
    exact ⟨c, v, hcut, List.mem_append_right _ hc⟩
  | opening | member => exact absurd rfl hn

theorem opens_any (h : Stop n g t) :
    ∃ c v, t = c :: v ∧ c ∈ starters ++ ['(', '[', '?', '.'] := by
  cases h with
  | closing hc t => exact ⟨_, t, rfl, List.mem_append_left _ (List.mem_append_left _ hc)⟩
  | looser _ t =>
    obtain ⟨c, v, hcut, hc⟩ := opens_spelling _ t
    exact ⟨c, v, hcut, List.mem_append_left _ (List.mem_append_right _ hc)⟩
  | opening hc t =>
    exact ⟨_, t, rfl, List.mem_append_right _ (List.mem_append_left ['.'] hc)⟩
  | member _ t => exact ⟨_, _, rfl, by decide⟩

theorem fresh (h : Stop n g t) : noTrivia t = true := by
  cases h with
  | @closing _ c hc t =>
    have hall : ∀ c ∈ [')', ']', ',', ';'], noTrivia (c :: t) = true := by
      simp only [List.forall_mem_cons]
      exact ⟨rfl, rfl, rfl, rfl, nofun⟩
    exact hall c hc
  | @looser _ op _ t =>
    rcases op with _ | (_ | _ | _ | _ | _ | _ | _ | _ | (_ | _) | (_ | _))
    all_goals rfl
  | @opening c hc t =>
    have hall : ∀ c ∈ ['(', '[', '?'], noTrivia (c :: t) = true := by
      simp only [List.forall_mem_cons]
      exact ⟨rfl, rfl, rfl, nofun⟩
    exact hall c hc
  | member => rfl

theorem wordEnd (h : Stop n g t) : WordEnd g t := by
  have hfresh := h.fresh
  cases h with
  | @closing _ c hc t =>
    have hall : ∀ c ∈ [')', ']', ',', ';'], c ∈ breakers ∧ c ≠ '.' := by decide
    exact ⟨⟨.inl rfl, hfresh⟩, c, t, rfl, (hall c hc).1, fun h => absurd h (hall c hc).2⟩
  | looser _ t => exact ⟨⟨.inr rfl, hfresh⟩, breaks_blank _⟩
  | @opening c hc t =>
    have hall : ∀ c ∈ ['(', '[', '?'], c ∈ breakers ∧ c ≠ '.' := by decide
    exact ⟨⟨.inl rfl, hfresh⟩, c, t, rfl, (hall c hc).1, fun h => absurd h (hall c hc).2⟩
  | member hc t =>
    refine ⟨⟨.inl rfl, hfresh⟩, '.', _, rfl, by decide, fun _ => ?_⟩
    rintro ⟨d, v, hd, hdigit⟩
    cases hd
    rw [isDigit_of_isIdentStart hc] at hdigit
    cases hdigit

theorem not_starts (h : Stop n g t) {d : Char} {x : List Char}
    (hd : d ∉ starters ++ ['(', '[', '?', '.']) : ¬(d :: x) <+: t := by
  obtain ⟨c, v, rfl, hc⟩ := h.opens_any
  rw [List.cons_prefix_cons]
  rintro ⟨rfl, _⟩
  exact hd hc

/-- A sign that could belong to a macro call belongs to a comparison. -/
theorem bang (h : Stop n g t) : (∃ v, t = '!' :: '=' :: v) ∨ ¬['!'] <+: t := by
  have hother {c : Char} {v : List Char} (hc : c ≠ '!') : ¬['!'] <+: c :: v := by
    rw [List.cons_prefix_cons]
    exact fun h => hc h.1.symm
  cases h with
  | @closing _ c hc t =>
    have hall : ∀ c ∈ [')', ']', ',', ';'], c ≠ '!' := by decide
    exact .inr (hother (hall c hc))
  | @looser _ op _ t =>
    by_cases hne : op = some .ne
    · subst hne
      exact .inl ⟨' ' :: t, rfl⟩
    · right
      rcases op with _ | (_ | _ | _ | _ | _ | _ | _ | _ | (_ | _) | (_ | _))
      all_goals first | exact hother (by decide) | exact absurd rfl hne
  | @opening c hc t =>
    have hall : ∀ c ∈ ['(', '[', '?'], c ≠ '!' := by decide
    exact .inr (hother (hall c hc))
  | member => exact .inr (hother (by decide))

/-- What every character that a stop can start with rules out is refused. -/
theorem refuses {α : Type} {p : P α} (h : Stop n g t) (hn : n ≠ .primary) (k : Nat)
    (hp : ∀ c ∈ starters, p.fate (lookAt c) (grammar.fate (lookAt c) k) = .refused) :
    grammar.Refuses p t := by
  obtain ⟨c, v, rfl, hc⟩ := h.opens hn
  exact refuses_at k (hp c hc) v

/-- No operator of the level stands at a stop. -/
theorem refuses_sign (h : Stop n g t) (hn : n.isLeft = true ∨ n = .compare) :
    grammar.Refuses n.sign t := by
  cases h with
  | @closing _ c hc t =>
    simp only [List.mem_cons, List.not_mem_nil, or_false] at hc
    rcases hc with rfl | rfl | rfl | rfl
    all_goals cases n <;> exact refuses_exp (Peg.Grammar.refuses_symbol rfl)
  | @looser _ op hop t =>
    cases n
    case assign | range | cast | unary | suffix | primary => exact absurd hn (by decide)
    all_goals
      rcases op with _ | (_ | _ | _ | _ | _ | _ | _ | _ | (_ | _) | (_ | _)) <;>
        first
        | exact absurd hop (by decide)
        | exact refuses_exp (Peg.Grammar.refuses_symbol rfl)
  | opening | member => exact absurd hn (by decide)

end Stop

/-- The canonical text of an expression. -/
def Expr.chars (e : Expr) : List Char := e.render.toList

/-- The canonical text of arguments. -/
def argChars (es : List Expr) : List Char := (commas (renderExprs es)).toList

section Chars

variable (e e' : Expr) (s : Span)

theorem chars_methodCall (method turbofish : String) (args : List Expr) :
    (Expr.methodCall e method turbofish args s).chars =
      e.chars ++ ('.' :: (method.toList ++ turbofish.toList) ++ '(' :: (argChars args ++ [')'])) := by
  change (e.render ++ "." ++ method ++ turbofish ++ "(" ++ commas (renderExprs args) ++ ")").toList = _
  simp [Expr.chars, argChars]

theorem chars_call (args : List Expr) :
    (Expr.call e args s).chars = e.chars ++ '(' :: (argChars args ++ [')']) := by
  change (e.render ++ "(" ++ commas (renderExprs args) ++ ")").toList = _
  simp [Expr.chars, argChars]

theorem chars_field (member : String) :
    (Expr.field e member s).chars = e.chars ++ '.' :: member.toList := by
  change (e.render ++ "." ++ member).toList = _
  simp [Expr.chars]

theorem chars_index : (Expr.index e e' s).chars = e.chars ++ '[' :: (e'.chars ++ [']']) := by
  change (e.render ++ "[" ++ e'.render ++ "]").toList = _
  simp [Expr.chars]

theorem chars_attempt : (Expr.attempt e s).chars = e.chars ++ ['?'] := by
  change (e.render ++ "?").toList = _
  simp [Expr.chars]

theorem chars_binary (op : BinaryOp) :
    (Expr.binary op e e' s).chars =
      e.chars ++ [' '] ++ (op.symbol.toList ++ [' '] ++ e'.chars) := by
  change (e.render ++ " " ++ op.symbol ++ " " ++ e'.render).toList = _
  simp [Expr.chars]

theorem chars_assign :
    (Expr.assign e e' s).chars = e.chars ++ [' '] ++ (['='] ++ [' '] ++ e'.chars) := by
  change (e.render ++ " = " ++ e'.render).toList = _
  simp [Expr.chars]

theorem chars_unary (op : UnaryOp) : (Expr.unary op e s).chars = op.lead.toList ++ e.chars := by
  change (op.lead ++ e.render).toList = _
  simp [Expr.chars]

theorem chars_paren : (Expr.paren e s).chars = '(' :: (e.chars ++ [')']) := by
  change ("(" ++ e.render ++ ")").toList = _
  simp [Expr.chars]

theorem chars_tuple_one : (Expr.tuple [e] s).chars = '(' :: (e.chars ++ [',', ')']) := by
  change ("(" ++ e.render ++ ",)").toList = _
  simp [Expr.chars]

theorem chars_tuple {es : List Expr} (h : ∀ a, es ≠ [a]) :
    (Expr.tuple es s).chars = '(' :: (argChars es ++ [')']) := by
  have hrender : (Expr.tuple es s).render = "(" ++ commas (renderExprs es) ++ ")" := by
    match es, h with
    | [], _ => rfl
    | [a], h => exact absurd rfl (h a)
    | a :: b :: es, _ => rfl
  rw [Expr.chars, hrender]
  simp [argChars]

theorem chars_array (es : List Expr) :
    (Expr.array es s).chars = '[' :: (argChars es ++ [']']) := by
  change ("[" ++ commas (renderExprs es) ++ "]").toList = _
  simp [argChars]

theorem argChars_cons (es : List Expr) :
    argChars (e :: es) = e.chars ++ es.flatMap fun a => [',', ' '] ++ a.chars := by
  rw [argChars, commas, renderExprs]
  induction es generalizing e with
  | nil => simp [renderExprs, Expr.chars]
  | cons a es ih =>
    rw [renderExprs, String.intercalate_cons_cons, String.toList_append, ih]
    simp [Expr.chars]

end Chars

/-- Can an operand of a suffix start with the character? -/
def startsOperand (c : Char) : Bool := isIdentPart c || c == '(' || c == '['

/-- Can an expression of the ladder start with the character? -/
def startsExpr (c : Char) : Bool := startsOperand c || c == '-' || c == '!' || c == '*'

theorem Opens.imp {C C' : Char → Bool} {u : List Char} (h : Opens C u)
    (hC : ∀ c, C c = true → C' c = true) : Opens C' u := by
  obtain ⟨c, v, hu, hc⟩ := h
  exact ⟨c, v, hu, hC c hc⟩

theorem startsExpr_of_startsOperand (c : Char) (h : startsOperand c = true) :
    startsExpr c = true := by
  simp [startsExpr, h]

theorem noTrivia_of_startsExpr {u : List Char} (h : Opens startsExpr u) (t : List Char) :
    noTrivia (u ++ t) = true := by
  obtain ⟨c, v, rfl, hc⟩ := h
  simp only [startsExpr, startsOperand, Bool.or_eq_true, beq_iff_eq] at hc
  rcases hc with ((((hc | rfl) | rfl) | rfl) | rfl) | rfl
  · exact noTrivia_of_isIdentPart hc _
  all_goals rfl

/-- The class of characters that the text of an expression starts with. -/
def Expr.Starts (e : Expr) : Prop :=
  Opens startsExpr e.chars ∧ (Level.suffix.rank ≤ e.level.rank → Opens startsOperand e.chars)

theorem Expr.Starts.of_operand {e : Expr} (h : Opens startsOperand e.chars) : e.Starts :=
  ⟨h.imp startsExpr_of_startsOperand, fun _ => h⟩

theorem opens_of_isIdentPart {w : List Char} (hne : w ≠ [])
    (hw : ∀ c ∈ w, isIdentPart c = true) : Opens startsOperand w := by
  cases w with
  | nil => exact absurd rfl hne
  | cons c w => exact ⟨c, w, rfl, by simp [startsOperand, hw c (by simp)]⟩

theorem Expr.Starts.append {e e' : Expr} {u : List Char} (h : e.Starts)
    (hsuffix : Level.suffix.rank ≤ e.level.rank) (hchars : e'.chars = e.chars ++ u) : e'.Starts := by
  refine .of_operand ?_
  rw [hchars]
  exact (h.2 hsuffix).append u

theorem Expr.Starts.left {e e' : Expr} {u : List Char} (h : e.Starts)
    (hchars : e'.chars = e.chars ++ u) (hlevel : e'.level.rank < Level.suffix.rank) : e'.Starts := by
  refine ⟨?_, fun h => absurd h (by omega)⟩
  rw [hchars]
  exact h.1.append u

theorem BinaryOp.level_lt (op : BinaryOp) : op.level.rank < Level.suffix.rank := by
  cases op with
  | arith op => cases op <;> decide
  | compound op => exact Nat.succ_pos 12
  | or | and | eq | ne | lt | le | gt | ge => decide

theorem exists_joined (w : List Char) (ws : List (List Char)) : ∃ r, joined (w :: ws) = w ++ r := by
  cases ws with
  | nil => exact ⟨[], by simp [joined]⟩
  | cons v ws => exact ⟨[':', ':'] ++ joined (v :: ws), by rw [joined, List.append_assoc]⟩

theorem path_of_inLadder {segments : List String} {text : String} {s : Span}
    (h : (Expr.path segments text s).inLadder = true) :
    ∃ w ws, segments = (w :: ws).map String.ofList ∧ text = String.ofList (joined (w :: ws)) ∧
      ∀ v ∈ w :: ws, isSegment v = true := by
  simp only [Expr.inLadder, Bool.and_eq_true, List.all_eq_true, beq_iff_eq] at h
  obtain ⟨⟨hne, hall⟩, htext⟩ := h
  cases segments with
  | nil => cases hne
  | cons x xs =>
    refine ⟨x.toList, xs.map String.toList, by simp, ?_, ?_⟩
    · rw [← List.map_cons, ← htext, String.ofList_toList]
    · rw [← List.map_cons]
      intro v hv
      obtain ⟨y, hy, rfl⟩ := List.mem_map.1 hv
      exact hall y hy

theorem starts_of_inLadder : (e : Expr) → e.inLadder = true → e.Starts
  | .lit text s, h => by
    have hne : text.toList ≠ [] := by
      intro hnil
      rw [Expr.inLadder, hnil] at h
      exact absurd h (by decide)
    exact .of_operand (opens_of_isIdentPart hne (isIdentPart_of_isPlainLiteral h))
  | .path segments text s, h => by
    obtain ⟨w, ws, rfl, rfl, hws⟩ := path_of_inLadder h
    have hw : isSegment w = true := hws w (by simp)
    obtain ⟨r, hr⟩ := exists_joined w ws
    have hopens := opens_of_isWordSpelling (isWordSpelling_of_isSegment hw) r
    rw [← hr] at hopens
    refine .of_operand ?_
    change Opens startsOperand (String.ofList (joined (w :: ws))).toList
    rw [String.toList_ofList]
    exact hopens.imp fun c hc => by simp [startsOperand, isIdentPart_of_isIdentStart hc]
  | .methodCall e method turbofish args s, h => by
    simp only [Expr.inLadder, Bool.and_eq_true, decide_eq_true_eq] at h
    exact (starts_of_inLadder e h.1.1.1.1).append h.1.1.1.2 (chars_methodCall ..)
  | .call e args s, h => by
    simp only [Expr.inLadder, Bool.and_eq_true, decide_eq_true_eq] at h
    exact (starts_of_inLadder e h.1.1.1).append h.1.1.2 (chars_call ..)
  | .field e member s, h => by
    simp only [Expr.inLadder, Bool.and_eq_true, decide_eq_true_eq] at h
    exact (starts_of_inLadder e h.1.1).append h.1.2 (chars_field ..)
  | .index e i s, h => by
    simp only [Expr.inLadder, Bool.and_eq_true, decide_eq_true_eq] at h
    exact (starts_of_inLadder e h.1.1).append h.1.2 (chars_index ..)
  | .attempt e s, h => by
    simp only [Expr.inLadder, Bool.and_eq_true, decide_eq_true_eq] at h
    exact (starts_of_inLadder e h.1).append h.2 (chars_attempt ..)
  | .binary op left right s, h => by
    simp only [Expr.inLadder, Bool.and_eq_true] at h
    exact (starts_of_inLadder left h.1.1).left
      ((chars_binary ..).trans (List.append_assoc ..)) op.level_lt
  | .assign left right s, h => by
    simp only [Expr.inLadder, Bool.and_eq_true] at h
    exact (starts_of_inLadder left h.1.1).left
      ((chars_assign ..).trans (List.append_assoc ..)) (Nat.succ_pos 12)
  | .unary op e s, h => by
    simp only [Expr.inLadder, Bool.and_eq_true, Bool.or_eq_true, beq_iff_eq] at h
    refine ⟨?_, fun h => absurd h (Nat.not_succ_le_self 12)⟩
    rw [chars_unary]
    rcases h.1.1 with (rfl | rfl) | rfl
    all_goals exact ⟨_, _, rfl, by decide⟩
  | .paren e s, _ => .of_operand (by rw [chars_paren]; exact ⟨_, _, rfl, by decide⟩)
  | .tuple [e] s, _ => .of_operand (by rw [chars_tuple_one]; exact ⟨_, _, rfl, by decide⟩)
  | .tuple [] s, _ => .of_operand (by rw [chars_tuple _ (by simp)]; exact ⟨_, _, rfl, by decide⟩)
  | .tuple (_ :: _ :: _) s, _ =>
    .of_operand (by rw [chars_tuple _ (by simp)]; exact ⟨_, _, rfl, by decide⟩)
  | .array es s, _ => .of_operand (by rw [chars_array]; exact ⟨_, _, rfl, by decide⟩)
  | .cast .., h | .await .., h | .arrayRepeat .., h | .structLit .., h | .invoke .., h
  | .range .., h | .closure .., h | .letCond .., h | .block .., h | .ifElse .., h | .matchOn .., h
  | .loop .., h | .whileLoop .., h | .forLoop .., h | .ret .., h | .brk .., h | .cont .., h => by
    cases h

end InkGauge.Contract
