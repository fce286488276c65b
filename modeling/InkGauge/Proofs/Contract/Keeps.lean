import InkGauge.Proofs.Contract.Ink

/-!
`Keeps p F` says that wherever `p` matches, the pieces `F` of its value stand in a row in what was
read. Sequences, choices and repetitions keep rows; an action keeps them if it drops pieces, or puts
a node around them.
-/

namespace InkGauge.Contract.Grammar

open Peg (Cursor Slice)

variable {α β γ δ ε : Type} {text : List Char} {call : (r : Rule) → Cursor → Peg.Reply r.Value}

def pair (F : α → List Piece) (G : β → List Piece) (x : α × β) : List Piece := F x.1 ++ G x.2

def each (F : α → List Piece) (as : List α) : List Piece := as.flatMap F

def perhaps (F : α → List Piece) : Option α → List Piece
  | none => []
  | some a => F a

def nothing (_ : α) : List Piece := []

/-- The one node that a value is. -/
def single (f : α → Node) (a : α) : List Piece := [.node (f a)]

def kindPieces (k : ItemKind) : List Piece := k.children.map .node

def paramPieces (p : Param) : List Piece := p.children.map .node

def opPieces : PostfixOp → List Piece
  | .method _ _ args | .call args => each (single .expr) args
  | .index i => single .expr i
  | .await | .field _ | .attempt => []

/-- A postfix operator has no start of its own; where it ends is kept. -/
def postfixPieces (p : Postfix) : List Piece := opPieces p.op ++ [.mark p.stop]

def arrayPieces : ArrayBody → List Piece
  | .list elems => each (single .expr) elems
  | .copies elem length => [.node (.expr elem), .node (.expr length)]

def PathRef.node (p : PathRef) : Node := .expr (.path p.segments p.text p.span)

section

variable (F : α → List Piece) (G : β → List Piece) (f : α → Node)

@[simp] theorem pair_mk (a : α) (b : β) : pair F G (a, b) = F a ++ G b := rfl

@[simp] theorem nothing_apply (a : α) : nothing a = [] := rfl

@[simp] theorem single_apply (a : α) : single f a = [.node (f a)] := rfl

@[simp] theorem perhaps_none : perhaps F none = [] := rfl

@[simp] theorem perhaps_some (a : α) : perhaps F (some a) = F a := rfl

@[simp] theorem perhaps_nothing (o : Option α) : perhaps nothing o = [] := by
  cases o <;> rfl

@[simp] theorem each_nil : each F [] = [] := rfl

@[simp] theorem each_cons (a : α) (as : List α) : each F (a :: as) = F a ++ each F as := rfl

@[simp] theorem each_single (as : List α) : each (single f) as = (as.map f).map .node := by
  induction as with
  | nil => rfl
  | cons a as ih => simp [ih]

@[simp] theorem perhaps_single (o : Option α) :
    perhaps (single f) o = (o.toList.map f).map .node := by
  cases o <;> rfl

end

abbrev LexRule.pieces : (r : LexRule) → r.Value → List Piece
  | .literal => single .expr
  | .outerAttr | .innerAttr => single .attribute
  | _ => nothing

abbrev TypeRule.pieces : (r : TypeRule) → r.Value → List Piece
  | .type | .typeNoBounds | .typeAnnot | .retType => single .fragment
  | _ => nothing

abbrev PatternRule.pieces : (r : PatternRule) → r.Value → List Piece
  | .pattern | .patternNoAlt => single .fragment
  | _ => nothing

abbrev ItemRule.pieces : (r : ItemRule) → r.Value → List Piece
  | .file => pair (each (single .attribute)) (each (single .item))
  | .item | .stmtItem => single .item
  | .itemKind | .stmtItemKind => kindPieces
  | .fnItem | .implItem | .structItem | .enumItem | .traitItem | .constItem | .staticItem
  | .useItem | .modItem | .typeAlias | .externCrate | .externBlock | .macroItem => kindPieces
  | .fnBody => perhaps (single .block)
  | .fnParams => each paramPieces
  | .fnParam | .selfParam | .typedParam => paramPieces
  | .implTrait => single .fragment
  | _ => nothing

abbrev StmtRule.pieces : (r : StmtRule) → r.Value → List Piece
  | .block | .letElse => single .block
  | .stmtSeq => pair (each (single .stmt)) (perhaps (single .expr))
  | .stmtWs | .stmt | .emptyStmt | .letStmt | .blockStmt | .exprStmt => single .stmt
  | .letInit => pair (single .expr) (perhaps (single .block))
  | .blockTail => single .expr

abbrev ExprRule.pieces : (r : ExprRule) → r.Value → List Piece
  | .assignOp | .rangeOp | .orOp | .andOp | .cmpOp | .bitorOp | .bitxorOp | .bitandOp | .shiftOp
  | .addOp | .mulOp | .unaryOp | .turbofish | .closureParams | .label | .exprSegment
  | .closureParam | .armEnd => nothing
  | .postfixOp | .methodCallOp | .awaitOp | .fieldOp | .callOp | .indexOp | .tryOp => postfixPieces
  | .exprList => each (single .expr)
  | .closureBody => pair (perhaps (single .fragment)) (single .expr)
  | .matchArm => single .arm
  | .structLitBody => pair (each (single .field)) (perhaps (single .expr))
  | .structField => single .field
  | .pathExpr | .qualifiedPathExpr | .plainPathExpr => single PathRef.node
  | .arrayBody => arrayPieces
  | .arrayRepeat => pair (single .expr) (single .expr)
  | .expr _ | .rangeExpr _ | .rangeFull _ | .orExpr _ | .andExpr _ | .cmpExpr _ | .bitorExpr _
  | .bitxorExpr _ | .bitandExpr _ | .shiftExpr _ | .addExpr _ | .mulExpr _ | .castExpr _
  | .unaryExpr _ | .postfixExpr _ | .primary _ | .closure | .blockLike | .ifExpr | .elseBranch
  | .cond | .letChain | .letCond | .matchExpr | .matchGuard | .armBody | .loopExpr | .whileExpr
  | .forExpr | .uncheckedBlock | .asyncBlock | .blockExpr | .macroCall | .structLit | .structBase
  | .unitExpr | .parenExpr | .tupleExpr | .arrayExpr | .returnExpr | .breakExpr
  | .continueExpr => single .expr

/-- The nodes that the value of a rule is made of, in source order. -/
abbrev Rule.pieces : (r : Rule) → r.Value → List Piece
  | .lex r => r.pieces
  | .type r => r.pieces
  | .pattern r => r.pieces
  | .item r => r.pieces
  | .stmt r => r.pieces
  | .expr r => r.pieces

/-- The words of which literals are made. -/
def LexRule.isLiteral : LexRule → Bool
  | .rawString | .stringLit | .charLit | .number | .truth => true
  | _ => false

/-- The rules for expressions that own statements yield nothing else. -/
def ExprRule.Owns : (r : ExprRule) → r.Value → Prop
  | .blockLike | .ifExpr | .matchExpr | .loopExpr | .whileExpr | .forExpr | .uncheckedBlock
  | .asyncBlock | .blockExpr => fun e => e.isBlockLike = true
  | _ => fun _ => True

abbrev LexRule.Ends (text : List Char) : (r : LexRule) → r.Value → Nat → Prop
  | .literal => fun e hi => e.WrittenTo text hi
  | _ => fun _ _ => True

abbrev TypeRule.Ends (text : List Char) : (r : TypeRule) → r.Value → Nat → Prop
  | .typeNoBounds => fun f hi => BlankBetween text f.span.stop hi
  | _ => fun _ _ => True

abbrev StmtRule.Ends (text : List Char) : (r : StmtRule) → r.Value → Nat → Prop
  | .block | .letElse => fun b hi => BlankBetween text b.span.stop hi
  | .letInit => fun x hi => x.1.InitTo text hi x.2
  | _ => fun _ _ => True

abbrev ExprRule.Ends (text : List Char) : (r : ExprRule) → r.Value → Nat → Prop
  | .postfixOp | .methodCallOp | .awaitOp | .fieldOp | .callOp | .indexOp | .tryOp =>
    fun p hi => BlankBetween text p.stop hi
  | .pathExpr | .qualifiedPathExpr | .plainPathExpr => fun p hi => BlankBetween text p.span.stop hi
  | .expr _ | .rangeExpr _ | .rangeFull _ | .orExpr _ | .andExpr _ | .cmpExpr _ | .bitorExpr _
  | .bitxorExpr _ | .bitandExpr _ | .shiftExpr _ | .addExpr _ | .mulExpr _ | .castExpr _
  | .unaryExpr _ | .postfixExpr _ | .primary _ | .closure | .blockLike | .ifExpr | .matchExpr
  | .loopExpr | .whileExpr | .forExpr | .uncheckedBlock | .asyncBlock | .blockExpr | .macroCall
  | .structLit | .unitExpr | .parenExpr | .tupleExpr | .arrayExpr | .returnExpr | .breakExpr
  | .continueExpr => fun e hi => e.WrittenTo text hi
  | _ => fun _ _ => True

/-- How the span of what a rule yields lies to the place where reading stopped. -/
abbrev Rule.Ends (text : List Char) : (r : Rule) → r.Value → Nat → Prop
  | .lex r => r.Ends text
  | .type r => r.Ends text
  | .stmt r => r.Ends text
  | .expr r => r.Ends text
  | .pattern _ | .item _ => fun _ _ => True

/-- The word that a rule starts with. -/
def Rule.opening? : Rule → Option (List Char)
  | .lex (.word w) => some w
  | .stmt .letElse => some "else".toList
  | _ => none

/-- What is known of every rule: it goes forward, reads more than blanks where it should, and leaves
a row behind; literals end where reading stopped. -/
class Sound (text : List Char) (call : (r : Rule) → Cursor → Peg.Reply r.Value) : Prop where
  reaches : ∀ r k a k', call r k = .matched a k' → k.Reaches k'
  inked : ∀ r k a k', r.inked = true → At text k → call r k = .matched a k' →
    InkBetween text k.offset k'.offset
  exact : ∀ r k a k', r.isLiteral = true → At text k → call (.lex r) k = .matched a k' →
    k.offset < k'.offset ∧ Inked text (k'.offset - 1)
  owns : ∀ r k a k', call (.expr r) k = .matched a k' → r.Owns a
  opens : ∀ r k a k' w, r.opening? = some w → call r k = .matched a k' → w <+: k.rest
  ends : ∀ r k a k', At text k → call r k = .matched a k' → r.Ends text a k'.offset
  row : ∀ r k a k', At text k → call r k = .matched a k' →
    Row text k.offset k'.offset (r.pieces a)

/-- Wherever `p` matches, the pieces of its value stand in a row in what it read. -/
class Keeps (text : List Char) (call : (r : Rule) → Cursor → Peg.Reply r.Value) (p : P α)
    (F : outParam (α → List Piece)) : Prop where
  row : ∀ k a k', At text k → p.answer Token.scan call k = .matched a k' →
    Row text k.offset k'.offset (F a)

section

variable [Sound text call] {p : P α} {q : P β} {F : α → List Piece} {G : β → List Piece}
  {H : γ → List Piece}

theorem reaches_of_answer (text : List Char) [Sound text call] {k k' : Cursor} {a : α}
    (h : p.answer Token.scan call k = .matched a k') : k.Reaches k' :=
  Peg.Expression.answer_reaches (Sound.reaches text) h

theorem Keeps.of_nothing (p : P α) : Keeps text call p nothing where
  row _ _ _ _ h := (reaches_of_answer text h).offset_le

instance keeps_text (s : List Char) : Keeps text call (.text s) nothing := .of_nothing _

instance keeps_symbol (table : List (Peg.Symbol α)) : Keeps text call (.symbol table) nothing :=
  .of_nothing _

instance keeps_token (t : Token) : Keeps text call (.token t) nothing := .of_nothing _

instance keeps_rule (r : Rule) : Keeps text call (.rule r) r.pieces where
  row k a k' hk h := Sound.row r k a k' hk h

theorem Keeps.both (hp : Keeps text call p F) (hq : Keeps text call q G) :
    Keeps text call (.both p q) (pair F G) where
  row k a k' hk h := by
    obtain ⟨k₁, h₁, h₂⟩ := Peg.Expression.answer_both.1 h
    have hk₁ := hk.of_reaches (reaches_of_answer text h₁)
    exact (hp.row k _ k₁ hk h₁).append (hq.row k₁ _ k' hk₁ h₂)

instance keeps_both [hp : Keeps text call p F] [hq : Keeps text call q G] :
    Keeps text call (.both p q) (pair F G) := hp.both hq

omit [Sound text call] in
theorem Keeps.choice {p q : P α} (hp : Keeps text call p F) (hq : Keeps text call q F) :
    Keeps text call (p <|> q) F where
  row k a k' hk h := by
    rcases Peg.Expression.answer_either.1 h with h | ⟨_, h⟩
    · exact hp.row k a k' hk h
    · exact hq.row k a k' hk h

instance keeps_orElse {p q : P α} [hp : Keeps text call p F] [hq : Keeps text call q F] :
    Keeps text call (p <|> q) F := hp.choice hq

instance keeps_option [hp : Keeps text call p F] : Keeps text call (.option p) (perhaps F) where
  row k a k' hk h := by
    rcases Peg.Expression.answer_option h with ⟨a, rfl, hm⟩ | ⟨rfl, rfl⟩
    · exact hp.row k a k' hk hm
    · exact Nat.le_refl _

theorem row_of_repeats [hp : Keeps text call p F] {k k' : Cursor} {as : List α} (hk : At text k)
    (h : Peg.Reply.Repeats (p.answer Token.scan call) k as k') :
    Row text k.offset k'.offset (each F as) := by
  induction h with
  | stop k => exact Nat.le_refl _
  | step head _ ih =>
    have hk₁ := hk.of_reaches (reaches_of_answer text head)
    exact (hp.row _ _ _ hk head).append (ih hk₁)

instance keeps_many [hp : Keeps text call p F] : Keeps text call (.many p) (each F) where
  row _ _ _ hk h := row_of_repeats hk (Peg.Expression.answer_many h)

instance keeps_many1 [hp : Keeps text call p F] : Keeps text call (.many1 p) (each F) where
  row _ _ _ hk h := row_of_repeats hk (Peg.Expression.answer_many1 h).2

theorem Keeps.left (hp : Keeps text call p F) (q : P β) : Keeps text call (p <* q) F where
  row k a k' hk h := by
    obtain ⟨x, hx, rfl⟩ := Peg.Expression.answer_act.1 h
    obtain ⟨k₁, h₁, h₂⟩ := Peg.Expression.answer_both.1 hx
    exact (hp.row k _ k₁ hk h₁).mono (Nat.le_refl _) (reaches_of_answer text h₂).offset_le

instance keeps_seqLeft [hp : Keeps text call p F] : Keeps text call (p <* q) F := hp.left q

theorem Keeps.right (hq : Keeps text call q G) (p : P α) : Keeps text call (p *> q) G where
  row k a k' hk h := by
    obtain ⟨x, hx, rfl⟩ := Peg.Expression.answer_act.1 h
    obtain ⟨k₁, h₁, h₂⟩ := Peg.Expression.answer_both.1 hx
    have hr := reaches_of_answer text h₁
    exact (hq.row k₁ _ k' (hk.of_reaches hr) h₂).mono hr.offset_le (Nat.le_refl _)

instance keeps_seqRight [hq : Keeps text call q G] : Keeps text call (p *> q) G := hq.right p

instance keeps_void (p : P α) : Keeps text call (void p) nothing := .of_nothing _

instance keeps_bare (s : String) : Keeps text call (bare s) nothing := .of_nothing _

instance keeps_sym (s : String) : Keeps text call (sym s) nothing := .of_nothing _

instance keeps_lex (r : LexRule) :
    Keeps (α := no_index r.Value) text call (lex r) (no_index r.pieces) :=
  keeps_rule (.lex r)

instance keeps_typ (r : TypeRule) :
    Keeps (α := no_index r.Value) text call (typ r) (no_index r.pieces) :=
  keeps_rule (.type r)

instance keeps_pat (r : PatternRule) :
    Keeps (α := no_index r.Value) text call (pat r) (no_index r.pieces) :=
  keeps_rule (.pattern r)

instance keeps_itm (r : ItemRule) :
    Keeps (α := no_index r.Value) text call (itm r) (no_index r.pieces) :=
  keeps_rule (.item r)

instance keeps_stm (r : StmtRule) :
    Keeps (α := no_index r.Value) text call (stm r) (no_index r.pieces) :=
  keeps_rule (.stmt r)

instance keeps_exp (r : ExprRule) :
    Keeps (α := no_index r.Value) text call (exp r) (no_index r.pieces) :=
  keeps_rule (.expr r)

instance keeps_opt [Keeps text call p F] : Keeps text call (opt p) (perhaps F) := keeps_option

instance keeps_manyOf [Keeps text call p F] : Keeps text call (many p) (each F) := keeps_many

instance keeps_kw (w : String) : Keeps text call (kw w) nothing := .of_nothing _

instance keeps_skipAttrs : Keeps text call skipAttrs nothing := .of_nothing _

instance keeps_attrs : Keeps text call attrs (each (single .attribute)) :=
  inferInstanceAs (Keeps text call (many (lex .outerAttr)) _)

omit [Sound text call] in
/-- An action after which the pieces still stand in a row. -/
theorem Keeps.act (hp : Keeps text call p F) {f : Slice → α → β}
    (h : ∀ lo hi s a, Row text lo hi (F a) → Row text lo hi (G (f s a))) :
    Keeps text call (.act f p) G where
  row k b k' hk hb := by
    obtain ⟨a, ha, rfl⟩ := Peg.Expression.answer_act.1 hb
    exact h _ _ _ a (hp.row k a k' hk ha)

omit [Sound text call] in
theorem Keeps.map [hp : Keeps text call p F] {f : α → β}
    (h : ∀ lo hi a, Row text lo hi (F a) → Row text lo hi (G (f a))) :
    Keeps text call (f <$> p) G :=
  hp.act fun lo hi _ => h lo hi

theorem answer_seq {p : P (α → β)} {q : P α} {k k'' : Cursor} {b : β}
    (h : (p <*> q).answer Token.scan call k = .matched b k'') :
    ∃ f k' a, p.answer Token.scan call k = .matched f k' ∧
      q.answer Token.scan call k' = .matched a k'' ∧ b = f a := by
  obtain ⟨⟨f, a⟩, hx, hb⟩ := Peg.Expression.answer_act.1 h
  obtain ⟨k', hf, ha⟩ := Peg.Expression.answer_both.1 hx
  exact ⟨f, k', a, hf, ha, hb⟩

theorem Keeps.map₂ [hp : Keeps text call p F] [hq : Keeps text call q G] {f : α → β → γ}
    (h : ∀ lo hi a b, Row text lo hi (F a ++ G b) → Row text lo hi (H (f a b))) :
    Keeps text call (f <$> p <*> q) H where
  row k c k' hk hc := by
    obtain ⟨_, k₁, b, hfst, hb, rfl⟩ := answer_seq hc
    obtain ⟨a, ha, rfl⟩ := Peg.Expression.answer_act.1 hfst
    have hk₁ := hk.of_reaches (reaches_of_answer text ha)
    exact h _ _ a b ((hp.row k a k₁ hk ha).append (hq.row k₁ b k' hk₁ hb))

theorem Keeps.map₃ {r : P γ} {J : δ → List Piece} [hp : Keeps text call p F]
    [hq : Keeps text call q G] [hr : Keeps text call r H] {f : α → β → γ → δ}
    (h : ∀ lo hi a b c, Row text lo hi (F a ++ G b ++ H c) → Row text lo hi (J (f a b c))) :
    Keeps text call (f <$> p <*> q <*> r) J where
  row k d k' hk hd := by
    obtain ⟨_, k₂, c, hsnd, hc, rfl⟩ := answer_seq hd
    obtain ⟨_, k₁, b, hfst, hb, rfl⟩ := answer_seq hsnd
    obtain ⟨a, ha, rfl⟩ := Peg.Expression.answer_act.1 hfst
    have hk₁ := hk.of_reaches (reaches_of_answer text ha)
    have hk₂ := hk₁.of_reaches (reaches_of_answer text hb)
    have hab := (hp.row k a k₁ hk ha).append (hq.row k₁ b k₂ hk₁ hb)
    exact h _ _ a b c (hab.append (hr.row k₂ c k' hk₂ hc))

theorem Keeps.map₄ {r : P γ} {s : P δ} {J : δ → List Piece} {K : ε → List Piece}
    [hp : Keeps text call p F] [hq : Keeps text call q G] [hr : Keeps text call r H]
    [hs : Keeps text call s J] {f : α → β → γ → δ → ε}
    (h : ∀ lo hi a b c d, Row text lo hi (F a ++ G b ++ H c ++ J d) →
      Row text lo hi (K (f a b c d))) :
    Keeps text call (f <$> p <*> q <*> r <*> s) K where
  row k e k' hk he := by
    obtain ⟨_, k₃, d, hthd, hd, rfl⟩ := answer_seq he
    obtain ⟨_, k₂, c, hsnd, hc, rfl⟩ := answer_seq hthd
    obtain ⟨_, k₁, b, hfst, hb, rfl⟩ := answer_seq hsnd
    obtain ⟨a, ha, rfl⟩ := Peg.Expression.answer_act.1 hfst
    have hk₁ := hk.of_reaches (reaches_of_answer text ha)
    have hk₂ := hk₁.of_reaches (reaches_of_answer text hb)
    have hk₃ := hk₂.of_reaches (reaches_of_answer text hc)
    have hab := (hp.row k a k₁ hk ha).append (hq.row k₁ b k₂ hk₁ hb)
    exact h _ _ a b c d ((hab.append (hr.row k₂ c k₃ hk₂ hc)).append (hs.row k₃ d k' hk₃ hd))

/-- A node around the pieces of `p`, whose span is what `p` read. -/
theorem Keeps.node (hp : Keeps text call p F) {f : Slice → α → β} {wrap : β → Node}
    (hi : p.inked Token.inked Rule.inked = true) (hs : ∀ s a, (wrap (f s a)).span = spanOf s)
    (hc : ∀ s a, ((wrap (f s a)).children.map Piece.node).Sublist (F a))
    (hcl : ∀ k a k', At text k → p.answer Token.scan call k = .matched a k' →
      (wrap (f ⟨k, k'.offset⟩ a)).Closed text) :
    Keeps text call (.act f p) (single wrap) where
  row k b k' hk hb := by
    obtain ⟨a, ha, rfl⟩ := Peg.Expression.answer_act.1 hb
    have hk' := hk.of_reaches (reaches_of_answer text ha)
    have hink := answer_inked (Sound.reaches text) Sound.inked hi hk ha
    exact row_spanOf hk hk' hink (hp.row k a k' hk ha) (hs _ a) (hc _ a) (hcl k a k' hk ha)

/-- A node that keeps nothing of what `p` yields. -/
theorem Keeps.leaf {f : Slice → α → β} {wrap : β → Node}
    (hi : p.inked Token.inked Rule.inked = true) (hs : ∀ s a, (wrap (f s a)).span = spanOf s)
    (hc : ∀ s a, (wrap (f s a)).children = []) (hcl : ∀ s a, (wrap (f s a)).Closed text) :
    Keeps text call (.act f p) (single wrap) :=
  .node (.of_nothing p) hi hs (fun s a => by rw [hc]; exact .refl _) fun k a k' _ _ => hcl _ a

instance keeps_commaList [hp : Keeps text call p F] : Keeps text call (commaList p) (each F) :=
  have : Keeps text call ((fun a as => a :: as) <$> p <*> many (sym "," *> p)) (each F) :=
    .map₂ fun _ _ _ _ h => h
  inferInstanceAs (Keeps text call (_ <* _) _)

instance keeps_commaList0 [hp : Keeps text call p F] : Keeps text call (commaList0 p) (each F) :=
  .map fun _ _ o h => by
    cases o with
    | none => exact h
    | some as => exact h

end

end InkGauge.Contract.Grammar
