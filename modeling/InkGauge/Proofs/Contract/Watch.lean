import InkGauge.Proofs.Contract.Discovery
import InkGauge.Proofs.Contract.Total
import InkGauge.Proofs.Peg.Insertion
import Mathlib.Data.List.Forall2

/-!
What a comment can change is the text that rules keep: a type, a pattern or the arguments of a macro
are kept with the comments in them. `spoils` says when the text kept by a rule changes. `Alike p F`
says that wherever reading is not disturbed, `p` yields values that are the same up to the spans `F`
finds in them.
-/

namespace InkGauge.Contract.Grammar

open Peg (Cursor Insertion Reply Sight Slice Spot Watch)

/-- Rules of which the text is kept as it stands. -/
def Rule.isRaw : Rule → Bool
  | .lex r =>
    match r with
    | .rawString | .stringLit | .charLit | .number | .truth | .outerAttr | .innerAttr | .tree => true
    | _ => false
  | _ => false

/-- The text that is kept of what a rule read. -/
def Rule.keptText? : Rule → Option (List Char → List Char)
  | .lex r =>
    match r with
    | .lifetime | .pathIdent | .ident | .underscore | .tupleIndex => some Text.stripTrivia
    | .simplePath | .visibility => some fun s => Text.squeeze (Text.stripTrivia s)
    | _ => none
  | .type r =>
    match r with
    | .type | .typeNoBounds => some Text.compact
    | .retType => some fun s => Text.compact (s.drop 2)
    | _ => none
  | .pattern r =>
    match r with
    | .pattern | .patternNoAlt => some Text.compact
    | _ => none
  | .item r =>
    match r with
    | .selfParam | .useItem | .typeAlias | .externCrate | .externBlock => some Text.compact
    | _ => none
  | .stmt _ => none
  | .expr r =>
    match r with
    | .turbofish | .closureParams | .qualifiedPathExpr => some Text.compact
    | .plainPathExpr => some fun s => Text.squeeze (Text.stripTrivia s)
    | .label => some fun s =>
      Text.trim ((Text.stripTrivia s).reverse.dropWhile (· == ':')).reverse
    | _ => none

/-- Does the signature of a function reach to a place? -/
def signatureReaches (place : Nat) (x : Item) : Bool :=
  match x.function? with
  | some fn => fn.body.all fun b => place ≤ b.span.start
  | none => false

/-- Would the insertion change the text that a rule keeps? -/
def spoils (i : Insertion) (r : Rule) (s : Spot) (a : r.Value) (s' : Spot) : Bool :=
  r.isRaw && s'.past != s.past ||
    !s.past && s'.past &&
      ((r.keptText?.any fun f =>
        f (Slice.mk s.cursor s'.cursor.offset).chars != f (i.between s.cursor s'.cursor.offset)) ||
      match r, a with
      | .item .item, x | .item .stmtItem, x => signatureReaches i.place x
      | _, _ => false)

/-- Only trivia takes an insertion along. -/
def watch (i : Insertion) : Watch Rule.Value where
  insertion := i
  gap r := r == .lex .trivia
  spoils := spoils i

variable {α β γ δ ε : Type}

/-- A span as it is after the insertion. Where it stops is forgotten. -/
def shifted (i : Insertion) (s : Span) : Span :=
  ⟨if s.start < i.place then s.start else s.start + i.added.length, 0, s.line, 0⟩

/-- Where a span starts, and on which line. -/
def rough (s : Span) : Span := ⟨s.start, 0, s.line, 0⟩

/-- How the spans in a value are mapped. -/
abbrev Respan (α : Type) := (Span → Span) → α → α

namespace Respan

def same : Respan α := fun _ a => a

def pair (F : Respan α) (G : Respan β) : Respan (α × β) := fun f => Prod.map (F f) (G f)

def each (F : Respan α) : Respan (List α) := fun f => List.map (F f)

def perhaps (F : Respan α) : Respan (Option α) := fun f => Option.map (F f)

end Respan

def PathRef.mapSpans : Respan PathRef := fun f p => ⟨p.segments, p.text, f p.span⟩

def PostfixOp.mapSpans : Respan PostfixOp := fun f op =>
  match op with
  | .method name turbofish args => .method name turbofish (args.map (Expr.mapSpans f))
  | .await => .await
  | .field member => .field member
  | .call args => .call (args.map (Expr.mapSpans f))
  | .index i => .index (i.mapSpans f)
  | .attempt => .attempt

def Postfix.mapSpans : Respan Postfix := fun f p => ⟨p.op.mapSpans f, 0⟩

def ArrayBody.mapSpans : Respan ArrayBody := fun f body =>
  match body with
  | .list elems => .list (elems.map (Expr.mapSpans f))
  | .copies elem length => .copies (elem.mapSpans f) (length.mapSpans f)

abbrev LexRule.respan : (r : LexRule) → Respan r.Value
  | .literal => Expr.mapSpans
  | .outerAttr | .innerAttr => Attribute.mapSpans
  | _ => .same

abbrev TypeRule.respan : (r : TypeRule) → Respan r.Value
  | .type | .typeNoBounds | .typeAnnot | .retType => Fragment.mapSpans
  | _ => .same

abbrev PatternRule.respan : (r : PatternRule) → Respan r.Value
  | .pattern | .patternNoAlt => Fragment.mapSpans
  | _ => .same

abbrev ItemRule.respan : (r : ItemRule) → Respan r.Value
  | .file => .pair (.each Attribute.mapSpans) (.each Item.mapSpans)
  | .item | .stmtItem => Item.mapSpans
  | .itemKind | .stmtItemKind => ItemKind.mapSpans
  | .fnItem | .implItem | .structItem | .enumItem | .traitItem | .constItem | .staticItem
  | .useItem | .modItem | .typeAlias | .externCrate | .externBlock | .macroItem => ItemKind.mapSpans
  | .fnBody => .perhaps Block.mapSpans
  | .fnParams => .each Param.mapSpans
  | .fnParam | .selfParam | .typedParam => Param.mapSpans
  | .implTrait => Fragment.mapSpans
  | _ => .same

abbrev StmtRule.respan : (r : StmtRule) → Respan r.Value
  | .block | .letElse => Block.mapSpans
  | .stmtSeq => .pair (.each Stmt.mapSpans) (.perhaps Expr.mapSpans)
  | .stmtWs | .stmt | .emptyStmt | .letStmt | .blockStmt | .exprStmt => Stmt.mapSpans
  | .letInit => .pair Expr.mapSpans (.perhaps Block.mapSpans)
  | .blockTail => Expr.mapSpans

abbrev ExprRule.respan : (r : ExprRule) → Respan r.Value
  | .assignOp | .rangeOp | .orOp | .andOp | .cmpOp | .bitorOp | .bitxorOp | .bitandOp | .shiftOp
  | .addOp | .mulOp | .unaryOp | .turbofish | .closureParams | .label | .exprSegment
  | .closureParam | .armEnd => .same
  | .postfixOp | .methodCallOp | .awaitOp | .fieldOp | .callOp | .indexOp | .tryOp =>
    Postfix.mapSpans
  | .exprList => .each Expr.mapSpans
  | .closureBody => .pair (.perhaps Fragment.mapSpans) Expr.mapSpans
  | .matchArm => MatchArm.mapSpans
  | .structLitBody => .pair (.each FieldInit.mapSpans) (.perhaps Expr.mapSpans)
  | .structField => FieldInit.mapSpans
  | .pathExpr | .qualifiedPathExpr | .plainPathExpr => PathRef.mapSpans
  | .arrayBody => ArrayBody.mapSpans
  | .arrayRepeat => .pair Expr.mapSpans Expr.mapSpans
  | .expr _ | .rangeExpr _ | .rangeFull _ | .orExpr _ | .andExpr _ | .cmpExpr _ | .bitorExpr _
  | .bitxorExpr _ | .bitandExpr _ | .shiftExpr _ | .addExpr _ | .mulExpr _ | .castExpr _
  | .unaryExpr _ | .postfixExpr _ | .primary _ | .closure | .blockLike | .ifExpr | .elseBranch
  | .cond | .letChain | .letCond | .matchExpr | .matchGuard | .armBody | .loopExpr | .whileExpr
  | .forExpr | .uncheckedBlock | .asyncBlock | .blockExpr | .macroCall | .structLit | .structBase
  | .unitExpr | .parenExpr | .tupleExpr | .arrayExpr | .returnExpr | .breakExpr
  | .continueExpr => Expr.mapSpans

/-- How the spans in the value of a rule are mapped. -/
abbrev Rule.respan : (r : Rule) → Respan r.Value
  | .lex r => r.respan
  | .type r => r.respan
  | .pattern r => r.respan
  | .item r => r.respan
  | .stmt r => r.respan
  | .expr r => r.respan

variable {i : Insertion} {call : (r : Rule) → Spot → Sight r.Value}

/-- Equal up to the spans that `F` finds, and where these are shifted by the insertion. -/
abbrev Agree (i : Insertion) (F : Respan α) (a a' : α) : Prop := F (shifted i) a = F rough a'

/-- What is known of every rule that is watched. -/
class Watched (i : Insertion) (call : (r : Rule) → Spot → Sight r.Value) : Prop where
  added : i.added ≠ []
  calm : ∀ r s a s', r.isRaw = true → call r s = .matched a s' → s'.past = s.past
  tells : ∀ r s k', i.Near s k' → (call r s).Tells i (Agree i r.respan) (grammar.reply r s.cursor)
    (grammar.reply r k')

/-- As long as reading is not disturbed, `p` yields the same up to the spans that `F` finds. -/
class Alike (i : Insertion) (call : (r : Rule) → Spot → Sight r.Value) (p : P α)
    (F : outParam (Respan α)) : Prop where
  tells : p.Tells i Token.scan call grammar.reply (Agree i F)

theorem agree_perhaps {F : Respan α} {o o' : Option α} (h : Option.Rel (Agree i F) o o') :
    Agree i (.perhaps F) o o' := by
  cases h with
  | some h => exact congrArg some h
  | none => rfl

theorem agree_each {F : Respan α} {as as' : List α} (h : List.Forall₂ (Agree i F) as as') :
    Agree i (.each F) as as' := by
  induction h with
  | nil => rfl
  | cons h _ ih => exact congrArg₂ List.cons h ih

section

variable {p : P α} {q : P β} {F : Respan α} {G : Respan β} {H : Respan γ}

theorem Alike.both (hp : Alike i call p F) (hq : Alike i call q G) :
    Alike i call (.both p q) (.pair F G) where
  tells s k' hs := (hp.tells.both hq.tells s k' hs).mono fun _ _ h => Prod.ext h.1 h.2

instance alike_both [hp : Alike i call p F] [hq : Alike i call q G] :
    Alike i call (.both p q) (.pair F G) := hp.both hq

theorem Alike.choice {p q : P α} (hp : Alike i call p F) (hq : Alike i call q F) :
    Alike i call (p <|> q) F where
  tells := hp.tells.either hq.tells

instance alike_orElse {p q : P α} [hp : Alike i call p F] [hq : Alike i call q F] :
    Alike i call (p <|> q) F := hp.choice hq

instance alike_option [hp : Alike i call p F] : Alike i call (.option p) (.perhaps F) where
  tells s k' hs := (hp.tells.option s k' hs).mono fun _ _ => agree_perhaps

instance alike_many [hp : Alike i call p F] : Alike i call (.many p) (.each F) where
  tells s k' hs := (hp.tells.many grammar.reply_reaches s k' hs).mono fun _ _ => agree_each

instance alike_many1 [hp : Alike i call p F] : Alike i call (.many1 p) (.each F) where
  tells s k' hs := (hp.tells.many1 grammar.reply_reaches s k' hs).mono fun _ _ => agree_each

instance alike_symbol (table : List (Peg.Symbol α)) : Alike i call (.symbol table) .same where
  tells := Peg.tells_symbol table

instance alike_opt [Alike i call p F] : Alike i call (opt p) (.perhaps F) := alike_option

instance alike_manyOf [Alike i call p F] : Alike i call (many p) (.each F) := alike_many

end

section

variable [Watched i call] {p : P α} {q : P β} {F : Respan α} {G : Respan β}

/-- Whatever an expression yields, it is refused or ends at the same place. -/
theorem tells_end (i : Insertion) (call : (r : Rule) → Spot → Sight r.Value) [Watched i call]
    (p : P α) : p.Tells i Token.scan call grammar.reply fun _ _ => True :=
  Peg.Expression.tells_end grammar.reply_reaches
    (fun r s k' hs => (Watched.tells r s k' hs).mono fun _ _ _ => trivial) p

theorem Alike.of_unit (p : P Unit) : Alike i call p .same where
  tells s k' hs := (tells_end i call p s k' hs).mono fun _ _ _ => rfl

instance alike_rule (r : Rule) : Alike i call (.rule r) r.respan where
  tells := Watched.tells r

theorem Alike.left (hp : Alike i call p F) (q : P β) : Alike i call (p <* q) F where
  tells := (hp.tells.both (tells_end i call q)).act fun _ _ _ _ _ _ _ _ _ _ h => h.1

instance alike_seqLeft [hp : Alike i call p F] : Alike i call (p <* q) F := hp.left q

theorem Alike.right (hq : Alike i call q G) (p : P α) : Alike i call (p *> q) G where
  tells := ((tells_end i call p).both hq.tells).act fun _ _ _ _ _ _ _ _ _ _ h => h.2

instance alike_seqRight [hq : Alike i call q G] : Alike i call (p *> q) G := hq.right p

instance alike_bare (s : String) : Alike i call (bare s) .same := .of_unit _

instance alike_sym (s : String) : Alike i call (sym s) .same := .of_unit _

instance alike_lex (r : LexRule) :
    Alike (α := no_index r.Value) i call (lex r) (no_index r.respan) :=
  alike_rule (.lex r)

instance alike_typ (r : TypeRule) :
    Alike (α := no_index r.Value) i call (typ r) (no_index r.respan) :=
  alike_rule (.type r)

instance alike_pat (r : PatternRule) :
    Alike (α := no_index r.Value) i call (pat r) (no_index r.respan) :=
  alike_rule (.pattern r)

instance alike_itm (r : ItemRule) :
    Alike (α := no_index r.Value) i call (itm r) (no_index r.respan) :=
  alike_rule (.item r)

instance alike_stm (r : StmtRule) :
    Alike (α := no_index r.Value) i call (stm r) (no_index r.respan) :=
  alike_rule (.stmt r)

instance alike_exp (r : ExprRule) :
    Alike (α := no_index r.Value) i call (exp r) (no_index r.respan) :=
  alike_rule (.expr r)

instance alike_kw (w : String) : Alike i call (kw w) .same := .of_unit _

instance alike_attrs : Alike i call attrs (.each Attribute.mapSpans) :=
  inferInstanceAs (Alike i call (many (lex .outerAttr)) _)

end

section

variable {p : P α} {q : P β} {F : Respan α} {G : Respan β} {H : Respan γ}

/-- A span that starts with the text read is shifted by the insertion. -/
theorem shifted_spanOf {s : Spot} {k' : Cursor} (hs : i.Near s k') (hf : i.faces s = false)
    (stop stop' : Nat) : shifted i (spanOf ⟨s.cursor, stop⟩) = rough (spanOf ⟨k', stop'⟩) := by
  cases hs with
  | ahead hle hrest =>
    have hlt := Insertion.offset_lt_of_ahead hle hf
    simp [shifted, rough, spanOf, hlt]
  | past hle _ hoffset hline =>
    simp [shifted, rough, spanOf, Nat.not_lt.2 hle, hoffset, hline]

/-- A value made from what `p` yields and where it was read. -/
theorem Alike.node (hp : Alike i call p F) {f : Slice → α → β}
    (h : ∀ x x' a a', shifted i (spanOf x) = rough (spanOf x') → Agree i F a a' →
      Agree i G (f x a) (f x' a')) : Alike i call (.act f p) G where
  tells := hp.tells.act fun _ _ _ _ _ _ hf hs _ _ hm => h _ _ _ _ (shifted_spanOf hs hf _ _) hm

theorem Alike.map [hp : Alike i call p F] {f : α → β}
    (h : ∀ a a', Agree i F a a' → Agree i G (f a) (f a')) : Alike i call (f <$> p) G :=
  hp.node fun _ _ a a' _ => h a a'

theorem tells_seq {p : P (α → β)} {q : P α} {M : (α → β) → (α → β) → Prop}
    (hp : p.Tells i Token.scan call grammar.reply M) (hq : Alike i call q F)
    {N : β → β → Prop} (h : ∀ f f' a a', M f f' → Agree i F a a' → N (f a) (f' a')) :
    (p <*> q).Tells i Token.scan call grammar.reply N :=
  (hp.both hq.tells).act fun _ _ _ _ _ _ _ _ _ _ hm => h _ _ _ _ hm.1 hm.2

theorem tells_map (hp : Alike i call p F) (f : α → β) :
    (f <$> p).Tells i Token.scan call grammar.reply
      fun g g' => ∃ a a', Agree i F a a' ∧ g = f a ∧ g' = f a' :=
  hp.tells.act fun _ _ _ _ a a' _ _ _ _ hm => ⟨a, a', hm, rfl, rfl⟩

theorem tells_map₂ (hp : Alike i call p F) (hq : Alike i call q G) (f : α → β → γ) :
    (f <$> p <*> q).Tells i Token.scan call grammar.reply
      fun g g' => ∃ a a' b b', Agree i F a a' ∧ Agree i G b b' ∧ g = f a b ∧ g' = f a' b' := by
  refine tells_seq (tells_map hp f) hq ?_
  rintro _ _ b b' ⟨a, a', ha, rfl, rfl⟩ hb
  exact ⟨a, a', b, b', ha, hb, rfl, rfl⟩

theorem tells_map₃ {r : P γ} (hp : Alike i call p F) (hq : Alike i call q G)
    (hr : Alike i call r H) (f : α → β → γ → δ) :
    (f <$> p <*> q <*> r).Tells i Token.scan call grammar.reply
      fun g g' => ∃ a a' b b' c c', Agree i F a a' ∧ Agree i G b b' ∧ Agree i H c c' ∧
        g = f a b c ∧ g' = f a' b' c' := by
  refine tells_seq (tells_map₂ hp hq f) hr ?_
  rintro _ _ c c' ⟨a, a', b, b', ha, hb, rfl, rfl⟩ hc
  exact ⟨a, a', b, b', c, c', ha, hb, hc, rfl, rfl⟩

theorem Alike.map₂ [hp : Alike i call p F] [hq : Alike i call q G] {f : α → β → γ}
    (h : ∀ a a' b b', Agree i F a a' → Agree i G b b' → Agree i H (f a b) (f a' b')) :
    Alike i call (f <$> p <*> q) H where
  tells s k' hs := by
    refine (tells_map₂ hp hq f s k' hs).mono ?_
    rintro _ _ ⟨a, a', b, b', ha, hb, rfl, rfl⟩
    exact h a a' b b' ha hb

theorem Alike.map₃ {r : P γ} {J : Respan δ} [hp : Alike i call p F] [hq : Alike i call q G]
    [hr : Alike i call r H] {f : α → β → γ → δ}
    (h : ∀ a a' b b' c c', Agree i F a a' → Agree i G b b' → Agree i H c c' →
      Agree i J (f a b c) (f a' b' c')) : Alike i call (f <$> p <*> q <*> r) J where
  tells s k' hs := by
    refine (tells_map₃ hp hq hr f s k' hs).mono ?_
    rintro _ _ ⟨a, a', b, b', c, c', ha, hb, hc, rfl, rfl⟩
    exact h a a' b b' c c' ha hb hc

theorem Alike.map₄ {r : P γ} {s : P δ} {J : Respan δ} {K : Respan ε} [hp : Alike i call p F]
    [hq : Alike i call q G] [hr : Alike i call r H] [hs : Alike i call s J]
    {f : α → β → γ → δ → ε}
    (h : ∀ a a' b b' c c' d d', Agree i F a a' → Agree i G b b' → Agree i H c c' →
      Agree i J d d' → Agree i K (f a b c d) (f a' b' c' d')) :
    Alike i call (f <$> p <*> q <*> r <*> s) K where
  tells := by
    refine tells_seq (tells_map₃ hp hq hr f) hs ?_
    rintro _ _ d d' ⟨a, a', b, b', c, c', ha, hb, hc, rfl, rfl⟩ hd
    exact h a a' b b' c c' d d' ha hb hc hd

end

section

variable [Watched i call] {p : P α} {F : Respan α}

/-- A value made from the text of what `p` read, where `p` cannot pass the insertion. -/
theorem Alike.of_calm {G : Respan β} {f : Slice → α → β} (hp : p.calm Rule.isRaw = true)
    (h : ∀ x x' a a', x'.chars = x.chars → shifted i (spanOf x) = rough (spanOf x') →
      Agree i G (f x a) (f x' a')) : Alike i call (.act f p) G where
  tells := (tells_end i call p).act fun _ _ _ _ a a' hf hs hs₁ hx _ =>
    h _ _ a a' (hs.chars_eq hs₁ (Peg.Expression.past_of_calm (Watched.calm i) hp hx))
      (shifted_spanOf hs hf _ _)

instance alike_commaList [hp : Alike i call p F] : Alike i call (commaList p) (.each F) :=
  have : Alike i call ((fun a as => a :: as) <$> p <*> many (sym "," *> p)) (.each F) :=
    .map₂ fun _ _ _ _ ha has => congrArg₂ List.cons ha has
  inferInstanceAs (Alike i call (_ <* _) _)

instance alike_commaList0 [hp : Alike i call p F] : Alike i call (commaList0 p) (.each F) :=
  .map fun o o' h => by
    cases o with
    | none =>
      cases o' with
      | none => rfl
      | some as => cases h
    | some as =>
      cases o' with
      | none => cases h
      | some as' => exact Option.some.inj h

end

/-- What a rule yields is the same up to spans, unless the insertion spoils it. -/
def Spared (i : Insertion) (call : (r : Rule) → Spot → Sight r.Value) (r : Rule) : Prop :=
  ∀ s k', i.Near s k' → i.faces s = false →
    (((body r).watched i Token.scan call s).bind fun a s' =>
      if spoils i r s a s' then .lost else .matched a s').Tells i (Agree i r.respan)
        ((body r).answer Token.scan grammar.reply s.cursor)
        ((body r).answer Token.scan grammar.reply k')

section

variable {r : Rule} {p : P α} {F : Respan α}

theorem Spared.of_alike (h : Alike i call (body r) r.respan) : Spared i call r := by
  intro s k' hs _
  have htells := h.tells s k' hs
  cases hx : (body r).watched i Token.scan call s with
  | matched a s₁ =>
    rw [hx] at htells
    dsimp only [Sight.bind]
    split
    · trivial
    · exact htells
  | refused =>
    rw [hx] at htells
    exact htells
  | lost => trivial

/-- A rule with an action at the top. -/
theorem Spared.of_act {M : α → α → Prop} {f : Slice → α → r.Value}
    (hp : p.Tells i Token.scan call grammar.reply M) (hbody : body r = .act f p)
    (h : ∀ s k' s₁ k₁ a a', i.Near s k' → i.faces s = false → i.Near s₁ k₁ →
      p.watched i Token.scan call s = .matched a s₁ →
      p.answer Token.scan grammar.reply k' = .matched a' k₁ → M a a' →
      spoils i r s (f ⟨s.cursor, s₁.cursor.offset⟩ a) s₁ = false →
      Agree i r.respan (f ⟨s.cursor, s₁.cursor.offset⟩ a) (f ⟨k', k₁.offset⟩ a')) :
    Spared i call r := by
  intro s k' hs hf
  rw [hbody]
  unfold Peg.Expression.watched
  rw [if_neg (by simp [hf]), Sight.bind_assoc]
  refine (hp s k' hs).bind fun a a' s₁ k₁ hx hy hm hs₁ => ?_
  dsimp only [Sight.bind]
  split
  · trivial
  · rename_i hspoils
    exact Sight.tells_matched (h s k' s₁ k₁ a a' hs hf hs₁ hx hy hm (by simpa using hspoils)) hs₁

/-- Text that the insertion does not spoil is kept. -/
theorem kept_of_spared (hadded : i.added ≠ []) {t : List Char → List Char}
    (hr : r.keptText? = some t) {s s₁ : Spot} {k' k₁ : Cursor} (hs : i.Near s k') (hs₁ : i.Near s₁ k₁)
    (hreach : k'.Reaches k₁) {a : r.Value} (h : spoils i r s a s₁ = false) :
    t (Slice.mk s.cursor s₁.cursor.offset).chars = t (Slice.mk k' k₁.offset).chars := by
  by_cases hpast : s₁.past = s.past
  · rw [hs.chars_eq hs₁ hpast]
  · cases hsp : s.past with
    | true =>
      rw [hs.past_of_reaches hadded hs₁ hreach hsp, hsp] at hpast
      exact absurd rfl hpast
    | false =>
      have hs₁p : s₁.past = true := by simpa [hsp] using hpast
      rw [hs.chars_between hs₁ hsp hs₁p]
      simp only [spoils, hsp, hs₁p, hr, Option.any_some, Bool.not_false, Bool.true_and,
        Bool.or_eq_false_iff, bne_eq_false_iff_eq] at h
      exact h.2.1

/-- A rule that keeps a text of what it read. -/
theorem Spared.of_text [Watched i call] {t : List Char → List Char} (hr : r.keptText? = some t)
    {M : α → α → Prop} {f : Slice → α → r.Value} (hp : p.Tells i Token.scan call grammar.reply M)
    (hbody : body r = .act f p)
    (h : ∀ x x' a a', t x.chars = t x'.chars → shifted i (spanOf x) = rough (spanOf x') → M a a' →
      Agree i r.respan (f x a) (f x' a')) : Spared i call r := by
  refine .of_act hp hbody fun s k' s₁ k₁ a a' hs hf hs₁ _ hy hm hspoils => ?_
  have hreach := Peg.Expression.answer_reaches grammar.reply_reaches hy
  exact h _ _ a a' (kept_of_spared (Watched.added call) hr hs hs₁ hreach hspoils)
    (shifted_spanOf hs hf _ _) hm

/-- A raw text is not spoiled only where the insertion is not passed. -/
theorem past_of_raw (hr : r.isRaw = true) {s s₁ : Spot} {a : r.Value}
    (h : spoils i r s a s₁ = false) : s₁.past = s.past := by
  simp only [spoils, hr, Bool.true_and, Bool.or_eq_false_iff, bne_eq_false_iff_eq] at h
  exact h.1

end

end InkGauge.Contract.Grammar
