import InkGauge.Contract.Parse
import InkGauge.Proofs.Contract.Operator

/-!
The span of an expression reaches to the last character before the place where reading stopped that
is not blank, so a comment behind the expression lies inside. Only the span of a literal, and of
what ends with one, is over where the literal is.
-/

namespace InkGauge.Contract.Grammar

open Peg (Cursor Slice)

variable {α : Type} {text : List Char} {call : (r : Rule) → Cursor → Peg.Reply r.Value}

/-- Wherever `p` matches, its value lies in a given way to the place where reading stopped. -/
class Stops (text : List Char) (call : (r : Rule) → Cursor → Peg.Reply r.Value) (p : P α)
    (E : outParam (α → Nat → Prop)) : Prop where
  ends : ∀ k a k', At text k → p.answer Token.scan call k = .matched a k' → E a k'.offset

section

variable [Sound text call] {p q : P α} {E : α → Nat → Prop} {k k' : Cursor}

instance stops_lex (r : LexRule) :
    Stops (α := no_index r.Value) text call (lex r) (no_index (r.Ends text)) where
  ends := Sound.ends (.lex r)

instance stops_typ (r : TypeRule) :
    Stops (α := no_index r.Value) text call (typ r) (no_index (r.Ends text)) where
  ends := Sound.ends (.type r)

instance stops_stm (r : StmtRule) :
    Stops (α := no_index r.Value) text call (stm r) (no_index (r.Ends text)) where
  ends := Sound.ends (.stmt r)

instance stops_exp (r : ExprRule) :
    Stops (α := no_index r.Value) text call (exp r) (no_index (r.Ends text)) where
  ends := Sound.ends (.expr r)

omit [Sound text call] in
theorem Stops.choice (hp : Stops text call p E) (hq : Stops text call q E) :
    Stops text call (p <|> q) E where
  ends k a k' hk h := by
    rcases Peg.Expression.answer_either.1 h with h | ⟨_, h⟩
    · exact hp.ends k a k' hk h
    · exact hq.ends k a k' hk h

instance stops_orElse [hp : Stops text call p E] [hq : Stops text call q E] :
    Stops text call (p <|> q) E := hp.choice hq

/-- What was read ends with the blanks that are trimmed. -/
theorem blank_of_answer {a : α} (hk : At text k)
    (h : p.answer Token.scan call k = .matched a k') :
    BlankBetween text (offsetBehind ⟨k, k'.offset⟩) k'.offset :=
  blank_offsetBehind hk (reaches_of_answer text h).offset_le

theorem Stops.blank {β : Type} {f : Slice → α → β} {stop : β → Nat}
    (hs : ∀ s a, stop (f s a) = offsetBehind s) :
    Stops text call (.act f p) fun b hi => BlankBetween text (stop b) hi where
  ends k b k' hk h := by
    obtain ⟨a, ha, rfl⟩ := Peg.Expression.answer_act.1 h
    rw [hs]
    exact blank_of_answer hk ha

theorem Stops.node {f : Slice → α → Expr} (hs : ∀ s a, (f s a).span = spanOf s)
    (hl : ∀ s a, (f s a).lastLiteral? = none) :
    Stops text call (.act f p) fun e hi => e.WrittenTo text hi where
  ends k e k' hk h := by
    obtain ⟨a, ha, rfl⟩ := Peg.Expression.answer_act.1 h
    refine .of_blank (hl _ a) ?_
    rw [hs]
    exact blank_of_answer hk ha

/-- Nothing was repeated, or the last round stopped where the repetition did. -/
theorem last_of_repeats [hp : Stops text call p E] {as : List α} (hk : At text k)
    (h : Peg.Reply.Repeats (p.answer Token.scan call) k as k') :
    (as = [] ∧ k' = k) ∨ ∃ init last, as = init ++ [last] ∧ E last k'.offset := by
  induction h with
  | stop k => exact .inl ⟨rfl, rfl⟩
  | step head _ ih =>
    have hk₁ := hk.of_reaches (reaches_of_answer text head)
    rcases ih hk₁ with ⟨rfl, rfl⟩ | ⟨init, last, rfl, hlast⟩
    · exact .inr ⟨[], _, rfl, hp.ends _ _ _ hk head⟩
    · exact .inr ⟨_ :: init, last, rfl, hlast⟩

instance stops_both {β : Type} {q : P β} {F : β → Nat → Prop} [hq : Stops text call q F] :
    Stops text call (.both p q) fun x hi => F x.2 hi where
  ends k x k' hk h := by
    obtain ⟨k₁, hfst, hsnd⟩ := Peg.Expression.answer_both.1 h
    exact hq.ends k₁ x.2 k' (hk.of_reaches (reaches_of_answer text hfst)) hsnd

instance stops_seqRight {β : Type} {q : P β} {F : β → Nat → Prop} [hq : Stops text call q F] :
    Stops text call (p *> q) F where
  ends k b k' hk h := by
    obtain ⟨x, hx, rfl⟩ := Peg.Expression.answer_act.1 h
    exact stops_both.ends k x k' hk hx

section

variable {operand : P Expr} [hkeep : Keeps text call operand (single .expr)]
  [hstop : Stops text call operand fun e hi => e.WrittenTo text hi]

instance stops_leftLevel {op : P BinaryOp} :
    Stops text call (leftLevel operand op) fun e hi => e.WrittenTo text hi where
  ends k e k' hk h := by
    obtain ⟨_, k₁, rest, hfirst, hrest, rfl⟩ := answer_seq h
    obtain ⟨left, hleft, rfl⟩ := Peg.Expression.answer_act.1 hfirst
    have hk₁ := hk.of_reaches (reaches_of_answer text hleft)
    have hop : Keeps text call (op <* trivia) nothing := .of_nothing _
    have hrounds := Peg.Expression.answer_many hrest
    have hrow := (hkeep.row k left k₁ hk hleft).append (row_of_repeats hk₁ hrounds)
    rcases last_of_repeats hk₁ hrounds with ⟨rfl, rfl⟩ | ⟨init, ⟨o, right⟩, rfl, hright⟩
    · exact hstop.ends k left k' hk hleft
    · exact writtenTo_foldBinary hrow hright

/-- An expression, or two with an operator between them that gives what spans both. -/
theorem stops_optional {β : Type} {right : P Expr} [hright : Keeps text call right (single .expr)]
    [hstopr : Stops text call right fun e hi => e.WrittenTo text hi] {op : P β}
    {f : Expr → Option (β × Expr) → Expr} (hnone : ∀ l, f l none = l)
    (hs : ∀ l o r, (f l (some (o, r))).span = l.span.join r.span)
    (hl : ∀ l o r, (f l (some (o, r))).lastLiteral? = r.lastLiteral?) :
    Stops text call (f <$> operand <*> opt (.both (op <* trivia) right)) fun e hi =>
      e.WrittenTo text hi where
  ends k e k' hk h := by
    obtain ⟨_, k₁, rest, hfirst, hrest, rfl⟩ := answer_seq h
    obtain ⟨l, hleft, rfl⟩ := Peg.Expression.answer_act.1 hfirst
    have hk₁ := hk.of_reaches (reaches_of_answer text hleft)
    have hop : Keeps text call (op <* trivia) nothing := .of_nothing _
    rcases Peg.Expression.answer_option hrest with ⟨⟨o, r⟩, rfl, hx⟩ | ⟨rfl, rfl⟩
    · have hrow := (hkeep.row k l k₁ hk hleft).append (keeps_both.row k₁ _ k' hk₁ hx)
      exact writtenTo_join (hs l o r) (hl l o r) hrow (stops_both.ends k₁ _ k' hk₁ hx)
    · rw [hnone]
      exact hstop.ends k l k' hk hleft

end

theorem stops_castExpr (p : Place) :
    Stops text call (exprBody (.castExpr p)) fun e hi => e.WrittenTo text hi where
  ends k e k' hk h := by
    obtain ⟨_, k₁, types, hfirst, htypes, rfl⟩ := answer_seq h
    obtain ⟨operand, hoperand, rfl⟩ := Peg.Expression.answer_act.1 hfirst
    have hk₁ := hk.of_reaches (reaches_of_answer text hoperand)
    have hrounds := Peg.Expression.answer_many htypes
    have hrow := (Sound.row (.expr (.unaryExpr p)) k operand k₁ hk hoperand).append
      (row_of_repeats hk₁ hrounds)
    rcases last_of_repeats hk₁ hrounds with ⟨rfl, rfl⟩ | ⟨init, type, rfl, htype⟩
    · exact Sound.ends (.expr (.unaryExpr p)) k operand k' hk hoperand
    · exact writtenTo_foldCasts hrow htype

theorem stops_postfixExpr (p : Place) :
    Stops text call (exprBody (.postfixExpr p)) fun e hi => e.WrittenTo text hi where
  ends k e k' hk h := by
    obtain ⟨_, k₁, ops, hfirst, hops, rfl⟩ := answer_seq h
    obtain ⟨operand, hoperand, rfl⟩ := Peg.Expression.answer_act.1 hfirst
    have hk₁ := hk.of_reaches (reaches_of_answer text hoperand)
    rcases last_of_repeats hk₁ (Peg.Expression.answer_many hops) with
      ⟨rfl, rfl⟩ | ⟨init, o, rfl, ho⟩
    · exact Sound.ends (.expr (.primary p)) k operand k' hk hoperand
    · exact writtenTo_foldPostfix ho

instance stops_path : Stops text call
    ((fun p : PathRef => Expr.path p.segments p.text p.span) <$> exp .pathExpr)
    fun e hi => e.WrittenTo text hi where
  ends k e k' hk h := by
    obtain ⟨p, hp, rfl⟩ := Peg.Expression.answer_act.1 h
    exact .of_blank rfl (Sound.ends (.expr .pathExpr) k p k' hk hp)

theorem stops_primaries {structs : P Expr → P Expr}
    (h : ∀ p : P Expr, Stops text call p (fun e hi => e.WrittenTo text hi) →
      Stops text call (structs p) fun e hi => e.WrittenTo text hi) :
    Stops text call (primaries structs) fun e hi => e.WrittenTo text hi := by
  have hrest := h (((fun p : PathRef => Expr.path p.segments p.text p.span) <$> exp .pathExpr)
      <|> exp .unitExpr <|> exp .parenExpr <|> exp .tupleExpr <|> exp .arrayExpr) inferInstance
  unfold primaries
  infer_instance

/-- A literal is kept as it was written. -/
theorem stops_literal :
    Stops text call (lexBody .literal) fun e hi => e.WrittenTo text hi where
  ends k e k' hk h := by
    obtain ⟨⟨e, u⟩, hx, rfl⟩ := Peg.Expression.answer_act.1 h
    obtain ⟨k₁, hlit, htrivia⟩ := Peg.Expression.answer_both.1 hx
    obtain ⟨v, hv, rfl⟩ := Peg.Expression.answer_act.1 hlit
    refine ⟨(reaches_of_answer text htrivia).offset_le, ?_, fun h => by cases h⟩
    intro t ht
    cases ht
    have hchars : (String.ofList (Slice.mk k k₁.offset).chars).toList =
        (text.take k₁.offset).drop k.offset := by
      rw [String.toList_ofList, hk.chars, List.drop_take]
    exact ⟨[], hchars⟩

theorem stops_exprBody (r : ExprRule) : Stops text call (exprBody r) (r.Ends text) := by
  cases r with
  | expr p =>
    refine stops_optional (fun _ => rfl) ?_ ?_
    · rintro l (_ | _) r <;> rfl
    · rintro l (_ | _) r <;> rfl
  | orExpr p | andExpr p | bitorExpr p | bitxorExpr p | bitandExpr p | shiftExpr p | addExpr p
  | mulExpr p => exact stops_leftLevel
  | cmpExpr p => exact stops_optional (fun _ => rfl) (fun _ _ _ => rfl) fun _ _ _ => rfl
  | castExpr p => exact stops_castExpr p
  | unaryExpr p => exact .choice (.node (fun _ _ => rfl) fun _ _ => rfl) inferInstance
  | postfixExpr p => exact stops_postfixExpr p
  | primary p =>
    cases p with
    | anywhere => exact stops_primaries fun p _ => stops_orElse
    | beforeBlock => exact stops_primaries fun p h => h
  | rangeExpr p | postfixOp | blockLike | pathExpr => unfold exprBody; infer_instance
  | methodCallOp | awaitOp | fieldOp | callOp | indexOp | tryOp | qualifiedPathExpr
  | plainPathExpr => exact .blank fun _ _ => rfl
  | arrayExpr =>
    refine .node ?_ ?_
    · rintro s (_ | _ | _) <;> rfl
    · rintro s (_ | _ | _) <;> rfl
  | rangeFull | closure | ifExpr | matchExpr | loopExpr | whileExpr | forExpr | uncheckedBlock
  | asyncBlock | blockExpr | macroCall | structLit | unitExpr | parenExpr | tupleExpr | returnExpr
  | breakExpr | continueExpr => exact .node (fun _ _ => rfl) fun _ _ => rfl
  | _ => exact ⟨fun _ _ _ _ _ => trivial⟩

theorem stops_letInit :
    Stops text call (stmtBody .letInit) fun x hi => x.1.InitTo text hi x.2 where
  ends k x k' hk h := by
    obtain ⟨e, orElse⟩ := x
    obtain ⟨k₁, he, hrest⟩ := Peg.Expression.answer_both.1 h
    have hk₁ := hk.of_reaches (reaches_of_answer text he)
    have hwritten := stops_seqRight.ends k e k₁ hk he
    rcases Peg.Expression.answer_option hrest with ⟨b, rfl, hb⟩ | ⟨rfl, rfl⟩
    · have hrow := Sound.row (.stmt .letElse) k₁ b k' hk₁ hb
      have hopens := Sound.opens text (.stmt .letElse) k₁ b k' _ rfl hb
      rw [hk₁.rest] at hopens
      exact ⟨Sound.ends (.stmt .letElse) k₁ b k' hk₁ hb, k₁.offset, hwritten, hrow.1, hopens⟩
    · exact hwritten

/-- How every rule ends, given how the rules below it do. -/
theorem stops_body (r : Rule) : Stops text call (body r) (r.Ends text) := by
  cases r with
  | lex r =>
    cases r with
    | literal => exact stops_literal
    | _ => exact ⟨fun _ _ _ _ _ => trivial⟩
  | type r =>
    cases r with
    | typeNoBounds => exact .blank fun _ _ => rfl
    | _ => exact ⟨fun _ _ _ _ _ => trivial⟩
  | stmt r =>
    cases r with
    | block => exact .blank fun _ _ => rfl
    | letElse => exact stops_seqRight
    | letInit => exact stops_letInit
    | _ => exact ⟨fun _ _ _ _ _ => trivial⟩
  | expr r => exact stops_exprBody r
  | pattern => exact ⟨fun _ _ _ _ _ => trivial⟩
  | item => exact ⟨fun _ _ _ _ _ => trivial⟩

end

end InkGauge.Contract.Grammar
