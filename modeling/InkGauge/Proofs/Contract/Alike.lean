import InkGauge.Proofs.Contract.Watch

/-!
As long as reading is not disturbed, every rule yields the same with the insertion as without it, up
to the spans. The rules are taken family by family.
-/

namespace InkGauge.Contract.Grammar

open Peg (Cursor Insertion Reply Sight Slice Spot)

theorem exprsMapSpans_eq (f : Span → Span) (es : List Expr) :
    exprsMapSpans f es = es.map (Expr.mapSpans f) := by
  induction es with
  | nil => rfl
  | cons e es ih => rw [exprsMapSpans, ih, List.map_cons]

theorem expr?MapSpans_eq (f : Span → Span) (e : Option Expr) :
    expr?MapSpans f e = e.map (Expr.mapSpans f) := by
  cases e <;> rfl

theorem block?MapSpans_eq (f : Span → Span) (b : Option Block) :
    block?MapSpans f b = b.map (Block.mapSpans f) := by
  cases b <;> rfl

theorem fieldsMapSpans_eq (f : Span → Span) (xs : List FieldInit) :
    fieldsMapSpans f xs = xs.map (FieldInit.mapSpans f) := by
  induction xs with
  | nil => rfl
  | cons x xs ih => rw [fieldsMapSpans, ih, List.map_cons]

theorem armsMapSpans_eq (f : Span → Span) (as : List MatchArm) :
    armsMapSpans f as = as.map (MatchArm.mapSpans f) := by
  induction as with
  | nil => rfl
  | cons a as ih => rw [armsMapSpans, ih, List.map_cons]

theorem stmtsMapSpans_eq (f : Span → Span) (ss : List Stmt) :
    stmtsMapSpans f ss = ss.map (Stmt.mapSpans f) := by
  induction ss with
  | nil => rfl
  | cons s ss ih => rw [stmtsMapSpans, ih, List.map_cons]

attribute [local simp] Agree Respan.same Respan.pair Respan.each Respan.perhaps
  LexRule.respan TypeRule.respan PatternRule.respan ItemRule.respan StmtRule.respan ExprRule.respan
  exprsMapSpans_eq expr?MapSpans_eq block?MapSpans_eq fieldsMapSpans_eq armsMapSpans_eq
  stmtsMapSpans_eq itemsMapSpans_eq_map Expr.mapSpans Block.mapSpans Stmt.mapSpans
  MatchArm.mapSpans FieldInit.mapSpans Function.mapSpans ItemKind.mapSpans PathRef.mapSpans
  PostfixOp.mapSpans Postfix.mapSpans ArrayBody.mapSpans

variable {i : Insertion} {call : (r : Rule) → Spot → Sight r.Value}

theorem agree_same {α : Type} {as as' : List α} (h : Agree i (.each .same) as as') : as = as' :=
  (List.map_id as).symm.trans (h.trans (List.map_id as'))

theorem agree_nil {α : Type} {F : Respan α} {as' : List α} (h : Agree i (.each F) [] as') :
    as' = [] :=
  List.map_eq_nil_iff.1 h.symm

theorem agree_cons {α : Type} {F : Respan α} {a : α} {as as' : List α}
    (h : Agree i (.each F) (a :: as) as') :
    ∃ a' rest', as' = a' :: rest' ∧ Agree i F a a' ∧ Agree i (.each F) as rest' := by
  obtain ⟨a', rest', rfl, ha, has⟩ := List.map_eq_cons_iff.1 h.symm
  exact ⟨a', rest', rfl, ha.symm, has.symm⟩

theorem agree_span {e e' : Expr} (h : Agree i Expr.mapSpans e e') :
    shifted i e.span = rough e'.span := by
  rw [← span_mapSpans (shifted i), ← span_mapSpans rough]
  exact congrArg Expr.span h

theorem agree_foldBinary {e e' : Expr} {rest rest' : List (BinaryOp × Expr)}
    (he : Agree i Expr.mapSpans e e')
    (hrest : Agree i (.each (.pair .same Expr.mapSpans)) rest rest') :
    Agree i Expr.mapSpans (foldBinary e rest) (foldBinary e' rest') := by
  induction rest generalizing e e' rest' with
  | nil =>
    cases agree_nil hrest
    exact he
  | cons x rest ih =>
    obtain ⟨op, right⟩ := x
    obtain ⟨⟨op', right'⟩, rest', rfl, hx, hrest⟩ := agree_cons hrest
    obtain ⟨hop, hright⟩ := Prod.mk.inj hx
    have hlink : Agree i Expr.mapSpans (.binary op e right (e.span.join right.span))
        (.binary op' e' right' (e'.span.join right'.span)) := by
      change Expr.binary op _ _ (shifted i e.span) = Expr.binary op' _ _ (rough e'.span)
      rw [show op = op' from hop, he, hright, agree_span he]
    rw [foldBinary, foldBinary]
    exact ih hlink hrest

theorem agree_foldCasts {e e' : Expr} {types types' : List Fragment}
    (he : Agree i Expr.mapSpans e e') (htypes : Agree i (.each Fragment.mapSpans) types types') :
    Agree i Expr.mapSpans (foldCasts e types) (foldCasts e' types') := by
  induction types generalizing e e' types' with
  | nil =>
    cases agree_nil htypes
    exact he
  | cons type types ih =>
    obtain ⟨type', types', rfl, htype, htypes⟩ := agree_cons htypes
    have hlink : Agree i Expr.mapSpans (.cast e type (e.span.join type.span))
        (.cast e' type' (e'.span.join type'.span)) := by
      change Expr.cast _ _ (shifted i e.span) = Expr.cast _ _ (rough e'.span)
      rw [he, htype, agree_span he]
    rw [foldCasts, foldCasts]
    exact ih hlink htypes

/-- What one postfix operator makes of its operand. -/
def PostfixOp.apply (e : Expr) (span : Span) : PostfixOp → Expr
  | .method name turbofish args => .methodCall e name turbofish args span
  | .await => .await e span
  | .field member => .field e member span
  | .call args => .call e args span
  | .index i => .index e i span
  | .attempt => .attempt e span

theorem foldPostfix_step (first : Span) (e : Expr) (p : Postfix) (rest : List Postfix) :
    foldPostfix first e (p :: rest) =
      foldPostfix first (p.op.apply e { first with stop := p.stop }) rest := by
  obtain ⟨op, stop⟩ := p
  cases op <;> rfl

theorem mapSpans_apply (φ : Span → Span) (e : Expr) (span : Span) (op : PostfixOp) :
    (op.apply e span).mapSpans φ = (op.mapSpans φ).apply (e.mapSpans φ) (φ span) := by
  cases op <;> simp [PostfixOp.apply]

theorem agree_foldPostfix {first first' : Span} (hfirst : shifted i first = rough first')
    {e e' : Expr} {ops ops' : List Postfix} (he : Agree i Expr.mapSpans e e')
    (hops : Agree i (.each Postfix.mapSpans) ops ops') :
    Agree i Expr.mapSpans (foldPostfix first e ops) (foldPostfix first' e' ops') := by
  induction ops generalizing e e' ops' with
  | nil =>
    cases agree_nil hops
    exact he
  | cons p ops ih =>
    obtain ⟨p', ops', rfl, hp, hops⟩ := agree_cons hops
    have hop : p.op.mapSpans (shifted i) = p'.op.mapSpans rough := congrArg Postfix.op hp
    have hlink : Agree i Expr.mapSpans (p.op.apply e { first with stop := p.stop })
        (p'.op.apply e' { first' with stop := p'.stop }) := by
      have hspan : shifted i { first with stop := p.stop } = rough { first' with stop := p'.stop } :=
        hfirst
      rw [Agree, mapSpans_apply, mapSpans_apply, hop, he, hspan]
    rw [foldPostfix_step, foldPostfix_step]
    exact ih hlink hops

theorem agree_assignment {e e' : Expr} {rest rest' : Option (Option ArithOp × Expr)}
    (he : Agree i Expr.mapSpans e e')
    (hrest : Agree i (.perhaps (.pair .same Expr.mapSpans)) rest rest') :
    Agree i Expr.mapSpans (assignment e rest) (assignment e' rest') := by
  have hspan := agree_span he
  rcases rest with _ | ⟨_ | op, right⟩ <;> rcases rest' with _ | ⟨_ | op', right'⟩ <;>
    simp [assignment, Span.join] at hrest ⊢
  · exact he
  · exact ⟨he, hrest, hspan⟩
  · exact ⟨hrest.1, he, hrest.2, hspan⟩

theorem alike_postfixOf {p : P PostfixOp} (hp : Alike i call p PostfixOp.mapSpans) :
    Alike i call (postfixOf p) Postfix.mapSpans :=
  hp.node fun _ _ _ _ _ h => congrArg (Postfix.mk · 0) h

variable [Watched i call]

instance alike_leftLevel {operand : P Expr} {op : P BinaryOp} [Alike i call operand Expr.mapSpans]
    [Alike i call op .same] : Alike i call (leftLevel operand op) Expr.mapSpans :=
  .map₂ fun _ _ _ _ => agree_foldBinary

instance alike_some {α : Type} {p : P α} {F : Respan α} [Alike i call p F] :
    Alike i call (some <$> p) (.perhaps F) :=
  .map fun _ _ h => congrArg some h

instance alike_exprs : Alike i call exprs (.each Expr.mapSpans) :=
  .map fun o o' h => by
    cases o <;> cases o' <;> simp_all

instance alike_labelled : Alike i call labelled .same :=
  .map fun o o' h => by
    cases o <;> cases o' <;> simp_all

theorem alike_primaries {structs : P Expr → P Expr}
    (h : ∀ p, Alike i call p Expr.mapSpans → Alike i call (structs p) Expr.mapSpans) :
    Alike i call (primaries structs) Expr.mapSpans :=
  have hpath : Alike i call ((fun p : PathRef => Expr.path p.segments p.text p.span) <$>
      exp .pathExpr) Expr.mapSpans := .map fun a a' h => by simp_all
  have hlast := h _ (hpath.choice (inferInstance : Alike i call
    (exp .unitExpr <|> exp .parenExpr <|> exp .tupleExpr <|> exp .arrayExpr) Expr.mapSpans))
  inferInstanceAs (Alike i call (_ <|> _) _)

/-- A text that is read before something else, where the insertion is not passed. -/
theorem text_eq_of_past {α β γ : Type} {g : Slice → β} {p : P α} {q : P γ} {s s₁ : Spot}
    {k' k₁ : Cursor} {b b' : β} (hg : ∀ x x' : Slice, x.chars = x'.chars → g x = g x')
    (hs : i.Near s k') (hs₁ : i.Near s₁ k₁)
    (hx : (textOf g p <* q).watched i Token.scan call s = .matched b s₁)
    (hy : (textOf g p <* q).answer Token.scan grammar.reply k' = .matched b' k₁)
    (hpast : s₁.past = s.past) : b = b' := by
  obtain ⟨hf, ⟨c, d⟩, hx, rfl⟩ := Peg.Expression.watched_act.1 hx
  obtain ⟨s₂, hc, hd⟩ := Peg.Expression.watched_both.1 hx
  obtain ⟨_, u, hu, rfl⟩ := Peg.Expression.watched_act.1 hc
  obtain ⟨⟨c', d'⟩, hy, rfl⟩ := Peg.Expression.answer_act.1 hy
  obtain ⟨k₂, hc', hd'⟩ := Peg.Expression.answer_both.1 hy
  obtain ⟨u', hu', rfl⟩ := Peg.Expression.answer_act.1 hc'
  obtain ⟨-, hs₂⟩ := (tells_end i call p s k' hs).related hu hu'
  have hadded := Watched.added (i := i) call
  have hpast₂ : s₂.past = s.past := by
    have hto := hs.past_of_reaches hadded hs₂
        (Peg.Expression.answer_reaches grammar.reply_reaches hu')
    have hfrom := hs₂.past_of_reaches hadded hs₁
        (Peg.Expression.answer_reaches grammar.reply_reaches hd')
    cases hsp : s.past with
    | true => exact hto hsp
    | false =>
      rw [hsp] at hpast
      by_contra h
      rw [hfrom (by simpa using h)] at hpast
      cases hpast
  exact hg _ _ (hs.chars_eq hs₂ hpast₂).symm

theorem spared_lexBody (r : LexRule) : Spared i call (.lex r) := by
  cases r with
  | literal =>
    refine .of_alike (.left (.of_calm rfl fun x x' _ _ hchars hspan => ?_) _)
    have hspan : shifted i (exactSpan x) = rough (exactSpan x') := hspan
    simp_all
  | lifetime | pathIdent | ident | underscore | tupleIndex =>
    exact .of_text rfl (tells_end i call _) rfl fun _ _ _ _ h _ _ => congrArg String.ofList h
  | simplePath | visibility =>
    exact .of_text rfl (tells_end i call _) rfl fun _ _ _ _ h _ _ => congrArg String.ofList h
  | delimited => exact .of_alike (by simp only [body, lexBody]; infer_instance)
  | outerAttr | innerAttr =>
    refine .of_act (tells_end i call _) rfl fun s k' s₁ k₁ a a' hs hf hs₁ hx hy _ hspoils => ?_
    have htext : a = a' := text_eq_of_past (fun _ _ h => congrArg Text.compact h) hs hs₁ hx hy
      (past_of_raw rfl hspoils)
    have hspan := shifted_spanOf hs hf s₁.cursor.offset k₁.offset
    subst htext
    exact congrArg (Attribute.mk (attributePath a) (String.ofList a) _) hspan
  | roundTree | squareTree | curlyTree =>
    refine .of_alike (.left (.right (.of_calm rfl fun x x' _ _ hchars _ => ?_) _) _)
    simp [hchars]
  | _ => exact .of_alike (.of_unit _)

theorem spared_typeBody (r : TypeRule) : Spared i call (.type r) := by
  cases r with
  | type | typeNoBounds =>
    exact .of_text rfl (tells_end i call _) rfl fun _ _ _ _ h hspan _ =>
      congrArg₂ Fragment.mk (congrArg String.ofList h) hspan
  | retType =>
    exact .of_text rfl (tells_end i call _) rfl fun _ _ _ _ h hspan _ =>
      congrArg₂ Fragment.mk (congrArg String.ofList h) hspan
  | typeAnnot => exact .of_alike (by simp only [body, typeBody]; infer_instance)
  | _ => exact .of_alike (.of_unit _)

theorem spared_patternBody (r : PatternRule) : Spared i call (.pattern r) := by
  cases r with
  | pattern | patternNoAlt =>
    exact .of_text rfl (tells_end i call _) rfl fun _ _ _ _ h hspan _ =>
      congrArg₂ Fragment.mk (congrArg String.ofList h) hspan
  | _ => exact .of_alike (.of_unit _)

theorem spared_stmtBody (r : StmtRule) : Spared i call (.stmt r) := by
  cases r with
  | block =>
    refine .of_alike (.node inferInstance fun x x' (a, b) (a', b') hspan h => ?_)
    simp_all
  | emptyStmt =>
    refine .of_alike (.node (.of_unit _) fun x x' a a' hspan h => ?_)
    simp_all
  | stmt =>
    have hitem : Alike i call (.act (fun s i => Stmt.item i (spanOf s)) (itm .stmtItem))
        Stmt.mapSpans := .node inferInstance fun x x' a a' hspan h => by simp_all
    exact .of_alike (by simp only [body, stmtBody]; infer_instance)
  | letStmt =>
    refine .of_alike (.node inferInstance
      fun x x' (a, b, c, d) (a', b', c', d') hspan h => ?_)
    rcases d with _ | ⟨d₁, d₂⟩ <;> rcases d' with _ | ⟨d₁', d₂'⟩ <;> simp_all
  | blockStmt =>
    refine .of_alike (.node inferInstance fun x x' (a, b, c) (a', b', c') hspan h => ?_)
    cases c <;> cases c' <;> simp_all
  | exprStmt =>
    refine .of_alike (.node inferInstance fun x x' (a, b) (a', b') hspan h => ?_)
    simp_all
  | stmtSeq | stmtWs | letInit | letElse | blockTail =>
    exact .of_alike (by simp only [body, stmtBody]; infer_instance)

theorem spared_exprBody (r : ExprRule) : Spared i call (.expr r) := by
  cases r with
  | expr p => exact .of_alike (.map₂ fun _ _ _ _ => agree_assignment)
  | rangeFull p =>
    refine .of_alike (.node inferInstance fun x x' (a, b, c) (a', b', c') hspan h => ?_)
    simp_all
  | cmpExpr p =>
    refine .of_alike (.map₂ fun a a' b b' ha hb => agree_foldBinary ha ?_)
    cases b <;> cases b' <;> simp_all
  | castExpr p => exact .of_alike (.map₂ fun _ _ _ _ => agree_foldCasts)
  | unaryExpr p =>
    refine .of_alike (.choice (.node inferInstance
      fun x x' (a, b) (a', b') hspan h => ?_) inferInstance)
    simp_all
  | postfixExpr p =>
    exact .of_alike (.map₂ fun _ _ _ _ he => agree_foldPostfix (agree_span he) he)
  | primary p =>
    cases p with
    | anywhere => exact .of_alike (alike_primaries fun _ h => .choice inferInstance h)
    | beforeBlock => exact .of_alike (alike_primaries fun _ h => h)
  | unaryOp =>
    refine .of_alike (.choice (.map₂ fun a a' b b' ha hb => ?_) inferInstance)
    cases b <;> cases b' <;> simp_all
  | methodCallOp =>
    refine .of_alike (alike_postfixOf (.map₃ fun a a' b b' c c' ha hb hc => ?_))
    cases b <;> cases b' <;> simp_all
  | turbofish | closureParams =>
    exact .of_text rfl (tells_end i call _) rfl fun _ _ _ _ h _ _ => congrArg String.ofList h
  | label =>
    exact .of_text rfl (tells_end i call _) rfl fun _ _ _ _ h _ _ => congrArg String.ofList h
  | awaitOp | tryOp => exact .of_alike (alike_postfixOf (.map fun _ _ _ => rfl))
  | fieldOp | callOp | indexOp =>
    exact .of_alike (alike_postfixOf (.map fun a a' h => by simp_all))
  | closure =>
    refine .of_alike (.node inferInstance fun x x' (a, b, c, d) (a', b', c', d') hspan h => ?_)
    cases a <;> cases a' <;> simp_all
  | closureBody =>
    refine .of_alike (.choice (.map₂ fun a a' b b' ha hb => ?_) (.map fun a a' h => ?_))
    · cases b
      cases b'
      simp_all
    · simp_all
  | ifExpr =>
    refine .of_alike (.node inferInstance fun x x' (a, b, c) (a', b', c') hspan h => ?_)
    simp_all
  | letChain => exact .of_alike (.map₂ fun _ _ _ _ => agree_foldBinary)
  | letCond | matchExpr =>
    refine .of_alike (.node inferInstance fun x x' (a, b) (a', b') hspan h => ?_)
    simp_all
  | matchArm =>
    refine .of_alike (.node inferInstance fun x x' (a, b, c) (a', b', c') hspan h => ?_)
    simp_all
  | loopExpr | blockExpr | tupleExpr =>
    refine .of_alike (.node inferInstance fun x x' (a, b) (a', b') hspan h => ?_)
    simp_all
  | whileExpr | macroCall | structLit =>
    refine .of_alike (.node inferInstance fun x x' (a, b, c) (a', b', c') hspan h => ?_)
    simp_all
  | forExpr =>
    refine .of_alike (.node inferInstance fun x x' (a, b, c, d) (a', b', c', d') hspan h => ?_)
    simp_all
  | uncheckedBlock | asyncBlock | parenExpr | returnExpr =>
    refine .of_alike (.node inferInstance fun x x' a a' hspan h => ?_)
    simp_all
  | structField =>
    have hbare : Alike i call ((fun name => (name, none)) <$> lex .ident)
        (.pair .same (.perhaps Expr.mapSpans)) := .map fun a a' h => by simp_all
    refine .of_alike (.node inferInstance fun x x' (a, b) (a', b') hspan h => ?_)
    simp_all
  | qualifiedPathExpr =>
    have hsegments : Alike i call (typ .qself *> .many1 (sym "::" *> exp .exprSegment))
        (.each .same) := inferInstance
    refine .of_text rfl hsegments.tells rfl fun x x' a a' htext hspan h => ?_
    have hsame := agree_same h
    simp_all [compactText]
  | plainPathExpr =>
    have hsegments : Alike i call (opt (sym "::") *> .both (exp .exprSegment)
        (many (sym "::" *> exp .exprSegment))) (.pair .same (.each .same)) := inferInstance
    refine .of_text rfl hsegments.tells rfl fun x x' (a, b) (a', b') htext hspan h => ?_
    obtain ⟨rfl, hb⟩ := Prod.mk.inj h
    have hsame := agree_same hb
    simp_all [gluedText]
  | unitExpr =>
    refine .of_alike (.node (.of_unit _) fun x x' a a' hspan h => ?_)
    simp_all
  | arrayExpr =>
    refine .of_alike (.node inferInstance fun x x' a a' hspan h => ?_)
    rcases a with _ | _ | _ <;> rcases a' with _ | _ | _ <;> simp_all
  | arrayBody =>
    exact .of_alike (.choice (.map fun (a, b) (a', b') h => by simp_all)
      (.map fun a a' h => by simp_all))
  | breakExpr =>
    refine .of_alike (.node inferInstance fun x x' (a, b) (a', b') hspan h => ?_)
    cases a <;> cases a' <;> simp_all
  | continueExpr =>
    refine .of_alike (.node inferInstance fun x x' a a' hspan h => ?_)
    cases a <;> cases a' <;> simp_all
  | closureParam | armEnd => exact .of_alike (.of_unit _)
  | _ => exact .of_alike (by simp only [body, exprBody]; infer_instance)

instance alike_members : Alike i call members (.each Item.mapSpans) := by
  unfold members
  infer_instance

instance alike_initializer : Alike i call initializer (.perhaps Expr.mapSpans) := by
  unfold initializer
  infer_instance

theorem agree_start {s s' : Span} (h : shifted i s = rough s') :
    s'.start = if s.start < i.place then s.start else s.start + i.added.length :=
  (congrArg Span.start h).symm

theorem take_ahead_eq {s s₁ : Spot} {k' k₁ : Cursor} (hs : i.Near s k') (hs₁ : i.Near s₁ k₁)
    (hsp : s.past = false) (hs₁p : s₁.past = true) {n : Nat} (hn : s.cursor.offset + n ≤ i.place) :
    (Slice.mk s.cursor s₁.cursor.offset).chars.take n = (Slice.mk k' k₁.offset).chars.take n := by
  cases hs with
  | past _ _ _ _ => cases hsp
  | @ahead k hle hrest =>
    cases hs₁ with
    | ahead _ _ => cases hs₁p
    | past hle₁ _ hoffset₁ _ =>
      obtain ⟨-, htake⟩ := Insertion.take_ahead hrest hn
      dsimp only [Slice.chars] at hn ⊢
      rw [List.take_take, List.take_take, Nat.min_eq_left (by omega), Nat.min_eq_left (by omega),
        htake]

/-- The text up to where a part starts, and the insertion is not passed or comes later. -/
theorem take_start_eq {s s₁ : Spot} {k' k₁ : Cursor} (hs : i.Near s k') (hs₁ : i.Near s₁ k₁)
    {x x' : Span} (hx : shifted i x = rough x')
    (h : s₁.past = s.past ∨ s.past = false ∧ s₁.past = true ∧ x.start < i.place) :
    (Slice.mk s.cursor s₁.cursor.offset).chars.take (x.start - s.cursor.offset) =
      (Slice.mk k' k₁.offset).chars.take (x'.start - k'.offset) := by
  have hstart := agree_start hx
  rcases h with hpast | ⟨hsp, hs₁p, hlt⟩
  · rw [hs.chars_eq hs₁ hpast]
    cases hs with
    | @ahead k hle hrest =>
      cases hs₁ with
      | past _ _ _ _ => cases hpast
      | @ahead k₁ hle₁ _ =>
        by_cases hlt : x.start < i.place
        · rw [hstart, if_pos hlt]
        · have hlen : (Slice.mk k k₁.offset).chars.length ≤ i.place - k.offset := by
            rw [Slice.chars, List.length_take]
            dsimp only at *
            omega
          rw [if_neg hlt] at hstart
          rw [List.take_of_length_le, List.take_of_length_le]
          all_goals
            dsimp only at *
            omega
    | @past k _ hle _ hoffset _ =>
      have hsame : x.start - k.offset = x'.start - k'.offset := by
        rw [hstart, hoffset]
        split <;> omega
      rw [hsame]
  · rw [hstart, if_pos hlt]
    obtain ⟨hsame, hle⟩ : k'.offset = s.cursor.offset ∧ s.cursor.offset ≤ i.place := by
      cases hs with
      | ahead hle _ => exact ⟨rfl, hle⟩
      | past _ _ _ _ => cases hsp
    rw [hsame]
    exact take_ahead_eq hs hs₁ hsp hs₁p (by omega)

/-- The signature is the same where the text up to the body is. -/
theorem signatureOf_eq {s s₁ : Spot} {k' k₁ : Cursor} (hs : i.Near s k') (hs₁ : i.Near s₁ k₁)
    {body body' : Option Block} (hbody : Agree i (.perhaps Block.mapSpans) body body')
    (h : s₁.past = s.past ∨ s.past = false ∧ s₁.past = true ∧
      ∃ b, body = some b ∧ b.span.start < i.place) :
    signatureOf ⟨s.cursor, s₁.cursor.offset⟩ body = signatureOf ⟨k', k₁.offset⟩ body' := by
  unfold signatureOf
  cases body with
  | none =>
    cases body' with
    | some b' => cases hbody
    | none =>
      have hpast : s₁.past = s.past := by simpa using h
      rw [hs.chars_eq hs₁ hpast]
  | some b =>
    cases body' with
    | none => cases hbody
    | some b' =>
      have hspan : shifted i b.span = rough b'.span := by
        cases b
        cases b'
        exact congrArg Block.span (Option.some.inj hbody)
      have htake := take_start_eq hs hs₁ hspan (by simpa using h)
      dsimp only
      rw [htake]

theorem function_of_mapSpans {f : Span → Span} {kind : ItemKind} {fn : Function}
    (h : kind.mapSpans f = .function fn) : ∃ fn', kind = .function fn' := by
  cases kind with
  | function fn' => exact ⟨fn', rfl⟩
  | mod name items => cases items <;> cases h
  | _ => cases h

theorem signed_of_not_function {kind : ItemKind} (h : ¬∃ fn, kind = .function fn) (x : Slice) :
    ItemKind.signed x kind = kind := by
  cases kind with
  | function fn => exact absurd ⟨fn, rfl⟩ h
  | _ => rfl

theorem agree_signed {x x' : Slice} {kind kind' : ItemKind}
    (hkind : Agree i ItemKind.mapSpans kind kind')
    (h : ∀ fn body', kind = .function fn → Agree i (.perhaps Block.mapSpans) fn.body body' →
      signatureOf x fn.body = signatureOf x' body') :
    Agree i ItemKind.mapSpans (ItemKind.signed x kind) (ItemKind.signed x' kind') := by
  by_cases hf : ∃ fn, kind = .function fn
  · obtain ⟨fn, rfl⟩ := hf
    obtain ⟨fn', rfl⟩ := function_of_mapSpans (Eq.symm hkind)
    have hsignature := h fn fn'.body rfl
    cases fn
    cases fn'
    simp_all [ItemKind.signed]
  · have hf' : ¬∃ fn, kind' = .function fn := by
      rintro ⟨fn, rfl⟩
      exact hf (function_of_mapSpans hkind)
    rw [signed_of_not_function hf, signed_of_not_function hf']
    exact hkind

/-- What an item is put together from. -/
def itemParts (kind : P ItemKind) : P (List Attribute × String × ItemKind) :=
  .both attrs (.act (fun s (visibility, kind) => (visibility.getD "", ItemKind.signed s kind))
    (.both (opt (lex .visibility)) kind))

theorem agree_itemParts {kind : P ItemKind} (hkind : Alike i call kind ItemKind.mapSpans)
    {s s₁ : Spot} {k' k₁ : Cursor} (hs : i.Near s k') (hs₁ : i.Near s₁ k₁)
    {a a' : List Attribute × String × ItemKind} {span span' : Span}
    (hx : (itemParts kind).watched i Token.scan call s = .matched a s₁)
    (hy : (itemParts kind).answer Token.scan grammar.reply k' = .matched a' k₁)
    (hspan : shifted i span = rough span')
    (h : s.past = false → s₁.past = true →
      signatureReaches i.place ⟨a.1, a.2.1, span, a.2.2⟩ = false) :
    Agree i Item.mapSpans ⟨a.1, a.2.1, span, a.2.2⟩ ⟨a'.1, a'.2.1, span', a'.2.2⟩ := by
  obtain ⟨attributes, visibility, kind₁⟩ := a
  obtain ⟨attributes', visibility', kind₁'⟩ := a'
  obtain ⟨s₂, hattrs, hrest⟩ := Peg.Expression.watched_both.1 hx
  obtain ⟨k₂, hattrs', hrest'⟩ := Peg.Expression.answer_both.1 hy
  obtain ⟨-, ⟨v, kind₂⟩, hparts, he⟩ := Peg.Expression.watched_act.1 hrest
  obtain ⟨⟨v', kind₂'⟩, hparts', he'⟩ := Peg.Expression.answer_act.1 hrest'
  obtain ⟨rfl, rfl⟩ := Prod.mk.inj he
  obtain ⟨rfl, rfl⟩ := Prod.mk.inj he'
  have hattributes : Alike i call attrs (.each Attribute.mapSpans) := inferInstance
  have hboth : Alike i call (.both (opt (lex .visibility)) kind)
    (.pair (.perhaps .same) ItemKind.mapSpans) := inferInstance
  obtain ⟨hattributes, hs₂⟩ := (hattributes.tells s k' hs).related hattrs hattrs'
  obtain ⟨hboth, -⟩ := (hboth.tells s₂ k₂ hs₂).related hparts hparts'
  obtain ⟨hvisibility, hkind₂⟩ := Prod.mk.inj hboth
  -- Attributes are raw, so the insertion is passed behind them, if at all.
  have hpast₂ : s₂.past = s.past := Peg.Expression.past_of_calm (Watched.calm i) rfl hattrs
  have hreach₂ := Peg.Expression.answer_reaches grammar.reply_reaches hparts'
  have hsigned : Agree i ItemKind.mapSpans
      (ItemKind.signed ⟨s₂.cursor, s₁.cursor.offset⟩ kind₂)
      (ItemKind.signed ⟨k₂, k₁.offset⟩ kind₂') := by
    refine agree_signed hkind₂ fun fn body' hfn hbody => signatureOf_eq hs₂ hs₁ hbody ?_
    cases hp : s₂.past with
    | true => exact .inl (hs₂.past_of_reaches (Watched.added call) hs₁ hreach₂ hp)
    | false =>
      cases hp₁ : s₁.past with
      | false => exact .inl rfl
      | true =>
        have hspared := h (hpast₂.symm.trans hp) hp₁
        rw [hfn] at hspared
        have hbody : fn.body.all (fun b => i.place ≤ b.span.start) = false := hspared
        exact .inr ⟨rfl, rfl, by simpa [Option.all_eq_false] using hbody⟩
  have hv : v.getD "" = v'.getD "" := by
    cases v <;> cases v' <;> simp_all
  simp_all [Item.mapSpans]

theorem spared_itemBody (r : ItemRule) : Spared i call (.item r) := by
  cases r with
  | file | itemKind | stmtItemKind | fnParams | fnParam | implTrait =>
    exact .of_alike (by simp only [body, itemBody]; infer_instance)
  | item | stmtItem =>
    refine .of_act (tells_end i call (itemParts _)) rfl
      fun s k' s₁ k₁ a a' hs hf hs₁ hx hy _ hspoils => ?_
    refine agree_itemParts inferInstance hs hs₁ hx hy (shifted_spanOf hs hf _ _) fun hsp hs₁p => ?_
    simpa [spoils, hsp, hs₁p, Rule.isRaw, Rule.keptText?] using hspoils
  | fnItem =>
    refine .of_alike (.map₄ fun a a' b b' c c' d d' ha hb hc hd => ?_)
    cases b <;> cases b' <;> simp_all
  | fnBody => exact .of_alike (.choice inferInstance (.map fun _ _ _ => rfl))
  | selfParam =>
    exact .of_text rfl (tells_end i call _) rfl fun _ _ _ _ h _ _ =>
      congrArg (Param.mk · none true) (congrArg String.ofList h)
  | typedParam =>
    refine .of_alike (.map₂ fun a a' b b' ha hb => ?_)
    obtain ⟨htext, -⟩ := Fragment.mk.inj ha
    simp_all [Param.mapSpans]
  | implItem =>
    refine .of_alike (.map₃ fun a a' b b' c c' ha hb hc => ?_)
    simp_all
  | structItem | enumItem => exact .of_alike (.map fun a a' h => by simp_all)
  | traitItem =>
    refine .of_alike (.map₂ fun a a' b b' ha hb => ?_)
    simp_all
  | constItem | staticItem =>
    refine .of_alike (.left (.map₃ fun a a' b b' c c' ha hb hc => ?_) _)
    simp_all
  | modItem =>
    have hbare : Alike i call ((fun _ => none) <$> sym ";" : P (Option (List Item)))
        (.perhaps (.each Item.mapSpans)) := .map fun _ _ _ => rfl
    refine .of_alike (.map₂ fun a a' b b' ha hb => ?_)
    cases b <;> cases b' <;> simp_all
  | macroItem =>
    refine .of_alike (.map₂ fun a a' b b' ha hb => ?_)
    simp_all
  | useItem | typeAlias | externCrate | externBlock =>
    exact .of_text rfl (tells_end i call _) rfl fun _ _ _ _ h _ _ =>
      congrArg (ItemKind.other _) (congrArg String.ofList h)
  | _ => exact .of_alike (.of_unit _)

end InkGauge.Contract.Grammar
