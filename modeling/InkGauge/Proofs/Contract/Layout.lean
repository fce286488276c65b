import InkGauge.Proofs.Contract.Ending

/-!
Every rule leaves its pieces in a row: the nodes of its value stand in source order, each inside
what was read. The rules are taken family by family; the depth to which rules are nested is what the
induction is on.
-/

namespace InkGauge.Contract.Grammar

open Peg (Cursor Slice)

attribute [local simp] Node.children Expr.children Stmt.children Param.children Function.children
  ItemKind.children Node.exprs Node.expr? Node.fragment? Node.block? Node.attributes Node.items

variable {text : List Char} {call : (r : Rule) → Cursor → Peg.Reply r.Value}

section

variable [Sound text call]

instance keeps_leftLevel {operand : P Expr} {op : P BinaryOp}
    [Keeps text call operand (single .expr)] [Keeps text call op nothing] :
    Keeps text call (leftLevel operand op) (single .expr) :=
  .map₂ fun _ _ _ _ h => row_foldBinary h

theorem keeps_postfixOf {p : P PostfixOp} (hp : Keeps text call p opPieces)
    (hi : p.inked Token.inked Rule.inked = true) :
    Keeps text call (postfixOf p) postfixPieces where
  row k b k' hk hb := by
    obtain ⟨a, ha, rfl⟩ := Peg.Expression.answer_act.1 hb
    have hink := answer_inked (Sound.reaches text) Sound.inked hi hk ha
    obtain ⟨hlt, hlast⟩ := inked_offsetBehind hk hink
    have hrow := row_offsetBehind hk hink (hp.row k a k' hk ha)
    have hle := offsetBehind_le hk (reaches_of_answer text ha).offset_le
    exact hrow.append ⟨Nat.le_refl _, hlast, hle⟩

instance keeps_exprs : Keeps text call exprs (each (single .expr)) :=
  .map fun _ _ o h => by
    cases o with
    | none => exact h
    | some es => exact h

instance keeps_labelled : Keeps text call labelled nothing := .of_nothing _

theorem keeps_literal : Keeps text call (lexBody .literal) (single .expr) where
  row k e k' hk he := by
    obtain ⟨⟨e, u⟩, hx, rfl⟩ := Peg.Expression.answer_act.1 he
    obtain ⟨k₁, hlit, htrivia⟩ := Peg.Expression.answer_both.1 hx
    obtain ⟨v, hv, rfl⟩ := Peg.Expression.answer_act.1 hlit
    have hexact : k.offset < k₁.offset ∧ Inked text (k₁.offset - 1) := by
      rcases Peg.Expression.answer_either.1 hv with h | ⟨_, hv⟩
      · exact Sound.exact .rawString k v k₁ rfl hk h
      rcases Peg.Expression.answer_either.1 hv with h | ⟨_, hv⟩
      · exact Sound.exact .stringLit k v k₁ rfl hk h
      rcases Peg.Expression.answer_either.1 hv with h | ⟨_, hv⟩
      · exact Sound.exact .charLit k v k₁ rfl hk h
      rcases Peg.Expression.answer_either.1 hv with h | ⟨_, h⟩
      · exact Sound.exact .number k v k₁ rfl hk h
      · exact Sound.exact .truth k v k₁ rfl hk h
    obtain ⟨hlt, hink⟩ := hexact
    have hk₁ := hk.of_reaches (reaches_of_answer text hv)
    have hle := (reaches_of_answer text htrivia).offset_le
    have hlaid : Laid text (.expr (.lit (String.ofList (Slice.mk k k₁.offset).chars)
        (exactSpan ⟨k, k₁.offset⟩))) :=
      ⟨⟨hlt, hk₁.offset, hk.line, hk.column⟩, hink, trivial, Nat.le_of_lt hlt, by simp⟩
    exact ⟨Nat.le_refl _, hlaid, hle⟩

theorem keeps_lexBody (r : LexRule) : Keeps text call (lexBody r) r.pieces := by
  cases r with
  | literal => exact keeps_literal
  | outerAttr | innerAttr =>
    exact .leaf rfl (fun _ _ => rfl) (fun _ _ => rfl) fun _ _ => trivial
  | _ => exact .of_nothing _

theorem keeps_typeBody (r : TypeRule) : Keeps text call (typeBody r) r.pieces := by
  cases r with
  | type | typeNoBounds | retType =>
    exact .leaf rfl (fun _ _ => rfl) (fun _ _ => rfl) fun _ _ => trivial
  | typeAnnot => exact keeps_seqRight
  | _ => exact .of_nothing _

theorem keeps_patternBody (r : PatternRule) : Keeps text call (patternBody r) r.pieces := by
  cases r with
  | pattern | patternNoAlt =>
    exact .leaf rfl (fun _ _ => rfl) (fun _ _ => rfl) fun _ _ => trivial
  | _ => exact .of_nothing _

instance keeps_initializer : Keeps text call initializer (perhaps (single .expr)) :=
  inferInstanceAs (Keeps text call (opt (sym "=" *> exp (.expr .anywhere))) _)

instance keeps_members : Keeps text call members (each (single .item)) :=
  inferInstanceAs (Keeps text call (sym _ *> innerAttrs *> many (itm .item) <* sym _) _)

theorem children_signed (s : Slice) (kind : ItemKind) :
    (ItemKind.signed s kind).children = kind.children := by
  cases kind <;> rfl

theorem keeps_itemOf {kind : P ItemKind} (hk : Keeps text call kind kindPieces)
    (hi : kind.inked Token.inked Rule.inked = true) :
    Keeps text call (itemOf kind) (single .item) := by
  have hattrs : Keeps text call attrs (each (single .attribute)) := inferInstance
  refine Keeps.node (hattrs.both (Keeps.act (G := pair nothing kindPieces) keeps_both ?_)) hi
    (fun _ _ => rfl) ?_ fun _ _ _ _ _ => trivial
  · rintro lo hi s ⟨visibility, kind⟩ h
    change Row text lo hi (kindPieces (ItemKind.signed s kind))
    rw [kindPieces, children_signed]
    cases visibility <;> exact h
  · rintro s ⟨attrs, visibility, kind⟩
    simp [kindPieces]

@[simp] theorem each_paramPieces (ps : List Param) :
    each paramPieces ps = (ps.flatMap Param.children).map .node := by
  induction ps with
  | nil => rfl
  | cons p ps ih => simp [ih, paramPieces]

theorem keeps_otherItem {α : Type} (kind : OtherKind) (p : P α) :
    Keeps text call (otherItem kind p) kindPieces :=
  (Keeps.of_nothing p).act fun _ _ _ _ h => h

theorem keeps_itemBody (r : ItemRule) : Keeps text call (itemBody r) r.pieces := by
  cases r with
  | file => exact keeps_seqRight
  | item => exact keeps_itemOf inferInstance rfl
  | stmtItem => exact keeps_itemOf inferInstance rfl
  | itemKind => unfold itemBody; infer_instance
  | stmtItemKind => unfold itemBody; infer_instance
  | fnItem =>
    refine Keeps.map₄ ?_
    intro lo hi name params result body h
    cases params <;> simpa [kindPieces] using h
  | fnBody =>
    exact .choice (.map fun _ _ _ h => h) (.map fun _ _ _ h => h)
  | fnParams => exact keeps_commaList
  | fnParam => exact keeps_seqRight
  | selfParam => exact (Keeps.of_nothing _).act fun _ _ _ _ h => h
  | typedParam =>
    refine Keeps.map₂ ?_
    intro lo hi pattern type h
    exact h.sublist (by simp [paramPieces])
  | implItem =>
    refine Keeps.map₃ ?_
    intro lo hi traitType selfType items h
    simpa [kindPieces] using h
  | implTrait => exact keeps_seqLeft
  | structItem | enumItem => exact .map fun _ _ _ h => h
  | traitItem =>
    refine Keeps.map₂ ?_
    intro lo hi name items h
    simpa [kindPieces] using h
  | constItem | staticItem =>
    refine Keeps.left (.map₃ ?_) _
    intro lo hi name type value h
    simpa [kindPieces] using h
  | useItem | typeAlias | externCrate | externBlock => exact keeps_otherItem _ _
  | modItem =>
    have hitems : Keeps text call (((fun _ => none) <$> sym ";") <|> (some <$> members))
        (perhaps (each (single .item))) :=
      .choice (.map fun _ _ _ h => h) (.map fun _ _ _ h => h)
    refine Keeps.map₂ ?_
    intro lo hi name items h
    cases items <;> simpa [kindPieces] using h
  | macroItem =>
    refine Keeps.map₂ ?_
    exact fun _ _ _ _ h => h
  | _ => exact .of_nothing _

theorem Keeps.expr {α : Type} {p : P α} {F : α → List Piece} [hp : Keeps text call p F]
    {f : Slice → α → Expr} (hi : p.inked Token.inked Rule.inked = true)
    (hs : ∀ s a, (f s a).span = spanOf s)
    (hc : ∀ s a, ((f s a).children.map Piece.node).Sublist (F a)) :
    Keeps text call (.act f p) (single .expr) :=
  hp.node hi hs hc fun _ _ _ _ _ => trivial

theorem keeps_primaries {structs : P Expr → P Expr}
    (h : ∀ p : P Expr, Keeps text call p (single .expr) →
      Keeps text call (structs p) (single .expr)) :
    Keeps text call (primaries structs) (single .expr) := by
  have hpath : Keeps text call
      ((fun p : PathRef => Expr.path p.segments p.text p.span) <$> exp .pathExpr)
      (single .expr) := .map fun _ _ _ h => h
  have hrest := h (((fun p : PathRef => Expr.path p.segments p.text p.span) <$> exp .pathExpr)
      <|> exp .unitExpr <|> exp .parenExpr <|> exp .tupleExpr <|> exp .arrayExpr) inferInstance
  unfold primaries
  infer_instance

theorem keeps_exprBody (r : ExprRule) : Keeps text call (exprBody r) r.pieces := by
  cases r with
  | expr p => exact .map₂ fun _ _ _ _ h => row_assignment h
  | rangeExpr p => exact keeps_orElse
  | orExpr p | andExpr p | bitorExpr p | bitxorExpr p | bitandExpr p | shiftExpr p | addExpr p
  | mulExpr p => exact keeps_leftLevel
  | cmpExpr p =>
    refine .map₂ fun lo hi left rest h => row_foldBinary ?_
    cases rest with
    | none => exact h
    | some x => simpa using h
  | castExpr p => exact .map₂ fun _ _ _ _ h => row_foldCasts h
  | letChain => exact .map₂ fun _ _ _ _ h => row_foldBinary h
  | postfixExpr p => exact .map₂ fun _ _ _ _ h => row_foldPostfix (fun _ => rfl) h
  | primary p =>
    cases p with
    | anywhere => exact keeps_primaries fun p _ => keeps_orElse
    | beforeBlock => exact keeps_primaries fun p h => h
  | unaryExpr p =>
    refine .choice (.expr rfl (fun _ _ => rfl) ?_) inferInstance
    rintro s ⟨op, operand⟩
    simp
  | rangeFull p =>
    refine .expr rfl (fun _ _ => rfl) ?_
    rintro s ⟨start, inclusive, stop⟩
    simp
  | postfixOp => unfold exprBody; infer_instance
  | methodCallOp =>
    refine keeps_postfixOf (.map₃ ?_) rfl
    intro lo hi name turbofish args h
    cases turbofish <;> exact h
  | awaitOp | fieldOp | callOp | indexOp | tryOp =>
    exact keeps_postfixOf (.map fun _ _ _ h => h) rfl
  | exprList => exact keeps_commaList
  | closure =>
    refine .expr rfl (fun _ _ => rfl) ?_
    rintro s ⟨moves, params, result, body⟩
    simp
  | closureBody =>
    refine .choice (.map₂ ?_) (.map fun _ _ _ h => h)
    intro lo hi result b h
    exact ⟨h.1, h.2.1, Row.same h.2.2 rfl rfl trivial⟩
  | blockLike => unfold exprBody; infer_instance
  | elseBranch | cond | matchGuard | pathExpr | structBase => unfold exprBody; infer_instance
  | ifExpr =>
    refine .expr rfl (fun _ _ => rfl) ?_
    rintro s ⟨cond, thenBlock, orElse⟩
    simp
  | letCond =>
    refine .expr rfl (fun _ _ => rfl) ?_
    rintro s ⟨pattern, e⟩
    simp
  | matchExpr =>
    refine .expr rfl (fun _ _ => rfl) ?_
    rintro s ⟨scrutinee, arms⟩
    simp
  | matchArm =>
    refine .node inferInstance rfl (fun _ _ => rfl) ?_ fun _ _ _ _ _ => trivial
    rintro s ⟨pattern, guard, body⟩
    simp
  | armBody => unfold exprBody; infer_instance
  | loopExpr | blockExpr =>
    refine .expr rfl (fun _ _ => rfl) ?_
    rintro s ⟨label, body⟩
    simp
  | whileExpr =>
    refine .expr rfl (fun _ _ => rfl) ?_
    rintro s ⟨label, cond, body⟩
    simp
  | forExpr =>
    refine .expr rfl (fun _ _ => rfl) ?_
    rintro s ⟨label, pattern, iter, body⟩
    simp
  | uncheckedBlock | asyncBlock | parenExpr => exact .expr rfl (fun _ _ => rfl) fun _ _ => .refl _
  | macroCall | continueExpr => exact .leaf rfl (fun _ _ => rfl) (fun _ _ => rfl) fun _ _ => trivial
  | unitExpr => exact .leaf rfl (fun _ _ => rfl) (fun _ _ => rfl) fun _ _ => trivial
  | structLit =>
    refine .expr rfl (fun _ _ => rfl) ?_
    rintro s ⟨path, fields, base⟩
    simp
  | structLitBody => exact keeps_both
  | structField =>
    have hvalue : Keeps text call (some <$> exp (.expr .anywhere)) (perhaps (single .expr)) :=
      .map fun _ _ _ h => h
    have hshort : Keeps text call ((fun name => (name, none)) <$> lex .ident)
        (pair nothing (perhaps (single .expr))) := .map fun _ _ _ h => h
    refine .node ((keeps_both.choice hshort).right skipAttrs) rfl (fun _ _ => rfl) ?_
      fun _ _ _ _ _ => trivial
    rintro s ⟨name, value⟩
    simp
  | qualifiedPathExpr | plainPathExpr =>
    exact .leaf rfl (fun _ _ => rfl) (fun _ _ => rfl) fun _ _ => trivial
  | tupleExpr =>
    refine .expr rfl (fun _ _ => rfl) ?_
    rintro s ⟨first, rest⟩
    simp
  | arrayExpr =>
    refine .expr rfl ?_ ?_
    · rintro s (_ | _ | _) <;> rfl
    · rintro s (_ | _ | _) <;> simp [arrayPieces]
  | arrayBody => exact .choice (.map fun _ _ _ h => h) (.map fun _ _ _ h => h)
  | arrayRepeat => exact keeps_both
  | returnExpr =>
    refine .expr rfl (fun _ _ => rfl) ?_
    intro s value
    simp
  | breakExpr =>
    refine .expr rfl (fun _ _ => rfl) ?_
    rintro s ⟨label, value⟩
    simp
  | _ => exact .of_nothing _

/-- What is read up to a semicolon ends on it, with no blank behind. -/
theorem offsetBehind_of_ending {α : Type} {p : P α} (hp : p.ending = some ';') {k k' : Cursor}
    {a : α} (hk : At text k) (h : p.answer Token.scan call k = .matched a k') :
    offsetBehind ⟨k, k'.offset⟩ = k'.offset ∧ text[k'.offset - 1]? = some ';' := by
  obtain ⟨hlt, hlast⟩ := answer_ending (Sound.reaches text) hp hk h
  have hle := offsetBehind_le hk (Nat.le_of_lt hlt)
  have hgt : k'.offset - 1 < offsetBehind ⟨k, k'.offset⟩ :=
    lt_offsetBehind hk (by omega) (by omega) ⟨';', hlast, by decide⟩
  exact ⟨by omega, hlast⟩

/-- Before the semicolon of a statement stands what `p` read. -/
theorem answer_semicolon {α : Type} {p : P α} {k k' : Cursor} {a : α}
    (h : (p <* bare ";").answer Token.scan call k = .matched a k') :
    ∃ k₁, p.answer Token.scan call k = .matched a k₁ ∧ k₁.offset = k'.offset - 1 := by
  obtain ⟨x, hx, rfl⟩ := Peg.Expression.answer_act.1 h
  obtain ⟨k₁, hp, hsemi⟩ := Peg.Expression.answer_both.1 hx
  obtain ⟨hs, rfl⟩ := Peg.Expression.answer_text.1 hsemi
  obtain ⟨rest, hr⟩ := (Text.startsWith_iff _ _).1 hs
  refine ⟨k₁, hp, ?_⟩
  have hl : ";".toList.length ≤ k₁.rest.length := by
    rw [← hr]
    simp
  rw [Cursor.offset_advance hl]
  rfl

theorem keeps_stmtBody (r : StmtRule) : Keeps text call (stmtBody r) r.pieces := by
  cases r with
  | block =>
    refine .node inferInstance rfl (fun _ _ => rfl) ?_ fun _ _ _ _ _ => trivial
    rintro s ⟨stmts, tail⟩
    simp
  | stmtSeq => exact keeps_both
  | stmtWs => exact keeps_seqLeft
  | stmt =>
    have hitem : Keeps text call (.act (fun s i => Stmt.item i (spanOf s)) (itm .stmtItem))
        (single .stmt) := by
      refine .node inferInstance rfl (fun _ _ => rfl) (fun _ _ => .refl _) ?_
      intro _ _ _ _ _ h
      cases h
    unfold stmtBody
    infer_instance
  | emptyStmt =>
    exact .leaf rfl (fun _ _ => rfl) (fun _ _ => rfl) fun _ _ h => by cases h
  | letStmt =>
    refine .node inferInstance rfl (fun _ _ => rfl) ?_ ?_
    · rintro s ⟨attrs, pattern, type, init⟩
      rcases init with _ | ⟨e, b⟩ <;> simp
    · rintro k ⟨attrs, pattern, type, init⟩ k' hk h _
      obtain ⟨hstop, hlast⟩ := offsetBehind_of_ending rfl hk h
      obtain ⟨k₁, hattrs, hrest⟩ := Peg.Expression.answer_both.1 h
      obtain ⟨k₂, hpattern, hrest⟩ := Peg.Expression.answer_both.1 hrest
      obtain ⟨k₃, htype, hrest⟩ := Peg.Expression.answer_both.1 hrest
      obtain ⟨k₄, hinit, hsemi⟩ := answer_semicolon hrest
      have hk₁ := hk.of_reaches (reaches_of_answer text hattrs)
      have hk₂ := hk₁.of_reaches (reaches_of_answer text hpattern)
      have hk₃ := hk₂.of_reaches (reaches_of_answer text htype)
      change text[offsetBehind ⟨k, k'.offset⟩ - 1]? = some ';' ∧ _
      rw [hstop]
      refine ⟨hlast, ?_⟩
      rcases Peg.Expression.answer_option hinit with ⟨x, hx, hinit⟩ | ⟨hx, _⟩
      · have hends := Sound.ends (.stmt .letInit) k₃ x k₄ hk₃ hinit
        rw [hsemi, ← hstop] at hends
        cases hx
        exact hends
      · cases hx
        trivial
  | letInit => exact keeps_both
  | letElse => exact keeps_seqRight
  | blockStmt =>
    refine .node inferInstance rfl (fun _ _ => rfl) ?_ ?_
    · rintro s ⟨attrs, e, semi⟩
      simp
    · rintro k ⟨attrs, e, semi⟩ k' hk h hsimple
      obtain ⟨k₁, _, hrest⟩ := Peg.Expression.answer_both.1 h
      obtain ⟨k₂, hexpr, _⟩ := Peg.Expression.answer_both.1 hrest
      obtain ⟨⟨e', u⟩, hx, he'⟩ := Peg.Expression.answer_act.1 hexpr
      obtain ⟨k₃, he, _⟩ := Peg.Expression.answer_both.1 hx
      have howns : e'.isBlockLike = true := Sound.owns text .blockLike k₁ e' k₃ he
      rw [← show e = e' from he'] at howns
      simp [Stmt.isSimple, howns] at hsimple
  | exprStmt =>
    refine .node inferInstance rfl (fun _ _ => rfl) ?_ ?_
    · rintro s ⟨attrs, e⟩
      simp
    · rintro k ⟨attrs, e⟩ k' hk h _
      obtain ⟨hstop, hlast⟩ := offsetBehind_of_ending rfl hk h
      obtain ⟨k₁, hattrs, hrest⟩ := Peg.Expression.answer_both.1 h
      obtain ⟨k₂, he, hsemi⟩ := answer_semicolon hrest
      have hk₁ := hk.of_reaches (reaches_of_answer text hattrs)
      have hends := Sound.ends (.expr (.expr .anywhere)) k₁ e k₂ hk₁ he
      rw [hsemi, ← hstop] at hends
      change text[offsetBehind ⟨k, k'.offset⟩ - 1]? = some ';' ∧ _
      rw [hstop]
      exact ⟨hlast, hends⟩
  | blockTail => exact keeps_seqRight

end

theorem keeps_body [Sound text call] (r : Rule) : Keeps text call (body r) r.pieces := by
  cases r with
  | lex r => exact keeps_lexBody r
  | type r => exact keeps_typeBody r
  | pattern r => exact keeps_patternBody r
  | item r => exact keeps_itemBody r
  | stmt r => exact keeps_stmtBody r
  | expr r => exact keeps_exprBody r

theorem exact_lexBody {r : LexRule} (hr : r.isLiteral = true) {k k' : Cursor} {a : r.Value}
    (hk : At text k) (h : (lexBody r).answer Token.scan call k = .matched a k') :
    k.offset < k'.offset ∧ Inked text (k'.offset - 1) := by
  have of_scan {t : Token} (ht : t.isLiteral = true) {n : Nat}
      (hs : Token.scan t k.rest = some n) :
      k.offset < (k.advance n).offset ∧ Inked text ((k.advance n).offset - 1) := by
    obtain ⟨u, rest, hu, rfl, v, c, rfl, hc⟩ := Token.scan_literal ht hs
    obtain ⟨hlt, hlast⟩ := last_of_append hk hu
    exact ⟨hlt, c, hlast, hc⟩
  cases r with
  | rawString | stringLit | charLit | number | truth =>
    obtain ⟨n, hs, rfl⟩ := Peg.Expression.answer_token.1 h
    exact of_scan rfl hs
  | _ => cases hr

theorem owns_exprBody (howns : ∀ r k a k', call (.expr r) k = .matched a k' → r.Owns a)
    {r : ExprRule} {k k' : Cursor} {a : r.Value}
    (h : (exprBody r).answer Token.scan call k = .matched a k') : r.Owns a := by
  cases r with
  | blockLike =>
    rcases Peg.Expression.answer_either.1 h with h | ⟨_, h⟩
    · exact howns .ifExpr k a k' h
    rcases Peg.Expression.answer_either.1 h with h | ⟨_, h⟩
    · exact howns .matchExpr k a k' h
    rcases Peg.Expression.answer_either.1 h with h | ⟨_, h⟩
    · exact howns .loopExpr k a k' h
    rcases Peg.Expression.answer_either.1 h with h | ⟨_, h⟩
    · exact howns .whileExpr k a k' h
    rcases Peg.Expression.answer_either.1 h with h | ⟨_, h⟩
    · exact howns .forExpr k a k' h
    rcases Peg.Expression.answer_either.1 h with h | ⟨_, h⟩
    · exact howns .uncheckedBlock k a k' h
    rcases Peg.Expression.answer_either.1 h with h | ⟨_, h⟩
    · exact howns .asyncBlock k a k' h
    · exact howns .blockExpr k a k' h
  | ifExpr | matchExpr | loopExpr | whileExpr | forExpr | uncheckedBlock | asyncBlock
  | blockExpr =>
    obtain ⟨x, _, rfl⟩ := Peg.Expression.answer_act.1 h
    rfl
  | _ => trivial

theorem opens_body (hopens : ∀ r k a k' w, r.opening? = some w → call r k = .matched a k' →
      w <+: k.rest)
    {r : Rule} {w : List Char} (hw : r.opening? = some w) {k k' : Cursor} {a : r.Value}
    (h : (body r).answer Token.scan call k = .matched a k') : w <+: k.rest := by
  unfold Rule.opening? at hw
  split at hw
  · cases hw
    obtain ⟨x, hx, _⟩ := Peg.Expression.answer_act.1 h
    obtain ⟨k₁, hword, _⟩ := Peg.Expression.answer_both.1 hx
    obtain ⟨n, hs, _⟩ := Peg.Expression.answer_token.1 hword
    obtain ⟨u, rest, hr, _, hu⟩ := Token.cuts_wordLength hs
    rw [hr, List.mem_singleton.1 hu]
    exact List.prefix_append _ _
  · cases hw
    obtain ⟨x, hx, _⟩ := Peg.Expression.answer_act.1 h
    obtain ⟨k₁, hword, _⟩ := Peg.Expression.answer_both.1 hx
    exact hopens (.lex (.word "else".toList)) k _ k₁ _ rfl hword
  · cases hw

/-- However deep rules are nested, they go forward and leave rows behind. -/
theorem sound_answer (text : List Char) (n : Nat) : Sound text (grammar.answer n) := by
  induction n with
  | zero =>
    constructor <;> intros <;> rename_i h <;> cases h
  | succ n ih =>
    refine ⟨fun _ _ _ _ => grammar.answer_reaches, ?_, ?_, ?_, ?_, ?_, ?_⟩
    · exact fun r k a k' hr hk h => answer_inked ih.reaches ih.inked (inked_body r hr) hk h
    · exact fun r k a k' hr hk h => exact_lexBody hr hk h
    · exact fun r k a k' h => owns_exprBody ih.owns h
    · exact fun r k a k' w hw h => opens_body ih.opens hw h
    · exact fun r k a k' hk h => (stops_body r).ends k a k' hk h
    · exact fun r k a k' hk h => (keeps_body r).row k a k' hk h

end InkGauge.Contract.Grammar
