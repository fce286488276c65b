import InkGauge.Proofs.Contract.Keeps

/-!
The operators of one level are applied one after the other to the expression so far. Each result
spans its operands, so the row of operands becomes a row of one, and the last of them tells where
the result ends.
-/

namespace InkGauge.Contract.Grammar

open Peg (Cursor)

variable {text : List Char} {lo hi : Nat}

theorem row_foldBinary {left : Expr} {rest : List (BinaryOp × Expr)}
    (h : Row text lo hi (single .expr left ++ each (pair nothing (single .expr)) rest)) :
    Row text lo hi (single .expr (foldBinary left rest)) := by
  induction rest generalizing left with
  | nil => exact h
  | cons x rest ih => exact ih (Row.join h rfl rfl trivial)

theorem row_foldCasts {e : Expr} {rest : List Fragment}
    (h : Row text lo hi (single .expr e ++ each (single .fragment) rest)) :
    Row text lo hi (single .expr (foldCasts e rest)) := by
  induction rest generalizing e with
  | nil => exact h
  | cons x rest ih => exact ih (Row.join h rfl rfl trivial)

theorem row_assignment {left : Expr} {rest : Option (Option ArithOp × Expr)}
    (h : Row text lo hi (single .expr left ++ perhaps (pair nothing (single .expr)) rest)) :
    Row text lo hi (single .expr (assignment left rest)) := by
  match rest with
  | none => exact h
  | some (none, right) => exact Row.join h rfl rfl trivial
  | some (some op, right) => exact Row.join h rfl rfl trivial

/-- One operator: what it makes of its operand reaches to the operator's end. -/
theorem foldPostfix_cons (first : Span) (e : Expr) (p : Postfix) (rest : List Postfix) :
    ∃ e' ns, foldPostfix first e (p :: rest) = foldPostfix first e' rest ∧
      e'.span = { first with stop := p.stop } ∧ e'.children = .expr e :: ns ∧
      opPieces p.op = ns.map .node := by
  obtain ⟨op, stop⟩ := p
  cases op with
  | method name turbofish args => exact ⟨_, args.map .expr, rfl, rfl, rfl, each_single _ args⟩
  | await => exact ⟨_, [], rfl, rfl, rfl, rfl⟩
  | field member => exact ⟨_, [], rfl, rfl, rfl, rfl⟩
  | call args => exact ⟨_, args.map .expr, rfl, rfl, rfl, each_single _ args⟩
  | index i => exact ⟨_, [.expr i], rfl, rfl, rfl, rfl⟩
  | attempt => exact ⟨_, [], rfl, rfl, rfl, rfl⟩

theorem row_foldPostfix {first : Span} {e : Expr} {ops : List Postfix}
    (hs : ∀ m, ({ first with stop := m } : Span) = { e.span with stop := m })
    (h : Row text lo hi (single .expr e ++ each postfixPieces ops)) :
    Row text lo hi (single .expr (foldPostfix first e ops)) := by
  induction ops generalizing e with
  | nil => exact h
  | cons p ops ih =>
    obtain ⟨e', ns, hf, hs', hc, hp⟩ := foldPostfix_cons first e p ops
    have h' : Row text lo hi
        (.node (.expr e) :: (ns.map .node ++ .mark p.stop :: each postfixPieces ops)) := by
      simpa [postfixPieces, hp] using h
    obtain ⟨hlo, he, hrest⟩ := h'
    obtain ⟨mid, hns, hm, hink, hps⟩ := hrest.of_append
    have hr : Row text e.span.start p.stop ((.expr e :: ns).map .node) :=
      ⟨Nat.le_refl _, he, hns.mono (Nat.le_refl _) hm⟩
    rw [hf]
    apply ih
    · intro m
      rw [hs']
    · exact Row.enclose hlo hr hink hps (hs'.trans (hs p.stop)) hc trivial

/-- What spans two expressions was written up to where the second was. -/
theorem writtenTo_join {e left right : Expr} (hs : e.span = left.span.join right.span)
    (hl : e.lastLiteral? = right.lastLiteral?)
    (hrow : Row text lo hi (single .expr left ++ single .expr right))
    (h : right.WrittenTo text hi) : e.WrittenTo text hi := by
  obtain ⟨_, hleft, hbetween, hright, _⟩ := hrow
  have hstart : left.span.start ≤ right.span.start :=
    (Nat.le_of_lt hleft.marks.nonempty).trans hbetween
  have hstop : e.span.stop = right.span.stop := by
    rw [hs]
    exact Nat.max_eq_right (hbetween.trans (Nat.le_of_lt hright.marks.nonempty))
  refine ⟨hstop ▸ h.le, ?_, ?_⟩
  · intro t ht
    rw [hl] at ht
    rw [hstop, hs]
    exact (h.literal t ht).trans (List.drop_suffix_drop_left _ hstart)
  · intro hnone
    rw [hl] at hnone
    rw [hstop]
    exact h.blank hnone

theorem foldBinary_concat (left : Expr) (rest : List (BinaryOp × Expr)) (op : BinaryOp)
    (right : Expr) :
    foldBinary left (rest ++ [(op, right)]) =
      .binary op (foldBinary left rest) right ((foldBinary left rest).span.join right.span) := by
  induction rest generalizing left with
  | nil => rfl
  | cons x rest ih => exact ih _

theorem writtenTo_foldBinary {left right : Expr} {rest : List (BinaryOp × Expr)} {op : BinaryOp}
    (hrow : Row text lo hi (single .expr left
      ++ each (pair nothing (single .expr)) (rest ++ [(op, right)])))
    (h : right.WrittenTo text hi) :
    (foldBinary left (rest ++ [(op, right)])).WrittenTo text hi := by
  rw [each, List.flatMap_append, ← List.append_assoc] at hrow
  obtain ⟨mid, hleft, hright⟩ := hrow.of_append
  rw [foldBinary_concat]
  exact writtenTo_join rfl rfl ((row_foldBinary hleft).append hright) h

theorem foldCasts_concat (e : Expr) (rest : List Fragment) (type : Fragment) :
    foldCasts e (rest ++ [type]) =
      .cast (foldCasts e rest) type ((foldCasts e rest).span.join type.span) := by
  induction rest generalizing e with
  | nil => rfl
  | cons x rest ih => exact ih _

theorem writtenTo_foldCasts {e : Expr} {rest : List Fragment} {type : Fragment}
    (hrow : Row text lo hi (single .expr e ++ each (single .fragment) (rest ++ [type])))
    (h : BlankBetween text type.span.stop hi) :
    (foldCasts e (rest ++ [type])).WrittenTo text hi := by
  rw [each, List.flatMap_append, ← List.append_assoc] at hrow
  obtain ⟨mid, he, htype⟩ := hrow.of_append
  obtain ⟨_, _, hle⟩ := row_foldCasts he
  have hstop : max (foldCasts e rest).span.stop type.span.stop = type.span.stop :=
    Nat.max_eq_right ((Row.le hle).trans (htype.1.trans (Nat.le_of_lt htype.2.1.marks.nonempty)))
  rw [foldCasts_concat]
  refine .of_blank rfl ?_
  change BlankBetween text (max _ _) hi
  rw [hstop]
  exact h

theorem foldPostfix_append (first : Span) (e : Expr) (ops ops' : List Postfix) :
    foldPostfix first e (ops ++ ops') = foldPostfix first (foldPostfix first e ops) ops' := by
  induction ops generalizing e with
  | nil => rfl
  | cons p ops ih => exact ih _

theorem writtenTo_foldPostfix {first : Span} {e : Expr} {ops : List Postfix} {p : Postfix}
    (h : BlankBetween text p.stop hi) :
    (foldPostfix first e (ops ++ [p])).WrittenTo text hi := by
  obtain ⟨op, stop⟩ := p
  rw [foldPostfix_append]
  cases op <;> exact .of_blank rfl h

end InkGauge.Contract.Grammar
