import InkGauge.Contract.Grammar.Rule
import InkGauge.Proofs.Contract.Node
import InkGauge.Proofs.Peg.Answer
import Mathlib.Data.List.DropRight

/-!
A node is laid out in a text if its span is a stretch of it that ends on a character that is not
blank, and the nodes below it stand one behind the other inside that span, laid out themselves.
-/

namespace InkGauge.Contract

open Peg (Cursor Slice)
open Text

theorem lineAt_succ {text : List Char} {n : Nat} {c : Char} (h : text[n]? = some c) :
    lineAt text (n + 1) = if c = '\n' then lineAt text n + 1 else lineAt text n := by
  unfold lineAt
  rw [List.take_add_one, h, Option.toList_some, List.count_append]
  by_cases hc : c = '\n'
  · simp [hc, Nat.add_assoc]
  · simp [hc]

theorem columnAt_succ {text : List Char} {n : Nat} {c : Char} (h : text[n]? = some c) :
    columnAt text (n + 1) = if c = '\n' then 1 else columnAt text n + 1 := by
  unfold columnAt
  rw [List.take_add_one, h, Option.toList_some, List.reverse_append]
  by_cases hc : c = '\n'
  · simp [hc]
  · simp [hc, Nat.add_assoc]

theorem lineAt_mono (text : List Char) {m n : Nat} (h : m ≤ n) : lineAt text m ≤ lineAt text n := by
  have hprefix : text.take m <+: text.take n := List.take_prefix_take_left h
  have hcount := hprefix.sublist.count_le '\n'
  unfold lineAt
  omega

/-- `k` is a place of the text: what is left to read, its line and its column fit its offset. -/
structure At (text : List Char) (k : Cursor) : Prop where
  rest : k.rest = text.drop k.offset
  offset : k.offset ≤ text.length
  line : k.line = lineAt text k.offset
  column : k.column = columnAt text k.offset

namespace At

variable {text : List Char} {k k' : Cursor}

theorem start (text : List Char) : At text (.start text) where
  rest := rfl
  offset := Nat.zero_le _
  line := by simp [Cursor.start, lineAt]
  column := by simp [Cursor.start, columnAt]

theorem next (h : At text k) : At text k.next := by
  cases hr : k.rest with
  | nil =>
    rw [Cursor.next_of_end hr]
    exact h
  | cons c cs =>
    have hd : text.drop k.offset = c :: cs := by rw [← h.rest, hr]
    have hc : text[k.offset]? = some c := by
      rw [← List.head?_drop, hd, List.head?_cons]
    have hlt : k.offset < text.length := (List.getElem?_eq_some_iff.1 hc).1
    have hcs : cs = text.drop (k.offset + 1) := by
      rw [← List.drop_drop, hd, List.drop_succ_cons, List.drop_zero]
    have hl := lineAt_succ hc
    have hcol := columnAt_succ hc
    unfold Cursor.next
    rw [hr]
    by_cases hn : c = '\n'
    · simp only [hn, if_true] at hl hcol ⊢
      exact ⟨hcs, hlt, by simp only [hl, h.line], hcol.symm⟩
    · simp only [hn, if_false] at hl hcol ⊢
      exact ⟨hcs, hlt, by simp only [hl, h.line], by simp only [hcol, h.column]⟩

theorem advance (h : At text k) (n : Nat) : At text (k.advance n) := by
  induction n generalizing k with
  | zero => exact h
  | succ n ih => exact ih h.next

theorem of_reaches (h : At text k) (hr : k.Reaches k') : At text k' := by
  obtain ⟨n, _, rfl⟩ := hr
  exact h.advance n

/-- The text from one place to a later one. -/
theorem chars (h : At text k) (stop : Nat) :
    (Slice.mk k stop).chars = (text.drop k.offset).take (stop - k.offset) := by
  rw [Slice.chars, h.rest]

end At

/-- The character at an offset is there and is not blank. -/
def Inked (text : List Char) (n : Nat) : Prop := ∃ c, text[n]? = some c ∧ isBlank c = false

/-- Some character from `lo` on and before `hi` is not blank. -/
def InkBetween (text : List Char) (lo hi : Nat) : Prop := ∃ n, lo ≤ n ∧ n < hi ∧ Inked text n

theorem InkBetween.mono {text : List Char} {lo hi lo' hi' : Nat} (h : InkBetween text lo hi)
    (hlo : lo' ≤ lo) (hhi : hi ≤ hi') : InkBetween text lo' hi' := by
  obtain ⟨n, h1, h2, h3⟩ := h
  exact ⟨n, by omega, by omega, h3⟩

/-- From `lo` to `hi` there are only blanks. -/
def BlankBetween (text : List Char) (lo hi : Nat) : Prop := lo ≤ hi ∧ ¬InkBetween text lo hi

theorem trimRight_isPrefix (s : List Char) : trimRight s <+: s := List.rdropWhile_prefix isBlank s

/-- Trimming stops at the last character that is not blank. -/
theorem lt_length_trimRight {s : List Char} {i : Nat} {c : Char} (h : s[i]? = some c)
    (hc : isBlank c = false) : i < (trimRight s).length := by
  by_contra hlt
  have happ : trimRight s ++ s.rtakeWhile isBlank = s := List.rdropWhile_append_rtakeWhile
  rw [← happ, List.getElem?_append_right (by omega)] at h
  have hm := List.mem_of_getElem? h
  have hb := List.mem_rtakeWhile_imp hm
  rw [hc] at hb
  cases hb

theorem last_trimRight {s : List Char} (h : trimRight s ≠ []) :
    ∃ c, s[(trimRight s).length - 1]? = some c ∧ isBlank c = false := by
  refine ⟨(trimRight s).getLast h, ?_, ?_⟩
  · obtain ⟨t, ht⟩ := trimRight_isPrefix s
    have hpos : 0 < (trimRight s).length := List.length_pos_iff.2 h
    rw [List.getLast_eq_getElem]
    nth_rewrite 1 [← ht]
    rw [List.getElem?_append_left (by omega), List.getElem?_eq_getElem (by omega)]
  · exact Bool.eq_false_iff.2 (List.rdropWhile_last_not isBlank s h)

namespace Grammar

variable {text : List Char} {k k' : Cursor}

theorem offsetBehind_le (h : At text k) {stop : Nat} (hs : k.offset ≤ stop) :
    offsetBehind ⟨k, stop⟩ ≤ stop := by
  have hl := (trimRight_isPrefix (Slice.mk k stop).chars).length_le
  have hc : (Slice.mk k stop).chars.length ≤ stop - k.offset := by
    rw [h.chars]
    exact List.length_take_le _ _
  unfold offsetBehind
  dsimp only
  omega

/-- No character that is not blank is trimmed away. -/
theorem lt_offsetBehind (h : At text k) {stop n : Nat} (hn : k.offset ≤ n) (hs : n < stop)
    (hi : Inked text n) : n < offsetBehind ⟨k, stop⟩ := by
  obtain ⟨c, hc, hb⟩ := hi
  have hg : (Slice.mk k stop).chars[n - k.offset]? = some c := by
    rw [h.chars, List.getElem?_take_of_lt (by omega), List.getElem?_drop]
    rw [← hc]
    congr 1
    omega
  have hlt := lt_length_trimRight hg hb
  unfold offsetBehind
  dsimp only
  omega

theorem inked_offsetBehind (h : At text k) {stop : Nat} (hi : InkBetween text k.offset stop) :
    k.offset < offsetBehind ⟨k, stop⟩ ∧ Inked text (offsetBehind ⟨k, stop⟩ - 1) := by
  obtain ⟨n, hn, hs, hin⟩ := hi
  have hlt := lt_offsetBehind h hn hs hin
  have hne : trimRight (Slice.mk k stop).chars ≠ [] := by
    intro he
    unfold offsetBehind at hlt
    rw [he] at hlt
    simp at hlt
    omega
  obtain ⟨c, hc, hb⟩ := last_trimRight hne
  have hpos := List.length_pos_iff.2 hne
  refine ⟨by omega, c, ?_, hb⟩
  have hlt' := (List.getElem?_eq_some_iff.1 hc).1
  have hlen : (Slice.mk k stop).chars.length ≤ stop - k.offset := by
    rw [h.chars]
    exact List.length_take_le _ _
  rw [h.chars, List.getElem?_take_of_lt (by rw [← h.chars]; omega), List.getElem?_drop,
    ← h.chars] at hc
  rw [← hc]
  unfold offsetBehind
  congr 1
  dsimp only
  omega

/-- Only blanks are trimmed away. -/
theorem blank_offsetBehind (h : At text k) {stop : Nat} (hs : k.offset ≤ stop) :
    BlankBetween text (offsetBehind ⟨k, stop⟩) stop := by
  refine ⟨offsetBehind_le h hs, ?_⟩
  rintro ⟨n, hlo, hhi, hi⟩
  have hle : k.offset ≤ offsetBehind ⟨k, stop⟩ := Nat.le_add_right _ _
  have hlt := lt_offsetBehind h (hle.trans hlo) hhi hi
  omega

end Grammar

/-- The expression was written up to `hi`: behind its span there are only blanks. The span of one
that ends with a literal is over where the literal is, and there may be comments behind it. -/
structure Expr.WrittenTo (text : List Char) (hi : Nat) (e : Expr) : Prop where
  le : e.span.stop ≤ hi
  literal : ∀ t, e.lastLiteral? = some t →
    t.toList <:+ (text.take e.span.stop).drop e.span.start
  blank : e.lastLiteral? = none → BlankBetween text e.span.stop hi

theorem Expr.WrittenTo.of_blank {text : List Char} {hi : Nat} {e : Expr}
    (hl : e.lastLiteral? = none) (h : BlankBetween text e.span.stop hi) : e.WrittenTo text hi where
  le := h.1
  literal t ht := by
    rw [hl] at ht
    cases ht
  blank _ := h

/-- An initializer was written up to `hi`, or up to an `else` and the block behind that up to
`hi`. -/
def Expr.InitTo (text : List Char) (e : Expr) (hi : Nat) : Option Block → Prop
  | none => e.WrittenTo text hi
  | some b => BlankBetween text b.span.stop hi ∧
    ∃ mid, e.WrittenTo text mid ∧ mid ≤ b.span.start ∧ "else".toList <+: text.drop mid

/-- What a statement computes was written up to the semicolon. -/
def Stmt.Written (text : List Char) : Stmt → Prop
  | .letBind _ _ (some e) orElse _ span => e.InitTo text (span.stop - 1) orElse
  | .expr e _ _ span => e.WrittenTo text (span.stop - 1)
  | _ => True

/-- A simple statement ends on its semicolon, and what it computes was written up to there. -/
def Node.Closed (text : List Char) : Node → Prop
  | .stmt s => s.isSimple = true → text[s.span.stop - 1]? = some ';' ∧ s.Written text
  | _ => True

/-- The spans stand one behind the other from `lo` to `hi`. -/
def InOrder (lo hi : Nat) : List Span → Prop
  | [] => lo ≤ hi
  | s :: ss => lo ≤ s.start ∧ InOrder s.stop hi ss

/-- A node and all below it are laid out in a text. -/
inductive Laid (text : List Char) : Node → Prop where
  | mk {n : Node} (marks : n.span.Marks text) (ink : Inked text (n.span.stop - 1))
      (closed : n.Closed text)
      (order : InOrder n.span.start n.span.stop (n.children.map Node.span))
      (inner : ∀ m ∈ n.children, Laid text m) : Laid text n

/-- What a rule leaves behind: a node, or an offset at which something ended. -/
inductive Piece where
  | node (n : Node)
  | mark (stop : Nat)

/-- Pieces that stand one behind the other from `lo` to `hi`. -/
def Row (text : List Char) : Nat → Nat → List Piece → Prop
  | lo, hi, [] => lo ≤ hi
  | lo, hi, .node n :: ps => lo ≤ n.span.start ∧ Laid text n ∧ Row text n.span.stop hi ps
  | lo, hi, .mark m :: ps => lo ≤ m ∧ Inked text (m - 1) ∧ Row text m hi ps

namespace Laid

variable {text : List Char} {n : Node}

theorem marks (h : Laid text n) : n.span.Marks text := by
  cases h
  assumption

theorem ink (h : Laid text n) : Inked text (n.span.stop - 1) := by
  cases h
  assumption

theorem closed (h : Laid text n) : n.Closed text := by
  cases h
  assumption

theorem order (h : Laid text n) :
    InOrder n.span.start n.span.stop (n.children.map Node.span) := by
  cases h
  assumption

theorem inner (h : Laid text n) : ∀ m ∈ n.children, Laid text m := by
  cases h
  assumption

end Laid

namespace Row

variable {text : List Char} {lo mid hi : Nat} {ps qs : List Piece}

theorem le (h : Row text lo hi ps) : lo ≤ hi := by
  induction ps generalizing lo with
  | nil => exact h
  | cons p ps ih =>
    cases p with
    | node n =>
      have hn := h.2.1.marks.nonempty
      have hr := ih h.2.2
      have hl := h.1
      omega
    | mark m =>
      have hr := ih h.2.2
      have hl := h.1
      omega

theorem mono {lo' hi' : Nat} (h : Row text lo hi ps) (hlo : lo' ≤ lo) (hhi : hi ≤ hi') :
    Row text lo' hi' ps := by
  induction ps generalizing lo lo' with
  | nil => exact hlo.trans (h.le.trans hhi)
  | cons p ps ih =>
    cases p with
    | node n => exact ⟨hlo.trans h.1, h.2.1, ih h.2.2 (Nat.le_refl _)⟩
    | mark m => exact ⟨hlo.trans h.1, h.2.1, ih h.2.2 (Nat.le_refl _)⟩

theorem append (h : Row text lo mid ps) (h' : Row text mid hi qs) : Row text lo hi (ps ++ qs) := by
  induction ps generalizing lo with
  | nil => exact h'.mono h (Nat.le_refl _)
  | cons p ps ih =>
    cases p with
    | node n => exact ⟨h.1, h.2.1, ih h.2.2⟩
    | mark m => exact ⟨h.1, h.2.1, ih h.2.2⟩

theorem of_append (h : Row text lo hi (ps ++ qs)) :
    ∃ mid, Row text lo mid ps ∧ Row text mid hi qs := by
  induction ps generalizing lo with
  | nil => exact ⟨lo, Nat.le_refl _, h⟩
  | cons p ps ih =>
    cases p with
    | node n =>
      obtain ⟨mid, hp, hq⟩ := ih h.2.2
      exact ⟨mid, ⟨h.1, h.2.1, hp⟩, hq⟩
    | mark m =>
      obtain ⟨mid, hp, hq⟩ := ih h.2.2
      exact ⟨mid, ⟨h.1, h.2.1, hp⟩, hq⟩

/-- Pieces may be left out. -/
theorem sublist (hs : ps.Sublist qs) (h : Row text lo hi qs) : Row text lo hi ps := by
  induction hs generalizing lo with
  | slnil => exact h
  | cons p _ ih =>
    cases p with
    | node n => exact (ih h.2.2).mono (h.1.trans (Nat.le_of_lt h.2.1.marks.nonempty)) (Nat.le_refl _)
    | mark m => exact (ih h.2.2).mono h.1 (Nat.le_refl _)
  | cons_cons p _ ih =>
    cases p with
    | node n => exact ⟨h.1, h.2.1, ih h.2.2⟩
    | mark m => exact ⟨h.1, h.2.1, ih h.2.2⟩

/-- The end of a row can be moved back to where its last piece ends. -/
theorem tighten {hi' : Nat} (h : Row text lo hi ps) (hlo : lo ≤ hi')
    (hhi : ∀ m, lo < m → m ≤ hi → Inked text (m - 1) → m ≤ hi') : Row text lo hi' ps := by
  induction ps generalizing lo with
  | nil => exact hlo
  | cons p ps ih =>
    cases p with
    | node n =>
      have hn := h.2.1.marks.nonempty
      have hr := le h.2.2
      have hl := h.1
      refine ⟨h.1, h.2.1, ih h.2.2 (hhi _ (by omega) hr h.2.1.ink) ?_⟩
      intro m hm hm' hi
      exact hhi m (by omega) hm' hi
    | mark m =>
      have hr := le h.2.2
      have hl := h.1
      have hm : m ≤ hi' := by
        rcases Nat.lt_or_eq_of_le hl with hlt | rfl
        · exact hhi m hlt hr h.2.1
        · exact hlo
      refine ⟨hl, h.2.1, ih h.2.2 hm ?_⟩
      intro m' hlt hle hink
      exact hhi m' (by omega) hle hink

theorem inOrder {ns : List Node} (h : Row text lo hi (ns.map .node)) :
    InOrder lo hi (ns.map Node.span) := by
  induction ns generalizing lo with
  | nil => exact h
  | cons n ns ih => exact ⟨h.1, ih h.2.2⟩

theorem laid {ns : List Node} (h : Row text lo hi (ns.map .node)) {n : Node} (hn : n ∈ ns) :
    Laid text n := by
  induction ns generalizing lo with
  | nil => cases hn
  | cons m ns ih =>
    rcases List.mem_cons.1 hn with rfl | hn
    · exact h.2.1
    · exact ih h.2.2 hn

end Row

theorem Laid.row {text : List Char} {n : Node} (h : Laid text n) :
    Row text n.span.start n.span.stop (n.children.map .node) := by
  have ho := h.order
  have hb := h.inner
  generalize n.span.start = lo, n.span.stop = hi, n.children = ns at ho hb
  induction ns generalizing lo with
  | nil => exact ho
  | cons m ns ih =>
    exact ⟨ho.1, hb m (by simp), ih _ ho.2 fun m' hm => hb m' (by simp [hm])⟩

/-- A node from the start of its first child to some offset behind its last. -/
theorem Row.enclose {text : List Char} {lo hi m : Nat} {n a : Node} {ns : List Node}
    {ps : List Piece} (hlo : lo ≤ a.span.start)
    (hr : Row text a.span.start m ((a :: ns).map .node)) (hi' : Inked text (m - 1))
    (hps : Row text m hi ps) (hs : n.span = { a.span with stop := m })
    (hc : n.children = a :: ns) (hcl : n.Closed text) : Row text lo hi (.node n :: ps) := by
  have ha := hr.2.1.marks
  have hle := Row.le hr.2.2
  have hlt : a.span.start < m := Nat.lt_of_lt_of_le ha.nonempty hle
  have hin : m ≤ text.length := by
    obtain ⟨c, hc, _⟩ := hi'
    have hb := (List.getElem?_eq_some_iff.1 hc).1
    omega
  have hl : Laid text n := by
    refine ⟨?_, ?_, hcl, ?_, ?_⟩
    · rw [hs]
      exact ⟨hlt, hin, ha.line, ha.column⟩
    · rw [hs]
      exact hi'
    · rw [hs, hc]
      exact hr.inOrder
    · rw [hc]
      exact fun b hb => hr.laid hb
  refine ⟨?_, hl, ?_⟩
  · rw [hs]
    exact hlo
  · rw [hs]
    exact hps

/-- A node from the start of one to the end of the next. -/
theorem Row.join {text : List Char} {lo hi : Nat} {n a b : Node} {ps : List Piece}
    (h : Row text lo hi (.node a :: .node b :: ps)) (hs : n.span = a.span.join b.span)
    (hc : n.children = [a, b]) (hcl : n.Closed text) : Row text lo hi (.node n :: ps) := by
  obtain ⟨hlo, ha, hab, hb, hps⟩ := h
  have hstop : max a.span.stop b.span.stop = b.span.stop :=
    Nat.max_eq_right (hab.trans (Nat.le_of_lt hb.marks.nonempty))
  have hr : Row text a.span.start b.span.stop ([a, b].map .node) :=
    ⟨Nat.le_refl _, ha, hab, hb, Nat.le_refl _⟩
  rw [Span.join, hstop] at hs
  exact Row.enclose hlo hr hb.ink hps hs hc hcl

/-- A node around a single one, with the same span. -/
theorem Row.same {text : List Char} {lo hi : Nat} {n a : Node} {ps : List Piece}
    (h : Row text lo hi (.node a :: ps)) (hs : n.span = a.span) (hc : n.children = [a])
    (hcl : n.Closed text) : Row text lo hi (.node n :: ps) :=
  Row.enclose h.1 ⟨Nat.le_refl _, h.2.1, Nat.le_refl _⟩ h.2.1.ink h.2.2 hs hc hcl

namespace Grammar

variable {text : List Char} {k k' : Cursor}

theorem marks_spanOf (h : At text k) {stop : Nat} (hs : stop ≤ text.length)
    (hk : k.offset ≤ stop) (hi : InkBetween text k.offset stop) :
    (spanOf ⟨k, stop⟩).Marks text where
  nonempty := (inked_offsetBehind h hi).1
  inside := (offsetBehind_le h hk).trans hs
  line := h.line
  column := h.column

/-- The blanks at the end of what was read hold no piece. -/
theorem row_offsetBehind (h : At text k) {stop : Nat} (hi : InkBetween text k.offset stop)
    {ps : List Piece} (hr : Row text k.offset stop ps) :
    Row text k.offset (offsetBehind ⟨k, stop⟩) ps := by
  apply hr.tighten (Nat.le_of_lt (inked_offsetBehind h hi).1)
  intro m hm hm' hi'
  have hb : m - 1 < offsetBehind ⟨k, stop⟩ := lt_offsetBehind h (by omega) (by omega) hi'
  omega

/-- A node whose span is what was read without the blanks behind it, around the pieces that were
read. -/
theorem row_spanOf (h : At text k) (h' : At text k') (hi : InkBetween text k.offset k'.offset)
    {ps : List Piece} (hr : Row text k.offset k'.offset ps) {n : Node}
    (hn : n.span = spanOf ⟨k, k'.offset⟩) (hc : (n.children.map Piece.node).Sublist ps)
    (hcl : n.Closed text) : Row text k.offset k'.offset [.node n] := by
  have hm := marks_spanOf h h'.offset hr.le hi
  obtain ⟨hlt, hink⟩ := inked_offsetBehind h hi
  have hrow := row_offsetBehind h hi (hr.sublist hc)
  refine ⟨?_, ?_, ?_⟩
  · rw [hn]
    exact Nat.le_refl _
  · refine ⟨hn ▸ hm, hn ▸ hink, hcl, ?_, fun m hm => hrow.laid hm⟩
    rw [hn]
    exact hrow.inOrder
  · rw [hn]
    exact offsetBehind_le h hr.le

end Grammar

end InkGauge.Contract
