import InkGauge.Proofs.Contract.Layout

/-!
Every node of a file that was read is laid out in its text. From the layout follow the facts that
are told of spans: where they lie, which line and column they start at, that children lie inside
their parents, and that the statements of a block follow each other.
-/

namespace InkGauge.Contract

open Peg (Cursor)

theorem InOrder.within {lo hi : Nat} {spans : List Span} (h : InOrder lo hi spans)
    (hs : ∀ s ∈ spans, s.start < s.stop) :
    lo ≤ hi ∧ ∀ s ∈ spans, lo ≤ s.start ∧ s.stop ≤ hi := by
  induction spans generalizing lo with
  | nil => exact ⟨h, by simp⟩
  | cons s ss ih =>
    have hlt := hs s (by simp)
    obtain ⟨hle, hin⟩ := ih h.2 fun t ht => hs t (by simp [ht])
    have hlo := h.1
    refine ⟨by omega, ?_⟩
    intro t ht
    rcases List.mem_cons.1 ht with rfl | ht
    · exact ⟨hlo, hle⟩
    · obtain ⟨h1, h2⟩ := hin t ht
      exact ⟨by omega, h2⟩

theorem InOrder.pairwise {lo hi : Nat} {spans : List Span} (h : InOrder lo hi spans)
    (hs : ∀ s ∈ spans, s.start < s.stop) : spans.Pairwise Span.Before := by
  induction spans generalizing lo with
  | nil => exact .nil
  | cons s ss ih =>
    have hs' : ∀ t ∈ ss, t.start < t.stop := fun t ht => hs t (by simp [ht])
    exact .cons (fun t ht => ((InOrder.within h.2 hs').2 t ht).1) (ih h.2 hs')

namespace Laid

variable {text : List Char} {n : Node}

theorem nonempty_children (h : Laid text n) :
    ∀ s ∈ n.children.map Node.span, s.start < s.stop := by
  intro s hs
  obtain ⟨m, hm, rfl⟩ := List.mem_map.1 hs
  exact (h.inner m hm).marks.nonempty

theorem within (h : Laid text n) {m : Node} (hm : m ∈ n.children) : m.span.Within n.span :=
  (h.order.within h.nonempty_children).2 _ (List.mem_map.2 ⟨m, hm, rfl⟩)

theorem children_before (h : Laid text n) : (n.children.map Node.span).Pairwise Span.Before :=
  h.order.pairwise h.nonempty_children

/-- The statements of a block are the first of its children. -/
theorem stmts_before {b : Block} (h : Laid text (.block b)) :
    (b.stmts.map Stmt.span).Pairwise Span.Before := by
  have hc := h.children_before
  rw [Node.children, List.map_append] at hc
  have hs := (List.pairwise_append.1 hc).1
  rwa [List.map_map] at hs

end Laid

/-- What `parse` accepts was read by the rule for files, up to the end of the text. -/
theorem parse_eq_ok {text : List Char} {filename : String} {f : SourceFile}
    (h : parse text filename = .ok f) :
    ∃ n k, grammar.answer n (.item .file) (.start text) = .matched (f.attrs, f.items) k ∧
      k.atEnd = true ∧ f.text = text ∧ f.filename = filename := by
  simp only [parse] at h
  split at h
  · rename_i attrs items k hm
    split at h
    · rename_i hend
      cases h
      obtain ⟨n, hn⟩ := grammar.apply_matched hm
      exact ⟨n, k, hn, hend, rfl, rfl⟩
    · cases h
  · cases h

theorem parse_row {text : List Char} {filename : String} {f : SourceFile}
    (h : parse text filename = .ok f) :
    Row text 0 text.length ((Node.attributes f.attrs ++ Node.items f.items).map .node) := by
  obtain ⟨n, k, hf, -, -, -⟩ := parse_eq_ok h
  have hstart := At.start text
  have hsound := Grammar.sound_answer text n
  have hk := hstart.of_reaches (hsound.reaches _ _ _ _ hf)
  have hrow := hsound.row _ _ _ _ hstart hf
  simp only [Grammar.Rule.pieces, Grammar.ItemRule.pieces, Grammar.pair_mk, Grammar.each_single]
    at hrow
  rw [List.map_append]
  exact hrow.mono (Nat.le_refl _) hk.offset

theorem laid_of_contains {text : List Char} {filename : String} {f : SourceFile} {n : Node}
    (h : parse text filename = .ok f) (hn : f.Contains n) : Laid text n := by
  have hrow := parse_row h
  induction hn with
  | attr ha => exact hrow.laid (by simp [Node.attributes, ha])
  | item hi => exact hrow.laid (by simp [Node.items, hi])
  | child _ hm ih => exact ih.inner _ hm

/-- Every node of a file spans a stretch of the text that is not empty, at the line and column it
tells; its children lie inside it; the statements of a block follow each other; and a simple
statement ends on its semicolon. -/
theorem parse_spans {text : List Char} {filename : String} {f : SourceFile} {n : Node}
    (h : parse text filename = .ok f) (hn : f.Contains n) :
    n.span.Marks text ∧ (∀ m ∈ n.children, m.span.Within n.span) ∧
      (∀ b, n = .block b → (b.stmts.map Stmt.span).Pairwise Span.Before) ∧
      ∀ s, n = .stmt s → s.isSimple = true → text[s.span.stop - 1]? = some ';' := by
  have hl := laid_of_contains h hn
  refine ⟨hl.marks, fun m hm => hl.within hm, ?_, ?_⟩
  · rintro b rfl
    exact hl.stmts_before
  · rintro s rfl hsimple
    exact (hl.closed hsimple).1

/-- Is the text accepted, as a file that passes a check? -/
def parsesTo (text : String) (check : SourceFile → Bool) : Bool :=
  match parse text.toList "" with
  | .ok f => check f
  | .error _ => false

theorem exists_of_parsesTo {text : String} {check : SourceFile → Bool}
    (h : parsesTo text check = true) : ∃ f, parse text.toList "" = .ok f ∧ check f = true := by
  unfold parsesTo at h
  split at h
  · rename_i f hf
    exact ⟨f, hf, h⟩
  · cases h

/-- The body of the function that a file starts with. -/
def firstBody? (f : SourceFile) : Option Block :=
  (f.items.head?.bind Item.function?).bind Function.body

theorem contains_firstBody {f : SourceFile} {b : Block} (h : firstBody? f = some b) :
    f.Contains (.block b) := by
  obtain ⟨fn, hfn, hb⟩ := Option.bind_eq_some_iff.1 h
  obtain ⟨i, hi, hfn⟩ := Option.bind_eq_some_iff.1 hfn
  have hk : i.kind = .function fn := by
    unfold Item.function? at hfn
    split at hfn
    · rename_i fn' hk
      cases hfn
      exact hk
    · cases hfn
  refine .child (.item (List.mem_of_mem_head? hi)) ?_
  simp [Node.children, hk, ItemKind.children, Function.children, hb, Node.block?]

theorem parse_spans_block :
    ∃ f b, parse "fn f()\n\x7b let x = 1; g(x); \x7d".toList "" = .ok f ∧ f.Contains (.block b) ∧
      b.stmts.length = 2 ∧ b.span.start = 7 ∧
      b.span.Marks "fn f()\n\x7b let x = 1; g(x); \x7d".toList ∧
      (∀ m ∈ (Node.block b).children, m.span.Within b.span) ∧
      (b.stmts.map Stmt.span).Pairwise Span.Before := by
  have hcheck : parsesTo "fn f()\n\x7b let x = 1; g(x); \x7d" (fun f => (firstBody? f).any fun b =>
      b.stmts.length == 2 && b.span.start == 7) = true := by decide +kernel
  obtain ⟨f, hf, hb⟩ := exists_of_parsesTo hcheck
  obtain ⟨b, hbody, hb⟩ := (Option.any_eq_true _ _).1 hb
  obtain ⟨hlen, hstart⟩ := Bool.and_eq_true_iff.1 hb
  have hn := contains_firstBody hbody
  obtain ⟨hmarks, hwithin, hstmts, -⟩ := parse_spans hf hn
  exact ⟨f, b, hf, hn, beq_iff_eq.1 hlen, beq_iff_eq.1 hstart, hmarks, hwithin, hstmts b rfl⟩

end InkGauge.Contract
