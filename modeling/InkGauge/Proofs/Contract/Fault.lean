import InkGauge.Proofs.Contract.Row
import InkGauge.Proofs.Contract.Termination
import InkGauge.Proofs.Peg.Farthest

/-!
The rule for files stops before an item that is refused. The place of the fault is the farthest one
at which a rule is refused in that item. There is one exception: where a lone `#` is the whole item,
no rule is tried at the end of the text, and the fault is placed there nevertheless, since the
bracket that is missing is the first thing that is refused at all.
-/

namespace InkGauge.Contract

open Peg (Cursor Reply)
open Token (gapLength)

/-- Is the text a number sign with nothing but white space and line comments behind it? -/
def isLoneSign : List Char → Bool
  | '#' :: s => gapLength false s == s.length
  | _ => false

namespace Grammar

theorem gapLength_drop (comment : Bool) (s : List Char) :
    gapLength false (s.drop (gapLength comment s)) = 0 := by
  fun_induction gapLength comment s with
  | case1 => rfl
  | case2 s ih => simpa using ih
  | case3 _ s _ ih => simpa using ih
  | case4 c s _ ih => simpa using ih
  | case5 _ c s _ _ _ ih => simpa using ih
  | case6 _ c s hslash _ hspace =>
    rw [List.drop_zero, gapLength]
    · simp [hspace]
    · exact hslash

theorem gapLength_le (comment : Bool) (s : List Char) : gapLength comment s ≤ s.length := by
  fun_induction gapLength comment s <;> simp_all

/-- What is inside a block comment is tried as a block comment itself, and so on. -/
theorem blockComment_misses (k : Cursor) :
    ∃ l, grammar.Misses (.lex .blockComment, k) l ∧ k.offset ≤ l.offset := by
  induction hn : k.rest.length using Nat.strongRecOn generalizing k with
  | ind n ih =>
    cases hreply : grammar.reply (.lex .blockComment) k with
    | exhausted => exact absurd hreply (grammar_total.reply_ne_exhausted _ k)
    | refused =>
      have hyields := grammar_total.yields_reply (.lex .blockComment) k
      rw [hreply] at hyields
      exact ⟨k, Peg.Grammar.misses_iff.2 (.inr ⟨rfl, hyields⟩), Nat.le_refl _⟩
    | matched a k' =>
      rw [grammar_total.reply_eq] at hreply
      obtain ⟨x, hboth, -⟩ := Peg.Expression.answer_act.1 hreply
      obtain ⟨k₂, hleft, hclose⟩ := Peg.Expression.answer_both.1 hboth
      obtain ⟨y, hleft, -⟩ := Peg.Expression.answer_act.1 hleft
      obtain ⟨k₁, hopening, hinside⟩ := Peg.Expression.answer_both.1 hleft
      have hto : k.Reaches k₁ := Peg.Expression.answer_reaches grammar.reply_reaches hopening
      have hto' : k₁.Reaches k₂ := Peg.Expression.answer_reaches grammar.reply_reaches hinside
      have hless : k₂.rest ≠ [] := by
        intro hend
        have hwithin := (Text.startsWith_iff _ _).1 (Peg.Expression.answer_text.1 hclose).1
        rw [hend] at hwithin
        exact absurd hwithin (by decide)
      have hk₁ : k₁.atEnd = false := by
        have hle := hto'.length_le
        have hpos := List.length_pos_iff.2 hless
        exact List.isEmpty_eq_false_iff.2 (List.ne_nil_of_length_pos (by omega))
      have hshort : k₁.rest.length < k.rest.length :=
        Peg.Expression.answer_lt grammar_total.moves grammar.reply_reaches
          (fun _ _ _ _ => grammar_total.answer_lt) rfl hopening
      obtain ⟨l, hl, hle⟩ := ih _ (hn ▸ hshort) k₁ rfl
      refine ⟨l, Peg.Grammar.misses_iff.2 (.inl (.inl (.inr ?_))), Nat.le_trans hto.offset_le hle⟩
      exact ⟨_, k₁, grammar_total.yields_answer hopening (by simp), k₁, .refl k₁, hk₁, .inl hl⟩

/-- What trivia repeats. -/
def piece : P Unit := .token .gap <|> lex .blockComment

theorem scan_gap (s : List Char) :
    grammar.scan .gap s = if gapLength false s = 0 then none else some (gapLength false s) := rfl

theorem piece_stumbles {k : Cursor} {x : Option Cursor} (h : grammar.Stumbles piece k x) :
    x = if gapLength false k.rest = 0 then some k else none := by
  have htoken := h.inv.inv
  simp only [Peg.Grammar.StumblesBy, scan_gap] at htoken
  rw [htoken]
  by_cases hgap : gapLength false k.rest = 0 <;> simp [hgap]

/-- A gap is read as a whole. -/
theorem answer_piece {k : Cursor} (hgap : gapLength false k.rest ≠ 0) :
    piece.answer grammar.scan grammar.reply k =
      .matched () (k.advance (gapLength false k.rest)) :=
  Peg.Expression.answer_either.2
      (.inl (Peg.Expression.answer_token.2 ⟨_, by rw [scan_gap, if_neg hgap], rfl⟩))

/-- Where there is no gap, a block comment is tried. -/
theorem pieces_stumble {k : Cursor} {x : Option Cursor} (h : grammar.Stumbles (many piece) k x)
    (hgap : gapLength false k.rest = 0) (hk : k.atEnd = false) :
    x = some k ∧ ∃ m, grammar.MissesIn (many piece) k m ∧ k.offset ≤ m.offset := by
  constructor
  · rcases h.inv with ⟨hend, -⟩ | ⟨-, ⟨l, rfl, hs⟩ | ⟨hs, -⟩⟩
    · rw [hk] at hend
      cases hend
    · rw [piece_stumbles hs, if_pos hgap]
    · have hnone := piece_stumbles hs
      rw [if_pos hgap] at hnone
      cases hnone
  · obtain ⟨m, hm, hle⟩ := blockComment_misses k
    refine ⟨m, ⟨k, .refl k, hk, .inr ⟨.token_missed ?_, hm⟩⟩, hle⟩
    rw [scan_gap, if_pos hgap]

theorem rest_behind_gap {k : Cursor} :
    (k.advance (gapLength false k.rest)).atEnd = true ↔ gapLength false k.rest = k.rest.length := by
  have hle := gapLength_le false k.rest
  rw [Cursor.atEnd, Cursor.rest_advance, List.isEmpty_iff, List.drop_eq_nil_iff]
  omega

/-- Behind a gap the pieces go on where the gap ends. -/
theorem pieces_behind_gap {k : Cursor} {x : Option Cursor} (h : grammar.Stumbles (many piece) k x)
    (hk : k.atEnd = false) (hgap : gapLength false k.rest ≠ 0) :
    grammar.Stumbles (many piece) (k.advance (gapLength false k.rest)) x ∧
      ∀ m, grammar.MissesIn (many piece) (k.advance (gapLength false k.rest)) m →
        grammar.MissesIn (many piece) k m := by
  have hy := grammar_total.yields_answer (answer_piece hgap) (by simp)
  have hoffset : (k.advance (gapLength false k.rest)).offset ≠ k.offset := by
    rw [Cursor.offset_advance (gapLength_le false k.rest)]
    omega
  refine ⟨?_, fun m hm => (Peg.Grammar.missesIn_many_iff hk).2 (.inr ⟨(), _, hy, hoffset, hm⟩)⟩
  rcases h.inv with ⟨hend, -⟩ | ⟨-, ⟨l, rfl, hs⟩ | ⟨-, u, k', hy', hrest⟩⟩
  · rw [hk] at hend
    cases hend
  · have hsome := piece_stumbles hs
    rw [if_neg hgap] at hsome
    cases hsome
  · cases (grammar_total.answer_of_yields hy').symm.trans (answer_piece hgap)
    exact (hrest.resolve_left hoffset).2

theorem pieces_at_end {k : Cursor} {x : Option Cursor} (h : grammar.Stumbles (many piece) k x)
    (hk : k.atEnd = true) : x = none := by
  rcases h.inv with ⟨-, hx⟩ | ⟨hopen, -⟩
  · exact hx
  · rw [hk] at hopen
    cases hopen

/-- Trivia that is no gap up to the end of the text tries a block comment where the gap ends. -/
theorem trivia_stumbles {k : Cursor} {x : Option Cursor} (h : grammar.Stumbles trivia k x) :
    if gapLength false k.rest = k.rest.length then x = none
    else ∃ l m, x = some l ∧ grammar.Misses (.lex .trivia, k) m ∧ l.offset ≤ m.offset := by
  have hmany : grammar.Stumbles (many piece) k x := h.inv.inv
  have hmisses : ∀ {m}, grammar.MissesIn (many piece) k m → grammar.Misses (.lex .trivia, k) m :=
    fun hm => Peg.Grammar.misses_iff.2 (.inl hm)
  cases hk : k.atEnd with
  | true =>
    have hfull : gapLength false k.rest = k.rest.length := by
      rw [List.isEmpty_iff.1 hk]
      rfl
    rw [if_pos hfull]
    exact pieces_at_end hmany hk
  | false =>
    by_cases hgap : gapLength false k.rest = 0
    · have hlength : gapLength false k.rest ≠ k.rest.length := by
        rw [hgap]
        exact (List.length_pos_iff.2 (List.isEmpty_eq_false_iff.1 hk)).ne
      rw [if_neg hlength]
      obtain ⟨rfl, m, hm, hle⟩ := pieces_stumble hmany hgap hk
      exact ⟨k, m, rfl, hmisses hm, hle⟩
    · obtain ⟨hrest, hback⟩ := pieces_behind_gap hmany hk hgap
      have hgap' : gapLength false (k.advance (gapLength false k.rest)).rest = 0 := by
        rw [Cursor.rest_advance]
        exact gapLength_drop false k.rest
      split
      · rename_i hfull
        exact pieces_at_end hrest (rest_behind_gap.2 hfull)
      · rename_i hfull
        have hend : (k.advance (gapLength false k.rest)).atEnd = false :=
          Bool.eq_false_iff.2 fun hend => hfull (rest_behind_gap.1 hend)
        obtain ⟨rfl, m, hm, hle⟩ := pieces_stumble hrest hgap' hend
        exact ⟨_, m, rfl, hmisses (hback m hm), hle⟩

/-- A gap up to the end of the text is read as trivia. -/
theorem trivia_yields {k k' : Cursor} {u : Unit} (h : grammar.Yields trivia k (.matched u k'))
    (hfull : gapLength false k.rest = k.rest.length) : k'.atEnd = true := by
  have hreply := grammar_total.answer_of_yields h
  rw [trivia, lex, Peg.Expression.answer, grammar_total.reply_eq] at hreply
  obtain ⟨us, hmany, -⟩ := Peg.Expression.answer_act.1 hreply
  cases hend : k.atEnd with
  | true =>
    rw [many, Peg.Expression.answer, Reply.repeated_of_end hend] at hmany
    cases hmany
    exact hend
  | false =>
    have hgap : gapLength false k.rest ≠ 0 := by
      rw [hfull]
      exact (List.length_pos_iff.2 (List.isEmpty_eq_false_iff.1 hend)).ne'
    have hstop := rest_behind_gap.2 hfull
    have hround := (Peg.Grammar.Total.answer_many_eq piece hend).symm.trans hmany
    rw [answer_piece hgap, Reply.cases] at hround
    split at hround
    · cases hround
      exact hstop
    · obtain ⟨us', k₂, hrest, hk₂⟩ := Reply.bind_eq_matched.1 hround
      rw [Peg.Expression.answer, Reply.repeated_of_end hstop] at hrest
      cases hrest
      cases hk₂
      exact hstop

/-- The sign and the bracket that open an attribute. -/
def opening : P Unit := sym "#" *> sym "["

theorem text_stumbles {s : List Char} {k : Cursor} {x : Option Cursor}
    (h : grammar.Stumbles (.text s) k x) :
    x = if Text.startsWith s k.rest then none else some k := h.inv

/-- A sign is followed by trivia. -/
theorem sym_stumbles {s : String} {k : Cursor} {x : Option Cursor}
    (h : grammar.Stumbles (sym s) k x) :
    if Text.startsWith s.toList k.rest then grammar.Stumbles trivia (k.advance s.toList.length) x
    else x = some k := by
  rcases h.inv.inv with ⟨l, rfl, htext⟩ | ⟨htext, u, k₁, hy, hrest⟩
  · have hl := text_stumbles htext
    split
    · rename_i hstarts
      rw [if_pos hstarts] at hl
      cases hl
    · rename_i hstarts
      rw [if_neg hstarts] at hl
      exact hl
  · obtain ⟨hstarts, rfl⟩ := Peg.Expression.answer_text.1 (grammar_total.answer_of_yields hy)
    rw [if_pos hstarts]
    exact hrest

theorem sym_yields {s : String} {k k' : Cursor} {u : Unit}
    (h : grammar.Yields (sym s) k (.matched u k')) :
    grammar.Yields trivia (k.advance s.toList.length) (.matched () k') := by
  obtain ⟨x, hboth, -⟩ := Peg.Expression.answer_act.1 (grammar_total.answer_of_yields h)
  obtain ⟨k₁, htext, htrivia⟩ := Peg.Expression.answer_both.1 hboth
  obtain ⟨-, rfl⟩ := Peg.Expression.answer_text.1 htext
  exact grammar_total.yields_answer htrivia (by simp)

theorem reaches_of_yields {α : Type} {p : P α} {k k' : Cursor} {a : α}
    (h : grammar.Yields p k (.matched a k')) : k.Reaches k' :=
  Peg.Expression.answer_reaches grammar.reply_reaches (grammar_total.answer_of_yields h)

theorem offset_of_end {k k' : Cursor} (h : k.Reaches k') (hend : k'.atEnd = true) :
    k'.offset = k.offset + k.rest.length := by
  obtain ⟨n, hn, rfl⟩ := h
  have hdrop : k.rest.drop n = [] := by
    rw [← Cursor.rest_advance]
    exact List.isEmpty_iff.1 hend
  have hle := List.drop_eq_nil_iff.1 hdrop
  rw [Cursor.offset_advance hn]
  omega

theorem isLoneSign_iff {k : Cursor} : isLoneSign k.rest = true ↔
    Text.startsWith "#".toList k.rest = true ∧
      gapLength false (k.advance "#".toList.length).rest =
        (k.advance "#".toList.length).rest.length := by
  rw [Cursor.rest_advance, Text.startsWith_iff]
  generalize k.rest = s
  unfold isLoneSign
  split
  · rename_i t
    have hsign : "#".toList <+: '#' :: t := List.prefix_append ['#'] t
    rw [beq_iff_eq]
    exact ⟨fun hgap => ⟨hsign, hgap⟩, fun hgap => hgap.2⟩
  · rename_i hother
    constructor
    · intro h
      cases h
    · rintro ⟨⟨t, rfl⟩, -⟩
      exact absurd rfl (hother t)

/-- A sign that is all that is left is read without a refusal, and no other. -/
theorem sign_stumbles {k : Cursor} {x : Option Cursor} (h : grammar.Stumbles (sym "#") k x) :
    if isLoneSign k.rest then x = none
    else ∃ l, x = some l ∧
      (l = k ∨ ∃ m, grammar.MissesIn (sym "#") k m ∧ l.offset ≤ m.offset) := by
  have hs := sym_stumbles h
  by_cases hsign : Text.startsWith "#".toList k.rest = true
  · rw [if_pos hsign] at hs
    have hyields : grammar.Yields (bare "#") k (.matched () (k.advance "#".toList.length)) :=
      .text hsign
    have hpart := trivia_stumbles hs
    split at hpart
    · rename_i hgap
      rw [if_pos (isLoneSign_iff.2 ⟨hsign, hgap⟩)]
      exact hpart
    · rename_i hgap
      obtain ⟨l, m, rfl, hm, hle⟩ := hpart
      rw [if_neg fun hlone => hgap (isLoneSign_iff.1 hlone).2]
      exact ⟨l, rfl, .inr ⟨m, .inr ⟨_, _, hyields, hm⟩, hle⟩⟩
  · rw [if_neg hsign] at hs
    rw [if_neg fun hlone => hsign (isLoneSign_iff.1 hlone).1]
    exact ⟨k, hs, .inl rfl⟩

/-- The opening of an attribute is refused where its sign is, except that behind a lone sign the
bracket is missing at the end of the text. -/
theorem opening_stumbles {k : Cursor} {x : Option Cursor} (h : grammar.Stumbles opening k x) :
    ∃ l, x = some l ∧
      if isLoneSign k.rest then l.offset = k.offset + k.rest.length
      else l = k ∨ ∃ m, grammar.MissesIn opening k m ∧ l.offset ≤ m.offset := by
  rcases h.inv.inv with ⟨l, rfl, hs⟩ | ⟨hs, u, k', hy, hs'⟩
  · refine ⟨l, rfl, ?_⟩
    have hsign := sign_stumbles hs
    split at hsign
    · cases hsign
    · rename_i hlone
      obtain ⟨l, hl, hsign⟩ := hsign
      cases hl
      rw [if_neg hlone]
      rcases hsign with rfl | ⟨m, hm, hle⟩
      · exact .inl rfl
      · exact .inr ⟨m, .inl hm, hle⟩
  · have hsign := sign_stumbles hs
    split at hsign
    · rename_i hlone
      have hend : k'.atEnd = true := trivia_yields (sym_yields hy) (isLoneSign_iff.1 hlone).2
      have hbracket := sym_stumbles hs'
      rw [List.isEmpty_iff.1 hend] at hbracket
      refine ⟨k', hbracket, ?_⟩
      rw [if_pos hlone]
      exact offset_of_end (reaches_of_yields hy) hend
    · obtain ⟨l, hl, -⟩ := hsign
      cases hl

theorem not_stumbles_opening (k : Cursor) : ¬grammar.Stumbles opening k none := by
  intro h
  obtain ⟨l, hl, -⟩ := opening_stumbles h
  cases hl

theorem not_stumbles_seqRight {α β : Type} {p : P α} {q : P β} {k : Cursor}
    (h : ¬grammar.Stumbles p k none) : ¬grammar.Stumbles (p *> q) k none :=
  fun hs => h (hs.inv.left h)

/-- An attribute tries its opening first. -/
theorem outerAttr_stumbles {k : Cursor} {x : Option Cursor}
    (h : grammar.Stumbles (lex .outerAttr) k x) : grammar.Stumbles opening k x := by
  have hinside : ¬grammar.Stumbles (opening *> void (many (lex .tree))) k none :=
    not_stumbles_seqRight (not_stumbles_opening k)
  have hclosing : ¬grammar.Stumbles (opening *> void (many (lex .tree)) *> bare "]") k none :=
    not_stumbles_seqRight hinside
  have hattr : grammar.Stumbles (opening *> void (many (lex .tree)) *> bare "]") k x :=
    (h.inv.inv.inv.left fun hs => hclosing hs.inv).inv
  exact (hattr.inv.left hinside).inv.left (not_stumbles_opening k)

/-- An item that is refused tries an attribute first. -/
theorem item_stumbles {k : Cursor} {x : Option Cursor} (h : grammar.Stumbles (itm .item) k x)
    (hk : k.atEnd = false) (hrefused : grammar.reply (.item .item) k = .refused) :
    ∃ l, x = some l ∧
      if isLoneSign k.rest then l.offset = k.offset + k.rest.length
      else ∃ m, grammar.Misses (.item .item, k) m ∧ l.offset ≤ m.offset := by
  have hnone : ¬grammar.Stumbles (lex .outerAttr) k none :=
    fun hs => not_stumbles_opening k (outerAttr_stumbles hs)
  have hattrs : grammar.Stumbles attrs k x := h.inv.inv.left fun hs => hnone (hs.first hk hnone)
  obtain ⟨l, rfl, hl⟩ := opening_stumbles (outerAttr_stumbles (hattrs.first hk hnone))
  refine ⟨l, rfl, ?_⟩
  split
  · rename_i hlone
    rwa [if_pos hlone] at hl
  · rename_i hlone
    rw [if_neg hlone] at hl
    rcases hl with rfl | ⟨m, hm, hle⟩
    · have hyields := grammar_total.yields_reply (.item .item) l
      rw [hrefused] at hyields
      exact ⟨l, Peg.Grammar.misses_iff.2 (.inr ⟨rfl, hyields⟩), Nat.le_refl _⟩
    · have hmisses : grammar.Misses (.lex .outerAttr, k) m :=
        Peg.Grammar.misses_iff.2 (.inl (.inl (.inl (.inl hm))))
      exact ⟨m, Peg.Grammar.misses_iff.2 (.inl (.inl ⟨k, .refl k, hk, hmisses⟩)), hle⟩

end Grammar

/-- The rule for files stops at the end of the text or before an item that is refused. -/
theorem item_refused {k k' : Cursor} {x : List Attribute × List Item}
    (h : grammar.reply (.item .file) k = .matched x k') (hk' : k'.atEnd = false) :
    grammar.reply (.item .item) k' = .refused := by
  rw [grammar_total.reply_eq] at h
  obtain ⟨y, hboth, -⟩ := Peg.Expression.answer_act.1 h
  obtain ⟨k₁, -, hfile⟩ := Peg.Expression.answer_both.1 hboth
  obtain ⟨k₂, -, hitems⟩ := Peg.Expression.answer_both.1 hfile
  exact grammar_total.refused_behind_many rfl hitems hk'

/-- How a text comes to be at fault. -/
theorem parse_eq_error {text : List Char} {filename : String} {f : Fault}
    (h : parse text filename = .error f) :
    ∃ x, grammar.reply (.item .file) (.start text) = .matched x f.item ∧ f.item.atEnd = false ∧
      f = ⟨text, filename, f.item,
        f.item.advance (((grammar.apply (.item .item) f.item).2).getD f.item.offset
          - f.item.offset)⟩ := by
  unfold parse at h
  dsimp only at h
  rw [grammar_total.apply_eq] at h
  cases hreply : grammar.reply (.item .file) (.start text) with
  | refused => exact absurd hreply (reply_file_ne_refused _)
  | exhausted => exact absurd hreply (grammar_total.reply_ne_exhausted _ _)
  | matched x k =>
    rw [hreply] at h
    dsimp only at h
    split at h
    · cases h
    · rename_i hend
      cases h
      exact ⟨x, rfl, Bool.eq_false_iff.2 hend, rfl⟩

/-- The record of an item that is refused. -/
theorem record_of_refused {k : Cursor} (hk : k.atEnd = false)
    (hrefused : grammar.reply (.item .item) k = .refused) :
    ∃ q, (grammar.apply (.item .item) k).2 = some q ∧
      (∀ l, grammar.Misses (.item .item, k) l → l.offset ≤ q) ∧
      k.offset ≤ q ∧ q ≤ k.offset + k.rest.length ∧
      if isLoneSign k.rest then q = k.offset + k.rest.length
      else ∃ l, grammar.Misses (.item .item, k) l ∧ l.offset = q := by
  have hmarks := grammar_total.apply_marks (.item .item) k
  have hbound : ∀ {l : Cursor}, k.Reaches l → l.offset ≤ k.offset + k.rest.length := by
    rintro l ⟨n, hn, rfl⟩
    rw [Cursor.offset_advance hn]
    omega
  have hmiss : grammar.Misses (.item .item, k) k := by
    have hyields := grammar_total.yields_reply (.item .item) k
    rw [hrefused] at hyields
    exact Peg.Grammar.misses_iff.2 (.inr ⟨rfl, hyields⟩)
  obtain ⟨q, hq, hkq⟩ := hmarks.all k hmiss
  have hall : ∀ l, grammar.Misses (.item .item, k) l → l.offset ≤ q := by
    intro l hl
    obtain ⟨m, hm, hle⟩ := hmarks.all l hl
    cases hq.symm.trans hm
    exact hle
  rcases hmarks.first rfl with ⟨hnone, -⟩ | ⟨l, hs, m, hm, hlm, hstands⟩
  · rw [hq] at hnone
    cases hnone
  cases hq.symm.trans hm
  have hl := hbound (grammar_total.reaches_of_stumbles hs)
  have hqend : q ≤ k.offset + k.rest.length := by
    rcases hstands with rfl | ⟨l', hl', rfl⟩
    · exact hl
    · exact hbound (grammar_total.reaches_of_misses hl')
  refine ⟨q, hq, hall, hkq, hqend, ?_⟩
  obtain ⟨l₁, hl₁, hfirst⟩ := Grammar.item_stumbles hs hk hrefused
  cases hl₁
  split
  · rename_i hlone
    rw [if_pos hlone] at hfirst
    omega
  · rename_i hlone
    rw [if_neg hlone] at hfirst
    rcases hstands with rfl | hstands
    · obtain ⟨m, hm, hle⟩ := hfirst
      exact ⟨m, hm, Nat.le_antisymm (hall m hm) hle⟩
    · exact hstands

/-- The item of a fault starts before the end of the text, and the fault is placed in it. -/
theorem fault_at {text : List Char} {filename : String} {f : Fault}
    (h : parse text filename = .error f) :
    At text f.item ∧ At text f.place ∧ f.item.offset < text.length ∧
      (grammar.apply (.item .item) f.item).2 = some f.place.offset := by
  obtain ⟨x, hfile, hend, heq⟩ := parse_eq_error h
  have hitem : At text f.item := (At.start text).of_reaches (grammar.reply_reaches _ _ _ _ hfile)
  have hlength : f.item.rest.length = text.length - f.item.offset := by
    rw [hitem.rest, List.length_drop]
  have hpos := List.length_pos_iff.2 (List.isEmpty_eq_false_iff.1 hend)
  obtain ⟨q, hq, -, hle, hbound, -⟩ := record_of_refused hend (item_refused hfile hend)
  have hplace : f.place = f.item.advance (q - f.item.offset) := by
    rw [heq, hq, Option.getD_some]
  refine ⟨hitem, hplace ▸ hitem.advance _, by omega, ?_⟩
  rw [hplace, Cursor.offset_advance (by omega), hq, Nat.add_sub_cancel' hle]

/-- The place of a fault in terms of the grammar. -/
structure Fault.Placed (text : List Char) (f : Fault) : Prop where
  /-- The rule for files reads the text up to the item. -/
  stops : ∃ x, grammar.Yields (.rule (.item .file)) (.start text) (.matched x f.item)
  item_lt : f.item.offset < text.length
  refused : grammar.Yields (.rule (.item .item)) f.item .refused
  item_le : f.item.offset ≤ f.place.offset
  le_end : f.place.offset ≤ text.length
  /-- No rule is refused farther on when the item is tried again. -/
  farthest : ∀ l, grammar.Misses (.item .item, f.item) l → l.offset ≤ f.place.offset
  reached : if isLoneSign (text.drop f.item.offset) then f.place.offset = text.length
    else ∃ l, grammar.Misses (.item .item, f.item) l ∧ l.offset = f.place.offset

/-- What is told about a fault, in terms of the text. -/
structure Fault.Told (text : List Char) (filename : String) (f : Fault) : Prop where
  code : f.diagnostic.code = .incompleteParse
  location : f.diagnostic.location =
    ⟨filename, lineAt text f.place.offset, columnAt text f.place.offset⟩
  hint : f.diagnostic.hint = "the item starting on line "
    ++ Number.natText (lineAt text f.item.offset) ++ " could not be parsed"
  line_le : lineAt text f.item.offset ≤ lineAt text f.place.offset
  message : ∃ s, f.diagnostic.message = "unexpected input " ++ Text.quoted s ∧
    s <+: text.drop f.place.offset ∧ s.length ≤ 40 ∧ '\n' ∉ s ∧
    ∀ t, t <+: text.drop f.place.offset → t.length ≤ 40 → '\n' ∉ t → t <+: s

/-- The snippet is as much of the text as fits into forty characters of one line. -/
theorem snippet_spec (f : Fault) : f.snippet <+: f.place.rest ∧ f.snippet.length ≤ 40 ∧
    '\n' ∉ f.snippet ∧
    ∀ t, t <+: f.place.rest → t.length ≤ 40 → '\n' ∉ t → t <+: f.snippet := by
  have hwithin : f.snippet <+: f.place.rest.take 40 := List.takeWhile_prefix _
  refine ⟨hwithin.trans (List.take_prefix _ _), ?_, fun hmem => ?_, fun t ht hlength hline => ?_⟩
  · exact hwithin.length_le.trans (List.length_take_le _ _)
  · exact absurd (List.mem_takeWhile_imp hmem) (by decide)
  · obtain ⟨v, hv⟩ := List.prefix_take_iff.2 ⟨ht, hlength⟩
    have hpart : ∀ c ∈ t, (c != '\n') = true :=
      fun c hc => bne_iff_ne.2 fun heq => hline (heq ▸ hc)
    rw [Fault.snippet, ← hv, List.takeWhile_append_of_pos hpart]
    exact List.prefix_append _ _

/-- A text is at fault in the item before which the rule for files stops. The fault is placed where
a rule is refused farthest on in that item, or at the end of the text if the item is a lone `#`; its
line and column are counted there, and what stands there is quoted. -/
theorem parse_fault {text : List Char} {filename : String} {f : Fault}
    (h : parse text filename = .error f) : f.Placed text ∧ f.Told text filename := by
  obtain ⟨x, hfile, hend, heq⟩ := parse_eq_error h
  obtain ⟨hitem, hplace, hlt, hrecord⟩ := fault_at h
  have hrefused := item_refused hfile hend
  obtain ⟨q, hq, hall, hle, -, hreached⟩ := record_of_refused hend hrefused
  cases hrecord.symm.trans hq
  have hlength : f.item.offset + f.item.rest.length = text.length := by
    rw [hitem.rest, List.length_drop]
    omega
  rw [hlength, hitem.rest] at hreached
  constructor
  · have hfile' := grammar_total.yields_reply (.item .file) (.start text)
    have hitem' := grammar_total.yields_reply (.item .item) f.item
    rw [hfile] at hfile'
    rw [hrefused] at hitem'
    exact ⟨⟨x, hfile'⟩, hlt, hitem', hle, hplace.offset, hall, hreached⟩
  · have hname : f.filename = filename := by rw [heq]
    have hsnippet := snippet_spec f
    rw [hplace.rest] at hsnippet
    refine ⟨rfl, ?_, ?_, lineAt_mono text hle, f.snippet, rfl, hsnippet⟩
    · rw [← hplace.line, ← hplace.column, ← hname]
      rfl
    · rw [← hitem.line]
      rfl

/-- Where the item and the fault of a text are, if it has one. -/
def faultOffsets? (text : String) : Option (Nat × Nat) :=
  match parse text.toList "" with
  | .ok _ => none
  | .error f => some (f.item.offset, f.place.offset)

theorem exists_of_faultOffsets? (text : String) {p q : Nat}
    (h : faultOffsets? text = some (p, q)) :
    ∃ f, parse text.toList "" = .error f ∧ f.item.offset = p ∧ f.place.offset = q := by
  unfold faultOffsets? at h
  split at h
  · cases h
  · rename_i f hf
    cases h
    exact ⟨f, hf, rfl, rfl⟩

/-- The second item is at fault behind its opening parenthesis. -/
theorem parse_fault_params : ∃ f, parse "fn a() \x7b\x7d\nfn b( \x7b\x7d\n".toList "" = .error f ∧
    f.item.offset = 10 ∧ f.place.offset = 16 ∧
    f.Placed "fn a() \x7b\x7d\nfn b( \x7b\x7d\n".toList ∧
    f.Told "fn a() \x7b\x7d\nfn b( \x7b\x7d\n".toList "" := by
  obtain ⟨f, hf, hitem, hplace⟩ := exists_of_faultOffsets?
    "fn a() \x7b\x7d\nfn b( \x7b\x7d\n" (p := 10) (q := 16) (by decide +kernel)
  exact ⟨f, hf, hitem, hplace, parse_fault hf⟩

/-- A lone `#` is at fault behind it, though no rule is refused there. -/
theorem loneSign_place : ∃ f, parse "#".toList "" = .error f ∧ f.place.offset = 1 ∧
    ∀ l, grammar.Misses (.item .item, f.item) l → l.offset < f.place.offset := by
  obtain ⟨f, hf, hitem, hplace⟩ := exists_of_faultOffsets? "#" (p := 0) (q := 1)
    (by decide +kernel)
  refine ⟨f, hf, hplace, fun l hl => ?_⟩
  obtain ⟨x, hfile, -⟩ := parse_eq_error hf
  have hstart : f.item = .start "#".toList :=
    (grammar.reply_reaches _ _ _ _ hfile).eq_of_offset (.refl _) hitem
  rw [hstart] at hl
  -- A run that starts with a record of its own leaves out the first refusal.
  have hmarks := grammar_total.recordFrom_marks (.item .item) (.start "#".toList) (some 0)
  have hrecord : grammar.recordFrom (.item .item) (.start "#".toList) (some 0) = some 0 := by
    decide +kernel
  obtain ⟨m, hm, hle⟩ := hmarks.all l hl
  cases hrecord.symm.trans hm
  omega

end InkGauge.Contract
