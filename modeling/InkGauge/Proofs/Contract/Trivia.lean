import InkGauge.Proofs.Contract.Comment
import InkGauge.Proofs.Contract.Fault

/-!
The grammar reads a block comment by a rule that calls itself for the comments inside; the text of a
token is freed of comments by a scan that counts how many are open. Both agree on where a comment
ends: what the rule reads is a `CommentTail` behind the opening mark, and the scan comes back to its
depth behind each of these.

Trivia is a mix of white space, line comments and block comments. Each of these is blanks once the
comments are blanked out, so nothing of it is left behind a token.
-/

namespace InkGauge.Contract

open Grammar (P gapLength_le lex scan_gap)
open Peg (Cursor Reply)
open Text
open Token (commentTextLength gapLength)

/-- Behind a comment the scan is one level up. -/
theorem CommentTail.skip {u : List Char} (h : CommentTail u) {depth : Int} (hdepth : 0 ≤ depth)
    (t : List Char) :
    skipBlockComment (depth + 1) (u ++ t) = if depth = 0 then t else skipBlockComment depth t := by
  induction h generalizing depth t with
  | close =>
    have hlast : depth + 1 = 1 ↔ depth = 0 := by omega
    simp [skipBlockComment, hlast]
  | @nested u s inner rest ihinner ihrest =>
    have hinner := ihinner (show 0 ≤ depth + 1 by omega) (s ++ t)
    rw [if_neg (by omega)] at hinner
    rw [List.cons_append, List.cons_append, skipBlockComment, List.append_assoc, hinner,
      ihrest hdepth]
  | @char c s opens closes rest ih =>
    have hopens := not_prefix_append (t := t) rest.ne_nil opens
    have hcloses := not_prefix_append (t := t) rest.ne_nil closes
    rw [List.cons_append, skipBlockComment, ih hdepth]
    · rintro v rfl hv
      exact hopens ⟨v, by rw [hv]; rfl⟩
    · rintro v rfl hv
      exact hcloses ⟨v, by rw [hv]; rfl⟩

theorem IsBlockComment.skip {s : List Char} (h : IsBlockComment s) (t : List Char) :
    skipBlockComment 0 (s ++ t) = t := by
  obtain ⟨u, rfl, hu⟩ := h
  rw [List.cons_append, List.cons_append, skipBlockComment, hu.skip (Int.le_refl 0), if_pos rfl]

/-- Plain text in front of the rest of a comment. -/
theorem exists_commentTail_of_text {s u t : List Char} (hu : CommentTail u)
    (h : s.drop (commentTextLength s) = u ++ t) : ∃ v, CommentTail v ∧ s = v ++ t := by
  fun_induction commentTextLength s with
  | case1 => exact ⟨u, hu, h⟩
  | case2 s => exact ⟨u, hu, h⟩
  | case3 s => exact ⟨u, hu, h⟩
  | case4 c s hopens hcloses ih =>
    obtain ⟨v, hv, rfl⟩ := ih (by simpa using h)
    refine ⟨c :: v, .char ?_ ?_ hv, rfl⟩
    · rintro ⟨w, hw⟩
      cases hw
      exact hopens (w ++ t) rfl rfl
    · rintro ⟨w, hw⟩
      cases hw
      exact hcloses (w ++ t) rfl rfl

theorem eq_of_some? {n m : Nat} (h : Token.some? n = some m) : m = n := by
  rw [Token.some?] at h
  split at h
  · cases h
  · exact (Option.some.inj h).symm

theorem rest_of_answer_text {s : List Char} {k k' : Cursor} {a : Unit}
    (h : (Peg.Expression.text s : P Unit).answer grammar.scan grammar.reply k = .matched a k') :
    k.rest = s ++ k'.rest := by
  obtain ⟨hstart, rfl⟩ := Peg.Expression.answer_text.1 h
  obtain ⟨t, ht⟩ := (startsWith_iff s k.rest).1 hstart
  rw [← ht, Peg.Grammar.rest_advance_of_append ht.symm]

/-- Parts of a comment and the closing mark are the rest of a comment, if the rule for comments
reads comments on texts shorter than `n`. -/
theorem exists_commentTail_of_parts {n : Nat}
    (hinner : ∀ k : Cursor, k.rest.length < n → ∀ a k',
      grammar.reply (.lex .blockComment) k = .matched a k' →
        ∃ s, IsBlockComment s ∧ k.rest = s ++ k'.rest)
    {k k' : Cursor} {us : List Unit} {t : List Char} (hk : k.rest.length < n)
    (h : Reply.Repeats (commentPart.answer grammar.scan grammar.reply) k us k')
    (hclose : k'.rest = '*' :: '/' :: t) : ∃ u, CommentTail u ∧ k.rest = u ++ t := by
  induction h with
  | stop k => exact ⟨['*', '/'], .close, hclose⟩
  | @step k k₁ k₂ a us head tail ih =>
    have hreaches : k.Reaches k₁ := Peg.Expression.answer_reaches grammar.reply_reaches head
    have hle := hreaches.length_le
    obtain ⟨u, hu, hrest⟩ := ih (by omega) hclose
    rcases Peg.Expression.answer_either.1 head with hcomment | ⟨-, htext⟩
    · obtain ⟨s, ⟨v, rfl, hv⟩, hs⟩ := hinner k hk a k₁ hcomment
      refine ⟨'/' :: '*' :: (v ++ u), .nested hv hu, ?_⟩
      rw [hs, hrest]
      simp
    · obtain ⟨m, hm, rfl⟩ := Peg.Expression.answer_token.1 htext
      obtain rfl := eq_of_some? hm
      rw [Cursor.rest_advance] at hrest
      exact exists_commentTail_of_text hu hrest

/-- What the rule for block comments reads is a block comment. -/
theorem isBlockComment_of_reply {k k' : Cursor} {a : Unit}
    (h : grammar.reply (.lex .blockComment) k = .matched a k') :
    ∃ s, IsBlockComment s ∧ k.rest = s ++ k'.rest := by
  -- The comments inside start behind the opening mark, on a shorter text.
  induction hn : k.rest.length using Nat.strongRecOn generalizing k k' a with
  | ind n ih =>
    rw [grammar_total.reply_eq] at h
    obtain ⟨x, hboth, -⟩ := Peg.Expression.answer_act.1 h
    obtain ⟨k₂, hleft, hclose⟩ := Peg.Expression.answer_both.1 hboth
    obtain ⟨y, hleft, -⟩ := Peg.Expression.answer_act.1 hleft
    obtain ⟨k₁, hopen, hinside⟩ := Peg.Expression.answer_both.1 hleft
    obtain ⟨us, hmany, -⟩ := Peg.Expression.answer_act.1 hinside
    have hopened : k.rest = '/' :: '*' :: k₁.rest := rest_of_answer_text hopen
    have hclosed : k₂.rest = '*' :: '/' :: k'.rest := rest_of_answer_text hclose
    have hshort : k₁.rest.length < n := by
      rw [← hn, hopened, List.length_cons, List.length_cons]
      omega
    obtain ⟨u, hu, hrest⟩ := exists_commentTail_of_parts
      (fun l hl a l' hreply => ih _ hl hreply rfl) hshort (Peg.Expression.answer_many hmany) hclosed
    refine ⟨'/' :: '*' :: u, ⟨u, rfl, hu⟩, ?_⟩
    rw [hopened, hrest]
    rfl

/-- A mix of white space, line comments and block comments. -/
inductive IsTrivia : List Char → Prop where
  | nil : IsTrivia []
  | space {c : Char} {s : List Char} (hc : isSpace c = true) (rest : IsTrivia s) : IsTrivia (c :: s)
  | line {u s : List Char} (hu : '\n' ∉ u) (rest : IsTrivia s) :
      IsTrivia ('/' :: '/' :: (u ++ '\n' :: s))
  | lastLine {u : List Char} (hu : '\n' ∉ u) : IsTrivia ('/' :: '/' :: u)
  | block {u s : List Char} (hu : IsBlockComment u) (rest : IsTrivia s) : IsTrivia (u ++ s)

theorem isTrivia_space_iff {c : Char} (hc : isSpace c = true) {s : List Char} :
    IsTrivia (c :: s) ↔ IsTrivia s := by
  refine ⟨fun h => ?_, .space hc⟩
  generalize hw : c :: s = w at h
  cases h with
  | nil => cases hw
  | space _ rest =>
    cases hw
    exact rest
  | line | lastLine =>
    cases hw
    exact absurd hc (by decide)
  | block hu _ =>
    obtain ⟨v, rfl, -⟩ := hu
    cases hw
    exact absurd hc (by decide)

/-- Behind the mark of a line comment stands one line. -/
theorem isTrivia_line_iff {s : List Char} : IsTrivia ('/' :: '/' :: s) ↔
    '\n' ∉ s ∨ ∃ u t, s = u ++ '\n' :: t ∧ '\n' ∉ u ∧ IsTrivia t := by
  constructor
  · intro h
    generalize hw : '/' :: '/' :: s = w at h
    cases h with
    | nil => cases hw
    | space hc _ =>
      cases hw
      exact absurd hc (by decide)
    | @line u t hu rest =>
      cases hw
      exact .inr ⟨u, t, rfl, hu, rest⟩
    | lastLine hu =>
      cases hw
      exact .inl hu
    | block hu _ =>
      obtain ⟨v, rfl, -⟩ := hu
      cases hw
  · rintro (hs | ⟨u, t, rfl, hu, rest⟩)
    · exact .lastLine hs
    · exact .line hu rest

theorem isTrivia_line_cons {c : Char} (hc : c ≠ '\n') {s : List Char} :
    IsTrivia ('/' :: '/' :: c :: s) ↔ IsTrivia ('/' :: '/' :: s) := by
  rw [isTrivia_line_iff, isTrivia_line_iff, List.mem_cons, not_or]
  refine or_congr (and_iff_right (Ne.symm hc)) ?_
  constructor
  · rintro ⟨u, t, hs, hu, ht⟩
    cases u with
    | nil =>
      cases hs
      exact absurd rfl hc
    | cons d u =>
      cases hs
      exact ⟨u, t, rfl, fun h => hu (List.mem_cons_of_mem _ h), ht⟩
  · rintro ⟨u, t, rfl, hu, ht⟩
    exact ⟨c :: u, t, rfl, by simp [hu, Ne.symm hc], ht⟩

theorem isTrivia_line_end {s : List Char} : IsTrivia ('/' :: '/' :: '\n' :: s) ↔ IsTrivia s := by
  refine ⟨fun h => ?_, fun h => .line List.not_mem_nil h⟩
  rcases isTrivia_line_iff.1 h with hs | ⟨u, t, hs, hu, ht⟩
  · exact absurd List.mem_cons_self hs
  · cases u with
    | nil =>
      cases hs
      exact ht
    | cons d u =>
      cases hs
      exact absurd List.mem_cons_self hu

/-- White space and line comments in front are part of the trivia. -/
theorem isTrivia_gap_iff (comment : Bool) (s : List Char) :
    IsTrivia (if comment then '/' :: '/' :: s else s) ↔
      IsTrivia (s.drop (gapLength comment s)) := by
  fun_induction gapLength comment s with
  | case1 comment =>
    cases comment with
    | false => exact Iff.rfl
    | true => exact iff_of_true (.lastLine List.not_mem_nil) .nil
  | case2 s ih => exact (isTrivia_line_cons (by decide)).trans ih
  | case3 comment s hcomment ih =>
    rw [if_neg hcomment]
    exact ih
  | case4 c s _ ih =>
    by_cases hc : c = '\n'
    · subst hc
      exact isTrivia_line_end.trans ih
    · have hnext : (c != '\n') = true := by simpa using hc
      rw [hnext] at ih ⊢
      exact (isTrivia_line_cons hc).trans ih
  | case5 comment c s _ hcomment hspace ih =>
    rw [if_neg hcomment]
    exact (isTrivia_space_iff hspace).trans ih
  | case6 comment c s _ hcomment _ =>
    rw [if_neg hcomment]
    exact Iff.rfl

theorem isTrivia_of_pieces {k k' : Cursor} {us : List Unit}
    (h : Reply.Repeats (triviaPart.answer grammar.scan grammar.reply) k us k')
    (hk' : IsTrivia k'.rest) : IsTrivia k.rest := by
  induction h with
  | stop k => exact hk'
  | @step k k₁ k₂ a us head tail ih =>
    have hrest := ih hk'
    rcases Peg.Expression.answer_either.1 head with hgap | ⟨-, hcomment⟩
    · obtain ⟨m, hm, rfl⟩ := Peg.Expression.answer_token.1 hgap
      obtain rfl := eq_of_some? hm
      rw [Cursor.rest_advance] at hrest
      exact (isTrivia_gap_iff false k.rest).2 hrest
    · obtain ⟨s, hs, hread⟩ := isBlockComment_of_reply hcomment
      rw [hread]
      exact .block hs hrest

theorem isTrivia_of_reply {k k' : Cursor} {a : Unit}
    (h : grammar.reply (.lex .trivia) k = .matched a k') (hk' : k'.rest = []) :
    IsTrivia k.rest := by
  rw [grammar_total.reply_eq] at h
  obtain ⟨us, hmany, -⟩ := Peg.Expression.answer_act.1 h
  exact isTrivia_of_pieces (Peg.Expression.answer_many hmany) (hk' ▸ .nil)

namespace IsTrivia

variable {w : List Char}

/-- Trivia without a gap in front is a block comment and more trivia. -/
theorem exists_block (h : IsTrivia w) (hw : w ≠ []) (hgap : gapLength false w = 0) :
    ∃ u s, w = u ++ s ∧ IsBlockComment u ∧ IsTrivia s := by
  cases h with
  | nil => exact absurd rfl hw
  | @space c s hc rest =>
    rw [gapLength] at hgap
    · simp [hc] at hgap
    · rintro t rfl
      exact absurd hc (by decide)
  | line | lastLine => simp [gapLength] at hgap
  | block hu rest => exact ⟨_, _, rfl, hu, rest⟩

/-- Trivia is read up to the end of the text. -/
theorem readsMany (h : IsTrivia w) : grammar.ReadsMany triviaPart w [] fun _ => True := by
  induction hn : w.length using Nat.strongRecOn generalizing w with
  | ind n ih =>
    by_cases hw : w = []
    · subst hw
      exact (Peg.Grammar.ReadsMany.stop (.inr rfl)).imp fun _ _ => trivial
    by_cases hgap : gapLength false w = 0
    · obtain ⟨u, s, rfl, hu, hs⟩ := h.exists_block hw hgap
      have hne : u ≠ [] := by
        obtain ⟨v, rfl, -⟩ := hu
        simp
      have hpos := List.length_pos_iff.2 hne
      rw [List.length_append] at hn
      have hrest := ih s.length (by omega) hs rfl
      exact (Peg.Grammar.ReadsMany.step (hu.reads_part _) hne hrest).imp fun _ _ => trivial
    · have hs : IsTrivia (w.drop (gapLength false w)) := (isTrivia_gap_iff false w).1 h
      have hpos := List.length_pos_iff.2 hw
      have hrest := ih _ (by rw [List.length_drop]; omega) hs rfl
      have hpart : grammar.Reads triviaPart (w.take (gapLength false w))
          (w.drop (gapLength false w) ++ []) fun _ => True := by
        refine .orElse (Peg.Grammar.reads_token ?_)
        rw [List.append_nil, List.take_append_drop, List.length_take,
          Nat.min_eq_left (gapLength_le false w), scan_gap, if_neg hgap]
      have hne : w.take (gapLength false w) ≠ [] := by simp [hw, hgap]
      have hall : grammar.ReadsMany triviaPart
          (w.take (gapLength false w) ++ w.drop (gapLength false w)) [] fun _ => True :=
        (Peg.Grammar.ReadsMany.step hpart hne hrest).imp fun _ _ => trivial
      rwa [List.take_append_drop] at hall

theorem reads (h : IsTrivia w) : grammar.Reads (lex .trivia) w [] fun _ => True :=
  reads_lex (.act (h.readsMany.many.imp fun _ _ _ _ => trivial))

end IsTrivia

theorem blankComments_of_isSpace {c : Char} (h : isSpace c = true) (s : List Char) :
    blankComments .code (c :: s) = c :: blankComments .code s := by
  rw [blankComments]
  · rintro t rfl
    exact absurd h (by decide)
  · rintro t rfl
    exact absurd h (by decide)

theorem blankComments_line {u : List Char} (hu : '\n' ∉ u) (s : List Char) :
    blankComments .line (u ++ s) = blankComments .line s := by
  induction u with
  | nil => rfl
  | cons c u ih =>
    rw [List.mem_cons, not_or] at hu
    rw [List.cons_append, blankComments, if_neg (Ne.symm hu.1), ih hu.2]

/-- A block comment leaves one space behind. -/
theorem IsBlockComment.blankComments_eq {s : List Char} (h : IsBlockComment s) (t : List Char) :
    blankComments .code (s ++ t) = ' ' :: blankComments .code t := by
  obtain ⟨u, rfl, hu⟩ := h
  have hskip : skipBlockComment 1 (u ++ t) = t := hu.skip (Int.le_refl 0) t
  rw [List.cons_append, List.cons_append, blankComments, blankComments_block, hskip]

/-- Nothing but blanks is left of trivia. -/
theorem IsTrivia.isBlank {w : List Char} (h : IsTrivia w) :
    ∀ c ∈ blankComments .code w, isBlank c = true := by
  have hspace : Text.isBlank ' ' = true := by decide
  induction h with
  | nil => simp [blankComments]
  | space hc rest ih =>
    rw [blankComments_of_isSpace hc]
    exact List.forall_mem_cons.2 ⟨isBlank_of_isSpace hc, ih⟩
  | @line u s hu rest ih =>
    rw [blankComments, blankComments_line hu, blankComments, if_pos rfl]
    exact List.forall_mem_cons.2 ⟨hspace, List.forall_mem_cons.2 ⟨by decide, ih⟩⟩
  | @lastLine u hu =>
    have hall := blankComments_line hu []
    rw [List.append_nil] at hall
    rw [blankComments, hall]
    simpa [blankComments] using hspace
  | block hu rest ih =>
    rw [hu.blankComments_eq]
    exact List.forall_mem_cons.2 ⟨hspace, ih⟩

/-- The offset behind what a rule reads in a text from an offset on. -/
def matchEnd? (r : Grammar.Rule) (text : List Char) (offset : Nat) : Option Nat :=
  match (grammar.apply r ((Cursor.start text).advance offset)).1 with
  | .matched _ k => some k.offset
  | _ => none

theorem exists_reply_of_matchEnd? {r : Grammar.Rule} {text : List Char} {i j : Nat}
    (h : matchEnd? r text i = some j) :
    ∃ a k, grammar.reply r ((Cursor.start text).advance i) = .matched a k ∧
      j ≤ text.length ∧ k.rest = text.drop j := by
  rw [matchEnd?, grammar_total.apply_eq] at h
  split at h
  · rename_i a k hreply
    cases h
    have hreaches : (Cursor.start text).Reaches k :=
      ((Cursor.Reaches.refl _).advance i).trans (grammar.reply_reaches _ _ _ _ hreply)
    obtain ⟨n, hn, rfl⟩ := hreaches
    have hoffset : ((Cursor.start text).advance n).offset = n := by
      rw [Cursor.offset_advance hn]
      exact Nat.zero_add n
    refine ⟨a, _, hreply, ?_⟩
    rw [hoffset, Cursor.rest_advance]
    exact ⟨hn, rfl⟩
  · cases h

theorem matchEnd?_of_reads {r : Grammar.LexRule} {Q : r.Value → Prop} {s behind : List Char}
    (h : grammar.Reads (lex r) s behind Q) (before : List Char) :
    matchEnd? (.lex r) (before ++ (s ++ behind)) before.length =
      some (before.length + s.length) := by
  have hstart : before.length ≤ (Cursor.start (before ++ (s ++ behind))).rest.length := by
    simp [Cursor.start]
  have hrest : ((Cursor.start (before ++ (s ++ behind))).advance before.length).rest =
      s ++ behind := Peg.Grammar.rest_advance_of_append rfl
  obtain ⟨a, ha, -⟩ := h _ hrest
  have hreply : grammar.reply (.lex r)
      ((Cursor.start (before ++ (s ++ behind))).advance before.length) = .matched a _ := ha
  rw [matchEnd?, grammar_total.apply_eq, hreply]
  simp only [Option.some.injEq]
  rw [Cursor.offset_advance (by rw [hrest]; simp), Cursor.offset_advance hstart]
  simp [Cursor.start]

theorem matchEnd?_of_refuses {r : Grammar.LexRule} {text : List Char} {i : Nat}
    (h : grammar.Refuses (lex r) (text.drop i)) : matchEnd? (.lex r) text i = none := by
  have hreply : grammar.reply (.lex r) ((Cursor.start text).advance i) = .refused :=
    h _ (Cursor.rest_advance i _)
  rw [matchEnd?, grammar_total.apply_eq, hreply]

/-- The text is trivia to its end exactly if it is a mix of white space and comments. -/
theorem matchEnd?_trivia_iff (w : List Char) :
    matchEnd? (.lex .trivia) w 0 = some w.length ↔ IsTrivia w := by
  constructor
  · intro h
    obtain ⟨a, k, hreply, -, hrest⟩ := exists_reply_of_matchEnd? h
    exact isTrivia_of_reply hreply (hrest.trans List.drop_length)
  · intro h
    simpa using matchEnd?_of_reads h.reads []

/-- The scans over token texts and the grammar agree. A token without blanks and slashes comes back
from in front of every text that is trivia to its end, which is any mix of white space and comments.
The scan over a block comment stops where the rule for block comments does, which reads every block
comment. -/
theorem trivia_scans_agree :
    (∀ t w : List Char, (∀ c ∈ t, c ≠ '/' ∧ isBlank c = false) →
      matchEnd? (.lex .trivia) w 0 = some w.length → stripTrivia (t ++ w) = t) ∧
    (∀ w : List Char, matchEnd? (.lex .trivia) w 0 = some w.length ↔ IsTrivia w) ∧
    (∀ (text : List Char) (i j : Nat), matchEnd? (.lex .blockComment) text i = some j →
      j ≤ text.length ∧ skipBlockComment 0 (text.drop i) = text.drop j) ∧
    ∀ before comment behind : List Char, IsBlockComment comment →
      matchEnd? (.lex .blockComment) (before ++ (comment ++ behind)) before.length =
        some (before.length + comment.length) := by
  refine ⟨fun t w ht hw => ?_, matchEnd?_trivia_iff, fun text i j h => ?_, ?_⟩
  · have hblank := ((matchEnd?_trivia_iff w).1 hw).isBlank
    exact stripTrivia_of_blank (fun c hc => (ht c hc).2) (fun hc => (ht _ hc).1 rfl) hblank
  · obtain ⟨a, k, hreply, hj, hrest⟩ := exists_reply_of_matchEnd? h
    obtain ⟨s, hs, htext⟩ := isBlockComment_of_reply hreply
    rw [Cursor.rest_advance, hrest] at htext
    have hdrop : text.drop i = s ++ text.drop j := htext
    refine ⟨hj, ?_⟩
    rw [hdrop, hs.skip]
  · intro before comment behind h
    exact matchEnd?_of_reads (h.reads behind) before

/-- Comment marks that share characters. -/
def overlappingMarks : List Char := " // a /*\n/*/ b /* c **/ */\t//*".toList

theorem trivia_scans_agree_overlappingMarks :
    matchEnd? (.lex .trivia) overlappingMarks 0 = some overlappingMarks.length ∧
    stripTrivia ("ink".toList ++ overlappingMarks) = "ink".toList ∧
    IsTrivia overlappingMarks ∧
    matchEnd? (.lex .blockComment) overlappingMarks 9 = some 26 ∧
    skipBlockComment 0 (overlappingMarks.drop 9) = overlappingMarks.drop 26 ∧
    IsBlockComment ['/', '*', '/', '*', '*', '/', '*', '/'] ∧
    matchEnd? (.lex .blockComment) ['*', '/', '*', '/', '*', '*', '/', '*', '/', '/'] 1 =
      some 9 := by
  have htrivia : matchEnd? (.lex .trivia) overlappingMarks 0 = some overlappingMarks.length := by
    decide +kernel
  have hcomment : matchEnd? (.lex .blockComment) overlappingMarks 9 = some 26 := by
    decide +kernel
  have htoken : ∀ c ∈ "ink".toList, c ≠ '/' ∧ isBlank c = false := by
    simp [isBlank, isSpace]
  have hnested : IsBlockComment ['/', '*', '/', '*', '*', '/', '*', '/'] :=
    ⟨_, rfl, .nested .close .close⟩
  obtain ⟨hstrip, hmix, hskip, hreads⟩ := trivia_scans_agree
  exact ⟨htrivia, hstrip _ _ htoken htrivia, (hmix _).1 htrivia, hcomment,
    (hskip _ _ _ hcomment).2, hnested, hreads ['*'] _ ['/'] hnested⟩

end InkGauge.Contract
