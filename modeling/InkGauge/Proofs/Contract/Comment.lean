import InkGauge.Proofs.Contract.Reads
import InkGauge.Proofs.Peg.Parallel

/-!
Trivia that starts with a block comment goes on behind it as it would without the comment.
-/

namespace InkGauge.Contract

open Grammar (P bare lex many void)
open Peg (Cursor Reply)
open Token (commentTextLength gapLength some?)

/-- The text of a block comment behind its opening mark. Comments nest. -/
inductive CommentTail : List Char → Prop where
  | close : CommentTail ['*', '/']
  | nested {u s : List Char} (inner : CommentTail u) (rest : CommentTail s) :
      CommentTail ('/' :: '*' :: (u ++ s))
  | char {c : Char} {s : List Char} (opens : ¬['/', '*'] <+: c :: s) (closes : ¬['*', '/'] <+: c :: s)
      (rest : CommentTail s) : CommentTail (c :: s)

/-- A block comment, from its opening mark to the closing one. -/
def IsBlockComment (s : List Char) : Prop := ∃ u, s = '/' :: '*' :: u ∧ CommentTail u

namespace CommentTail

variable {s : List Char}

theorem ne_nil (h : CommentTail s) : s ≠ [] := by
  cases h <;> simp

end CommentTail

theorem commentTextLength_cons {c : Char} {s : List Char} (hopens : ¬['/', '*'] <+: c :: s)
    (hcloses : ¬['*', '/'] <+: c :: s) : commentTextLength (c :: s) = commentTextLength s + 1 := by
  rw [commentTextLength]
  · rintro u rfl rfl
    exact hopens ⟨u, rfl⟩
  · rintro u rfl rfl
    exact hcloses ⟨u, rfl⟩

theorem not_prefix_append {a b c : Char} {s t : List Char} (hs : s ≠ [])
    (h : ¬[a, b] <+: c :: s) : ¬[a, b] <+: c :: (s ++ t) := by
  cases s with
  | nil => exact absurd rfl hs
  | cons d s => simpa using h

/-- Plain text in a comment is read up to the next mark, whatever follows the comment. -/
theorem CommentTail.run {s : List Char} (h : CommentTail s) (t : List Char) :
    commentTextLength (s ++ t) = commentTextLength s ∧ commentTextLength s ≤ s.length ∧
      CommentTail (s.drop (commentTextLength s)) := by
  induction h with
  | close => exact ⟨rfl, Nat.zero_le _, .close⟩
  | nested inner rest _ _ => exact ⟨rfl, Nat.zero_le _, .nested inner rest⟩
  | char opens closes rest ih =>
    obtain ⟨hlength, hle, htail⟩ := ih
    have hlong := commentTextLength_cons (not_prefix_append (t := t) rest.ne_nil opens)
      (not_prefix_append rest.ne_nil closes)
    rw [commentTextLength_cons opens closes]
    refine ⟨?_, Nat.succ_le_succ hle, htail⟩
    rw [List.cons_append, hlong, hlength]

/-- What a block comment is made of between its marks. -/
def commentPart : P Unit := lex .blockComment <|> .token .commentText

theorem refuses_blockComment {t : List Char} (h : ¬['/', '*'] <+: t) :
    grammar.Refuses (lex .blockComment) t :=
  refuses_lex (.seqRight (.seqRight (Peg.Grammar.refuses_text h)))

theorem reads_blockComment {u t : List Char}
    (h : grammar.ReadsMany commentPart u (['*', '/'] ++ t) fun _ => True) :
    grammar.Reads (lex .blockComment) ('/' :: '*' :: (u ++ ['*', '/'])) t fun _ => True := by
  have hinside : grammar.Reads (void (many commentPart)) u (['*', '/'] ++ t) fun _ => True :=
    .act (h.many.imp fun _ _ _ _ => trivial)
  have hopen : grammar.Reads (bare "/*" *> void (many commentPart)) (['/', '*'] ++ u)
      (['*', '/'] ++ t) fun _ => True :=
    (Peg.Grammar.reads_text ['/', '*'] _).seqRight hinside
  exact reads_lex (hopen.seqRight (Peg.Grammar.reads_text ['*', '/'] t))

/-- The parts of a comment are read up to its closing mark. -/
theorem CommentTail.reads {s : List Char} (h : CommentTail s) :
    ∃ u, s = u ++ ['*', '/'] ∧
      ∀ t, grammar.ReadsMany commentPart u (['*', '/'] ++ t) fun _ => True := by
  induction hn : s.length using Nat.strong_induction_on generalizing s with
  | _ n ih =>
    subst hn
    cases h with
    | close =>
      refine ⟨[], rfl, fun t => (Peg.Grammar.ReadsMany.stop (.inl ?_)).imp fun _ _ => trivial⟩
      exact (refuses_blockComment (by simp)).orElse (Peg.Grammar.refuses_token rfl)
    | @nested v w inner rest =>
      obtain ⟨v, rfl, hv⟩ := ih _ (by simp; omega) inner rfl
      obtain ⟨w, rfl, hw⟩ := ih _ (by simp; omega) rest rfl
      refine ⟨'/' :: '*' :: (v ++ ['*', '/']) ++ w, by simp, fun t => ?_⟩
      exact (Peg.Grammar.ReadsMany.step (reads_blockComment (hv _)).orElse (by simp) (hw t)).imp
        fun _ _ => trivial
    | @char c s opens closes rest =>
      -- The token takes more than the first character: all up to the next mark.
      have hrun := (CommentTail.char opens closes rest).run
      obtain ⟨-, hle, htail⟩ := hrun []
      have hlength := commentTextLength_cons opens closes
      obtain ⟨u, hu, hreads⟩ := ih _ (by rw [List.length_drop]; simp; omega) htail rfl
      refine ⟨(c :: s).take (commentTextLength (c :: s)) ++ u, ?_, fun t => ?_⟩
      · rw [List.append_assoc, ← hu, List.take_append_drop]
      · have hwhole : (c :: s).take (commentTextLength (c :: s)) ++ (u ++ (['*', '/'] ++ t)) =
            (c :: s) ++ t := by
          rw [← List.append_assoc u, ← hu, ← List.append_assoc, List.take_append_drop]
        have hpart : grammar.Reads commentPart ((c :: s).take (commentTextLength (c :: s)))
            (u ++ (['*', '/'] ++ t)) fun _ => True := by
          refine .orElse_right (refuses_blockComment ?_) (Peg.Grammar.reads_token ?_)
          · rw [hwhole]
            exact not_prefix_append rest.ne_nil opens
          · rw [hwhole, List.length_take, Nat.min_eq_left hle]
            change some? (commentTextLength (c :: s ++ t)) = _
            rw [(hrun t).1, some?, if_neg (by omega)]
        refine (Peg.Grammar.ReadsMany.step hpart ?_ (hreads t)).imp fun _ _ => trivial
        rw [hlength, List.take_succ_cons]
        simp

theorem IsBlockComment.reads {s : List Char} (h : IsBlockComment s) (t : List Char) :
    grammar.Reads (lex .blockComment) s t fun _ => True := by
  obtain ⟨u, rfl, htail⟩ := h
  obtain ⟨v, rfl, hv⟩ := htail.reads
  exact reads_blockComment (hv t)

/-- What trivia is made of. -/
def triviaPart : P Unit := .token .gap <|> lex .blockComment

theorem IsBlockComment.reads_part {s : List Char} (h : IsBlockComment s) (t : List Char) :
    grammar.Reads triviaPart s t fun _ => True := by
  refine .orElse_right (Peg.Grammar.refuses_token ?_) (h.reads t)
  obtain ⟨u, rfl, -⟩ := h
  rfl

/-- Trivia behind a comment is the same as without it. -/
theorem reply_trivia_of_comment {comment : List Char} (h : IsBlockComment comment)
    {k k' k₁ : Cursor} {a : Unit} (hrest : k'.rest = comment ++ k.rest)
    (hk : grammar.reply (.lex .trivia) k = .matched a k₁) :
    ∃ n, k₁ = k.advance n ∧ grammar.reply (.lex .trivia) k' =
      .matched () ((k'.advance comment.length).advance n) := by
  have hbody (k : Cursor) : grammar.reply (.lex .trivia) k =
      (Reply.repeated (grammar.read triviaPart) k.rest.length [] k).bind fun _ => .matched () :=
    grammar_total.reply_eq (.lex .trivia) k
  have hlong : comment ≠ [] := by
    obtain ⟨u, rfl, -⟩ := h
    simp
  have hpos := List.length_pos_iff.2 hlong
  have hlength : k'.rest.length = comment.length + k.rest.length := by
    rw [hrest, List.length_append]
  have hend : k'.atEnd = false := by
    rw [Cursor.atEnd, List.isEmpty_eq_false_iff]
    exact List.ne_nil_of_length_pos (by omega)
  have hoffset : (k'.advance comment.length).offset ≠ k'.offset := by
    rw [Cursor.offset_advance (by omega)]
    omega
  have hbehind : k.rest = (k'.advance comment.length).rest :=
    (Peg.Grammar.rest_advance_of_append hrest).symm
  -- The first round takes the comment, and the others go on as without it.
  obtain ⟨_, hfirst, -⟩ := h.reads_part k.rest k' hrest
  obtain ⟨m, hm⟩ : ∃ m, k'.rest.length = m + 1 := ⟨k'.rest.length - 1, by omega⟩
  have hrounds : Reply.repeated (grammar.read triviaPart) k'.rest.length [] k' =
      Reply.repeated (grammar.read triviaPart) m [()] (k'.advance comment.length) := by
    rw [hm, Reply.repeated, hend, hfirst]
    simp only [Bool.false_eq_true, if_false, Reply.cases, hoffset]
  have hsame : Reply.Parallel k (k'.advance comment.length)
      (Reply.repeated (grammar.read triviaPart) k.rest.length [] k)
      (Reply.repeated (grammar.read triviaPart) m [()] (k'.advance comment.length)) :=
    .repeated
        (fun _ _ => Peg.Expression.answer_parallel (fun r _ _ => grammar.reply_parallel r) triviaPart)
      hbehind (Nat.le_refl _) (by omega)
  rw [hbody] at hk
  rw [hbody, hrounds]
  generalize Reply.repeated (grammar.read triviaPart) k.rest.length [] k = x at hk hsame
  generalize Reply.repeated (grammar.read triviaPart) m [()] (k'.advance comment.length) = y at hsame ⊢
  cases hsame with
  | matched as as' n =>
    cases hk
    exact ⟨n, rfl, rfl⟩
  | refused => cases hk
  | exhausted => cases hk

end InkGauge.Contract
