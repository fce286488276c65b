import InkGauge.Proofs.Contract.Alike
import InkGauge.Proofs.Contract.Comment

/-!
A text and the text with a block comment put in are read alike, as long as the comment changes no
token before it and no text that is kept. The rules are taken one by one in `Alike`; here they are
put together, and trivia is what takes the comment along.
-/

namespace InkGauge.Contract

open Grammar
open Peg (Cursor Insertion Reply Sight Slice Spot)

/-- A text without a newline leads on within the line. -/
theorem line_advance {k : Cursor} {u t : List Char} (hrest : k.rest = u ++ t) (hu : '\n' ∉ u) :
    (k.advance u.length).line = k.line := by
  induction u generalizing k with
  | nil => rfl
  | cons c u ih =>
    obtain ⟨offset, line, column, rest⟩ := k
    subst hrest
    rw [List.mem_cons, not_or] at hu
    rw [List.length_cons, Cursor.advance, ih (k := Cursor.next _) (by simp) hu.2]
    simp [Cursor.next, Ne.symm hu.1]

variable {i : Insertion}

theorem watchedGap_tells (hcomment : IsBlockComment i.added) (hline : '\n' ∉ i.added) {s : Spot}
    {k' : Cursor} (hs : i.Near s k') (hahead : s.past = false) :
    (grammar.watchedGap i (.lex .trivia) s).Tells i (Agree i (Rule.lex .trivia).respan)
      (grammar.reply (.lex .trivia) s.cursor) (grammar.reply (.lex .trivia) k') := by
  cases hs with
  | past _ _ _ _ => cases hahead
  | @ahead k hle hrest =>
    unfold Peg.Grammar.watchedGap
    dsimp only
    cases hk : grammar.reply (.lex .trivia) k with
    | refused => trivial
    | exhausted => trivial
    | matched a k₁ =>
      dsimp only
      split
      · rename_i hf
        have hplace : k.offset = i.place := by simpa [Insertion.faces] using hf
        have hfrom : Cursor.rest { k with rest := i.restFrom k.offset } = i.added ++ k.rest := by
          rw [hrest, Insertion.restFrom, hplace, Insertion.place, List.drop_length]
          rfl
        obtain ⟨n, rfl, hreply⟩ := reply_trivia_of_comment hcomment hfrom hk
        rw [hreply]
        refine Sight.tells_matched rfl (Insertion.near_advance_past (.past ?_ ?_ ?_ ?_) n)
        · exact Nat.le_of_eq hplace.symm
        · exact Peg.Grammar.rest_advance_of_append hfrom
        · exact Cursor.offset_advance (by rw [hfrom, List.length_append]; omega)
        · exact line_advance hfrom hline
      · cases hk' : grammar.reply (.lex .trivia) { k with rest := i.restFrom k.offset } with
        | refused => trivial
        | exhausted => trivial
        | matched a' k₁' =>
          dsimp only
          split
          · rename_i hsame
            obtain ⟨n, hn, rfl⟩ := grammar.reply_reaches _ _ _ _ hk
            obtain ⟨n', hn', rfl⟩ := grammar.reply_reaches _ _ _ _ hk'
            rw [Cursor.offset_advance hn, Cursor.offset_advance hn'] at hsame
            obtain rfl : n = n' := by
              dsimp only at hsame
              omega
            exact Sight.tells_matched rfl (Insertion.near_advance_ahead hrest hsame.2)
          · trivial

theorem spared (call : (r : Rule) → Spot → Sight r.Value) [Watched i call] (r : Rule) :
    Spared i call r := by
  cases r with
  | lex r => exact spared_lexBody r
  | type r => exact spared_typeBody r
  | pattern r => exact spared_patternBody r
  | item r => exact spared_itemBody r
  | stmt r => exact spared_stmtBody r
  | expr r => exact spared_exprBody r

/-- Rules are read alike with the comment and without it. -/
theorem watched_watch (hcomment : IsBlockComment i.added) (hline : '\n' ∉ i.added) (depth : Nat) :
    Watched i (grammar.watched (watch i) depth) := by
  have hadded : i.added ≠ [] := by
    obtain ⟨u, hu, -⟩ := hcomment
    simp [hu]
  induction depth with
  | zero => exact ⟨hadded, fun _ _ _ _ _ => nofun, fun _ _ _ _ => trivial⟩
  | succ depth ih =>
    refine ⟨hadded, fun r s a s' hr h => ?_, fun r s k' hs => ?_⟩
    · have hgap : ((watch i).gap r && !s.past) = false := by
        have hne : r ≠ .lex .trivia := by
          rintro rfl
          cases hr
        simp [watch, hne]
      unfold Peg.Grammar.watched at h
      rw [hgap, if_neg Bool.false_ne_true] at h
      split at h
      · cases h
      · obtain ⟨b, s₁, -, h⟩ := Sight.bind_eq_matched.1 h
        split at h
        · cases h
        · rename_i hspoils
          cases h
          exact past_of_raw hr (by simpa [watch] using hspoils)
    · unfold Peg.Grammar.watched
      split
      · rename_i hgap
        simp only [watch, Bool.and_eq_true, beq_iff_eq, Bool.not_eq_true'] at hgap
        obtain ⟨rfl, hahead⟩ := hgap
        exact watchedGap_tells hcomment hline hs hahead
      · split
        · trivial
        · rename_i hf
          rw [grammar_total.reply_eq, grammar_total.reply_eq]
          exact spared _ r s k' hs (by simpa [watch] using hf)

/-- Reading the file with an eye on the insertion. -/
def watchedFile (i : Insertion) : Sight (List Attribute × List Item) :=
  let text := i.before ++ i.behind
  grammar.watched (watch i) ((text.length + 1) * grammar.height) (.item .file) ⟨.start text, false⟩

/-- Is the insertion taken along as trivia, with all the tokens before it and all the text that is
kept as they were? This asks for more than that the tree stays as it was: behind white space that
has already been taken along the answer is no, though nothing changes there either. -/
def fits (i : Insertion) : Bool :=
  match watchedFile i with
  | .matched _ s => s.past
  | _ => false

theorem parse_eq_ok_iff {text : List Char} {filename : String} {f : SourceFile} :
    parse text filename = .ok f ↔
      ∃ k, grammar.reply (.item .file) (.start text) = .matched (f.attrs, f.items) k ∧
        k.atEnd = true ∧ f.text = text ∧ f.filename = filename := by
  unfold parse
  dsimp only
  rw [grammar_total.apply_eq]
  obtain ⟨attrs, items, text', filename'⟩ := f
  cases grammar.reply (.item .file) (.start text) with
  | refused => simp
  | exhausted => simp
  | matched x k =>
    obtain ⟨attrs', items'⟩ := x
    by_cases hend : k.atEnd = true
    · simp only [hend, if_true, Except.ok.injEq, SourceFile.mk.injEq, Reply.matched.injEq,
        Prod.mk.injEq]
      constructor
      · rintro ⟨rfl, rfl, rfl, rfl⟩
        exact ⟨k, ⟨⟨rfl, rfl⟩, rfl⟩, hend, rfl, rfl⟩
      · rintro ⟨_, ⟨⟨rfl, rfl⟩, rfl⟩, -, rfl, rfl⟩
        exact ⟨rfl, rfl, rfl, rfl⟩
    · simp only [hend, Bool.false_eq_true, if_false, Reply.matched.injEq, reduceCtorEq, false_iff]
      rintro ⟨_, ⟨-, rfl⟩, hend', -⟩
      exact hend hend'

/-- A comment that fits in leaves the tree as it was, up to where things stand. -/
theorem parse_commented (hcomment : IsBlockComment i.added) (hline : '\n' ∉ i.added)
    (hfits : fits i = true) {filename : String} {tree : SourceFile}
    (h : parse (i.before ++ i.behind) filename = .ok tree) :
    ∃ tree', parse (i.before ++ (i.added ++ i.behind)) filename = .ok tree' ∧
      itemsMapSpans (shifted i) tree.items = itemsMapSpans rough tree'.items := by
  obtain ⟨k, hreply, hend, -, -⟩ := parse_eq_ok_iff.1 h
  unfold fits at hfits
  split at hfits
  · rename_i x s hwatched
    have htells : (watchedFile i).Tells i _ _ _ :=
      (watched_watch hcomment hline _).tells (.item .file) _ _ i.near_start
    rw [hwatched] at htells
    obtain ⟨hsame, x', k', hreply', hagree, hnear⟩ := htells
    obtain ⟨rfl, rfl⟩ : (tree.attrs, tree.items) = x ∧ k = s.cursor := by simpa [hreply] using hsame
    have hitems := congrArg Prod.snd hagree
    have hend' : k'.atEnd = true := by
      cases hnear with
      | ahead _ _ => cases hfits
      | past _ hrest _ _ => rwa [← Cursor.atEnd_eq hrest.symm]
    refine ⟨⟨x'.1, x'.2, _, filename⟩, parse_eq_ok_iff.2 ⟨k', hreply', hend', rfl, rfl⟩, ?_⟩
    rw [itemsMapSpans_eq_map, itemsMapSpans_eq_map]
    exact hitems
  · cases hfits

end InkGauge.Contract
