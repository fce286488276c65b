import InkGauge.Proofs.Contract.Total
import InkGauge.Proofs.Peg.Derivation

/-!
Reading a contract comes to an end on every text.

No rule of the grammar is entered again at its place while it is open, and whatever is repeated
reads something. So every rule is evaluated in finitely many steps at every place of every text. The
rule for files cannot even be refused, so that a text is a contract if the rule reads all of it, and
at fault behind what it reads otherwise.
-/

namespace InkGauge.Contract

open Peg (Cursor Reply)

namespace Grammar

theorem steady_body (r : Rule) : (body r).steady Token.idles Rule.idles = true := by
  cases r with
  | lex r => cases r <;> rfl
  | type r => cases r <;> rfl
  | pattern r => cases r <;> rfl
  | item r => cases r <;> rfl
  | stmt r => cases r <;> rfl
  | expr r =>
    cases r with
    | primary p => cases p <;> rfl
    | _ => rfl

end Grammar

theorem reply_trivia_ne_refused (k : Cursor) : grammar.reply (.lex .trivia) k ≠ .refused := by
  rw [grammar_total.reply_eq]
  exact Reply.bind_ne_refused (Reply.repeated_ne_refused _ _ _ _) fun _ _ => by simp

/-- All parts of a file can be left out. -/
theorem reply_file_ne_refused (k : Cursor) : grammar.reply (.item .file) k ≠ .refused := by
  rw [grammar_total.reply_eq]
  refine Reply.bind_ne_refused ?_ fun _ _ => by simp
  refine Reply.bind_ne_refused (reply_trivia_ne_refused k) fun _ k' => ?_
  refine Reply.bind_ne_refused ?_ fun _ _ => by simp
  refine Reply.bind_ne_refused (Reply.repeated_ne_refused _ _ _ _) fun _ k'' => ?_
  exact Reply.bind_ne_refused (Reply.repeated_ne_refused _ _ _ _) fun _ _ => by simp

/-- Every rule of the grammar is evaluated in finitely many steps at every place of every text. So
there is always a contract or a fault: the contract is what the rule for files yields, and the fault
is in the item where it stops. -/
theorem reading_ends : grammar.Ends ∧ ∀ text filename, ∃ attrs items k,
    grammar.Yields (.rule (.item .file)) (.start text) (.matched (attrs, items) k) ∧
    (k.atEnd = true ∧ parse text filename = .ok ⟨attrs, items, text, filename⟩ ∨
      k.atEnd = false ∧ ∃ place, parse text filename = .error ⟨text, filename, k, place⟩) := by
  refine ⟨grammar_total.ends Grammar.steady_body, fun text filename => ?_⟩
  have hyields := grammar_total.yields_reply (.item .file) (.start text)
  have hnot_refused := reply_file_ne_refused (.start text)
  have hnot_exhausted := grammar_total.reply_ne_exhausted (.item .file) (.start text)
  cases hreply : grammar.reply (.item .file) (.start text) with
  | refused => exact absurd hreply hnot_refused
  | exhausted => exact absurd hreply hnot_exhausted
  | matched x k =>
    obtain ⟨attrs, items⟩ := x
    rw [hreply] at hyields
    refine ⟨attrs, items, k, hyields, ?_⟩
    unfold parse
    dsimp only
    rw [grammar_total.apply_eq, hreply]
    cases hend : k.atEnd with
    | true => exact .inl ⟨rfl, by simp [hend]⟩
    | false => exact .inr ⟨rfl, by simp [hend]⟩

end InkGauge.Contract
