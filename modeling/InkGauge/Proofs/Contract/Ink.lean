import InkGauge.Contract.Parse
import InkGauge.Proofs.Contract.Row
import InkGauge.Proofs.Contract.Token

/-!
Every rule but a few reads a character that is not blank wherever it matches. The few are trivia,
the tokens of a macro call, and the rules that can match nothing. Whether an expression does is
computed from its shape.
-/

namespace InkGauge.Peg

variable {T R : Type} {V : R → Type}

/-- Does the expression read a character that is not blank wherever it matches? The answer for
tokens and rules is given. -/
def Expression.inked (token : T → Bool) (rule : R → Bool) : {α : Type} → Expression T R V α → Bool
  | _, .text s => s.any (!Text.isBlank ·)
  | _, .symbol table => table.all fun x => x.spelling.any (!Text.isBlank ·)
  | _, .token t => token t
  | _, .rule r => rule r
  | _, .both p q => p.inked token rule || q.inked token rule
  | _, .either p q => p.inked token rule && q.inked token rule
  | _, .many1 p => p.inked token rule
  | _, .act _ p => p.inked token rule
  | _, .option _ | _, .many _ | _, .absent _ | _, .ahead _ => false

/-- The last character of the fixed text that the expression ends with, if it ends with one. -/
def Expression.ending : {α : Type} → Expression T R V α → Option Char
  | _, .text s => s.getLast?
  | _, .both _ q => q.ending
  | _, .act _ p => p.ending
  | _, _ => none

end InkGauge.Peg

namespace InkGauge.Contract.Grammar

open Peg (Cursor)
open Text

def LexRule.inked : LexRule → Bool
  | .trivia | .reserved | .tree | .looseToken => false
  | .word w => w.any (!isBlank ·)
  | _ => true

def Rule.inked : Rule → Bool
  | .lex r => r.inked
  | .item .file | .stmt .stmtSeq | .expr .structLitBody | .expr .armEnd => false
  | _ => true

theorem inked_body (r : Rule) (h : r.inked = true) :
    (body r).inked Token.inked Rule.inked = true := by
  cases r with
  | lex r =>
    cases r with
    | word w =>
      change (w.any (!isBlank ·) || false) = true
      rw [Bool.or_false]
      exact h
    | _ => first | rfl | cases h
  | type r => cases r <;> rfl
  | pattern r => cases r <;> rfl
  | item r => cases r <;> first | rfl | cases h
  | stmt r => cases r <;> first | rfl | cases h
  | expr r =>
    cases r with
    | primary p => cases p <;> rfl
    | _ => first | rfl | cases h

section

variable {α : Type} {text : List Char} {call : (r : Rule) → Cursor → Peg.Reply r.Value}
  {k k' : Cursor}

theorem inkBetween_of_append (hk : At text k) {u rest : List Char} (h : k.rest = u ++ rest)
    (hu : HasInk u) : InkBetween text k.offset (k.advance u.length).offset := by
  obtain ⟨c, hc, hb⟩ := hu
  obtain ⟨i, hi, hic⟩ := List.mem_iff_getElem.1 hc
  have hl : u.length ≤ k.rest.length := by
    rw [h]
    simp
  rw [Cursor.offset_advance hl]
  refine ⟨k.offset + i, by omega, by omega, c, ?_, hb⟩
  rw [← List.getElem?_drop, ← hk.rest, h, List.getElem?_append_left hi,
    List.getElem?_eq_getElem hi, hic]

/-- The last character of what was read stands just before the place that was reached. -/
theorem last_of_append (hk : At text k) {v rest : List Char} {c : Char}
    (h : k.rest = v ++ [c] ++ rest) :
    k.offset < (k.advance (v ++ [c]).length).offset ∧
      text[(k.advance (v ++ [c]).length).offset - 1]? = some c := by
  have hl : (v ++ [c]).length ≤ k.rest.length := by
    rw [h]
    simp
  rw [Cursor.offset_advance hl]
  refine ⟨by simp, ?_⟩
  have he : k.offset + (v ++ [c]).length - 1 = k.offset + v.length := by
    simp
  rw [he, ← List.getElem?_drop, ← hk.rest, h]
  simp

theorem hasInk_of_any {u : List Char} (h : u.any (!isBlank ·) = true) : HasInk u := by
  obtain ⟨c, hc, hb⟩ := List.any_eq_true.1 h
  exact ⟨c, hc, by simpa using hb⟩

/-- Where an expression matches that reads more than blanks, there is more than blanks. -/
theorem answer_inked (hreach : ∀ r k a k', call r k = .matched a k' → k.Reaches k')
    (hcall : ∀ r k a k', r.inked = true → At text k → call r k = .matched a k' →
      InkBetween text k.offset k'.offset)
    {p : P α} (hp : p.inked Token.inked Rule.inked = true) (hk : At text k) {a : α}
    (h : p.answer Token.scan call k = .matched a k') : InkBetween text k.offset k'.offset := by
  induction p generalizing k k' with
  | text s =>
    obtain ⟨hs, rfl⟩ := Peg.Expression.answer_text.1 h
    obtain ⟨rest, hr⟩ := (startsWith_iff _ _).1 hs
    exact inkBetween_of_append hk hr.symm (hasInk_of_any hp)
  | symbol table =>
    obtain ⟨n, hs, rfl⟩ := Peg.Expression.answer_symbol.1 h
    obtain ⟨x, hx, rfl, rest, hr⟩ := Peg.firstSymbol_some hs
    exact inkBetween_of_append hk hr.symm (hasInk_of_any (List.all_eq_true.1 hp x hx))
  | token t =>
    obtain ⟨n, hs, rfl⟩ := Peg.Expression.answer_token.1 h
    obtain ⟨u, rest, hr, rfl, hu⟩ := Token.scan_inked hp hs
    exact inkBetween_of_append hk hr hu
  | rule r => exact hcall r k a k' hp hk h
  | both p q ihp ihq =>
    obtain ⟨k₁, h₁, h₂⟩ := Peg.Expression.answer_both.1 h
    have hr₁ := Peg.Expression.answer_reaches hreach h₁
    have hr₂ := Peg.Expression.answer_reaches hreach h₂
    rcases Bool.or_eq_true_iff.1 hp with hp | hq
    · exact (ihp hp hk h₁).mono (Nat.le_refl _) hr₂.offset_le
    · exact (ihq hq (hk.of_reaches hr₁) h₂).mono hr₁.offset_le (Nat.le_refl _)
  | either p q ihp ihq =>
    obtain ⟨hp, hq⟩ := Bool.and_eq_true_iff.1 hp
    rcases Peg.Expression.answer_either.1 h with h | ⟨_, h⟩
    · exact ihp hp hk h
    · exact ihq hq hk h
  | option p ih => cases hp
  | many p ih => cases hp
  | many1 p ih =>
    obtain ⟨hne, hr⟩ := Peg.Expression.answer_many1 h
    cases hr with
    | stop => exact absurd rfl hne
    | step head tail =>
      have ht := tail.reaches fun _ _ _ => Peg.Expression.answer_reaches hreach
      exact (ih hp hk head).mono (Nat.le_refl _) ht.offset_le
  | absent p ih => cases hp
  | ahead p ih => cases hp
  | act f p ih =>
    obtain ⟨a, ha, _⟩ := Peg.Expression.answer_act.1 h
    exact ih hp hk ha

/-- An expression that ends with a fixed text ends on its last character. -/
theorem answer_ending (hreach : ∀ r k a k', call r k = .matched a k' → k.Reaches k') {c : Char}
    {p : P α} (hp : p.ending = some c) (hk : At text k) {a : α}
    (h : p.answer Token.scan call k = .matched a k') :
    k.offset < k'.offset ∧ text[k'.offset - 1]? = some c := by
  induction p generalizing k k' with
  | text s =>
    obtain ⟨hs, rfl⟩ := Peg.Expression.answer_text.1 h
    obtain ⟨rest, hr⟩ := (startsWith_iff _ _).1 hs
    obtain ⟨v, rfl⟩ := List.getLast?_eq_some_iff.1 hp
    exact last_of_append hk hr.symm
  | both p q ihp ihq =>
    obtain ⟨k₁, h₁, h₂⟩ := Peg.Expression.answer_both.1 h
    have hr₁ := Peg.Expression.answer_reaches hreach h₁
    have h := ihq hp (hk.of_reaches hr₁) h₂
    exact ⟨Nat.lt_of_le_of_lt hr₁.offset_le h.1, h.2⟩
  | act f p ih =>
    obtain ⟨a, ha, _⟩ := Peg.Expression.answer_act.1 h
    exact ih hp hk ha
  | _ => cases hp

end

end InkGauge.Contract.Grammar
