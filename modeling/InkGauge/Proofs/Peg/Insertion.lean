import InkGauge.Proofs.Peg.Parallel
import Mathlib.Data.List.Forall2

/-!
`Grammar.watched` reads a text as the grammar does, with an eye on an insertion. It loses sight as
soon as a token that it tries before the place would be taken differently in the text with the
insertion, or reaches over the place. As long as it does not, a run on the text with the insertion
follows step by step: `Sight.Tells` is what the two runs have in common.
-/

namespace InkGauge.Peg

variable {T R : Type} {V : R → Type} {α β : Type}

/-- A place in a text and what is put in there. -/
structure Insertion where
  before : List Char
  added : List Char
  behind : List Char

/-- A place in the text without the insertion. Where the insertion belongs, it may be ahead or
past. -/
structure Spot where
  cursor : Cursor
  past : Bool

namespace Insertion

variable (i : Insertion)

/-- The offset of the insertion. -/
def place : Nat := i.before.length

/-- The text with the insertion, from an offset before it on. -/
def restFrom (offset : Nat) : List Char := i.before.drop offset ++ (i.added ++ i.behind)

/-- The text with the insertion, from a place before it up to one behind it. -/
def between (k : Cursor) (stop : Nat) : List Char :=
  i.before.drop k.offset ++ (i.added ++ i.behind.take (stop - i.place))

/-- The insertion is what comes next. -/
def faces (s : Spot) : Bool := !s.past && s.cursor.offset == i.place

/-- The place `k` of the text with the insertion is that of `s`. -/
inductive Near : Spot → Cursor → Prop where
  | ahead {k : Cursor} (hle : k.offset ≤ i.place)
      (hrest : k.rest = i.before.drop k.offset ++ i.behind) :
      Near ⟨k, false⟩ { k with rest := i.restFrom k.offset }
  | past {k k' : Cursor} (hle : i.place ≤ k.offset) (hrest : k'.rest = k.rest)
      (hoffset : k'.offset = k.offset + i.added.length) (hline : k'.line = k.line) :
      Near ⟨k, true⟩ k'

end Insertion

/-- What a watched run comes to. -/
inductive Sight (α : Type) where
  | matched (value : α) (spot : Spot)
  | refused
  /-- The insertion may make a difference. -/
  | lost

namespace Sight

def bind (x : Sight α) (f : α → Spot → Sight β) : Sight β :=
  match x with
  | .matched a s => f a s
  | .refused => .refused
  | .lost => .lost

def cases (x : Sight α) (f : α → Spot → Sight β) (g : Sight β) : Sight β :=
  match x with
  | .matched a s => f a s
  | .refused => g
  | .lost => .lost

def repeated (i : Insertion) (x : Spot → Sight α) : Nat → List α → Spot → Sight (List α)
  | 0, found, s => if i.faces s then .lost else .matched found.reverse s
  | n + 1, found, s =>
    if i.faces s then .lost
    else if s.cursor.atEnd then .matched found.reverse s
    else (x s).cases
      (fun a s' =>
        if s'.cursor.offset = s.cursor.offset then .matched (a :: found).reverse s'
        else repeated i x n (a :: found) s')
      (.matched found.reverse s)

/-- The two runs that `x` watches, without and with the insertion, come to the same: both are
refused, or both match, at the same place and with values that `M` relates. -/
def Tells (i : Insertion) (M : α → α → Prop) : Sight α → Reply α → Reply α → Prop
  | .lost, _, _ => True
  | .refused, y, y' => y = .refused ∧ y' = .refused
  | .matched a s, y, y' =>
    y = .matched a s.cursor ∧ ∃ a' k', y' = .matched a' k' ∧ M a a' ∧ i.Near s k'

end Sight

/-- The length of a fixed text, where it stands. -/
def textLength? (s rest : List Char) : Option Nat :=
  if Text.startsWith s rest then some s.length else none

def Symbol.length? (x : Symbol α) (rest : List Char) : Option Nat :=
  (x.take? rest).map fun _ => x.spelling.length

namespace Insertion

variable (i : Insertion)

/-- What a scanner takes: before the insertion it has to take the same with the insertion, and not
to reach over the place. -/
def take (scan? : List Char → Option Nat) (s : Spot) : Sight Unit :=
  if i.faces s then .lost
  else match scan? s.cursor.rest with
    | none => if s.past || (scan? (i.restFrom s.cursor.offset)).isNone then .refused else .lost
    | some n =>
      if s.past then .matched () ⟨s.cursor.advance n, true⟩
      else if scan? (i.restFrom s.cursor.offset) = some n ∧ s.cursor.offset + n ≤ i.place then
        .matched () ⟨s.cursor.advance n, false⟩
      else .lost

def takeSymbol : List (Symbol α) → Spot → Sight α
  | [], _ => .refused
  | x :: xs, s => (i.take x.length? s).cases (fun _ => .matched x.value) (takeSymbol xs s)

end Insertion

/-- A watched run of an expression, with `call` for the rules it refers to. -/
def Expression.watched (i : Insertion) (scan : T → List Char → Option Nat)
    (call : (r : R) → Spot → Sight (V r)) : {α : Type} → Expression T R V α → Spot → Sight α
  | _, .text x, s => i.take (textLength? x) s
  | _, .symbol table, s => i.takeSymbol table s
  | _, .token t, s => i.take (scan t) s
  | _, .rule r, s => call r s
  | _, .both p q, s =>
    (watched i scan call p s).bind fun a s' => (watched i scan call q s').bind fun b s'' =>
      .matched (a, b) s''
  | _, .either p q, s => (watched i scan call p s).cases .matched (watched i scan call q s)
  | _, .option p, s =>
    if i.faces s then .lost
    else if s.cursor.atEnd then .matched none s
    else (watched i scan call p s).cases (fun a => .matched (some a)) (.matched none s)
  | _, .many p, s => Sight.repeated i (watched i scan call p) s.cursor.rest.length [] s
  | _, .many1 p, s =>
    if i.faces s then .lost
    else if s.cursor.atEnd then .refused
    else (watched i scan call p s).bind fun a s' =>
      if s'.cursor.offset = s.cursor.offset then .matched [a] s'
      else Sight.repeated i (watched i scan call p) s'.cursor.rest.length [a] s'
  | _, .absent p, s => (watched i scan call p s).cases (fun _ _ => .refused) (.matched () s)
  | _, .ahead p, s => (watched i scan call p s).bind fun _ _ => .matched () s
  | _, .act f p, s =>
    if i.faces s then .lost
    else (watched i scan call p s).bind fun a s' =>
      .matched (f ⟨s.cursor, s'.cursor.offset⟩ a) s'

/-- What is watched for in the rules of a grammar. -/
structure Watch {R : Type} (V : R → Type) where
  insertion : Insertion
  /-- Rules that may take the insertion along. -/
  gap : R → Bool
  /-- Would the insertion change what a rule yields, from one place to another? -/
  spoils : (r : R) → Spot → V r → Spot → Bool

/-- A rule that may take the insertion along, where it is still ahead. -/
def Grammar.watchedGap (g : Grammar T R V) (i : Insertion) (r : R) (s : Spot) : Sight (V r) :=
  match g.reply r s.cursor with
  | .matched a k =>
    if i.faces s then .matched a ⟨k, true⟩
    else match g.reply r { s.cursor with rest := i.restFrom s.cursor.offset } with
      | .matched _ k' =>
        if k.offset = k'.offset ∧ k.offset ≤ i.place then .matched a ⟨k, false⟩ else .lost
      | _ => .lost
  | _ => .lost

/-- A watched run of a rule, with at most `depth` rules open at once. -/
def Grammar.watched (g : Grammar T R V) (w : Watch V) : Nat → (r : R) → Spot → Sight (V r)
  | 0, _, _ => .lost
  | depth + 1, r, s =>
    if w.gap r && !s.past then g.watchedGap w.insertion r s
    else if w.insertion.faces s then .lost
    else ((g.body r).watched w.insertion g.scan (g.watched w depth) s).bind fun a s' =>
      if w.spoils r s a s' then .lost else .matched a s'

namespace Cursor

/-- Going on looks no farther than it goes. -/
theorem advance_of_take_eq {k : Cursor} {rest : List Char} {n : Nat}
    (h : rest.take n = k.rest.take n) (hn : n ≤ k.rest.length) :
    advance n { k with rest := rest } = { advance n k with rest := rest.drop n } := by
  induction n generalizing k rest with
  | zero => rfl
  | succ n ih =>
    rcases k with ⟨offset, line, column, _ | ⟨c, cs⟩⟩
    · simp at hn
    · cases rest with
      | nil => simp at h
      | cons d ds =>
        simp only [List.take_succ_cons, List.cons.injEq] at h
        obtain ⟨rfl, htake⟩ := h
        simp only [List.length_cons, Nat.add_le_add_iff_right] at hn
        simp only [advance, next]
        split
        · exact ih (k := ⟨offset + 1, line + 1, 1, cs⟩) htake hn
        · exact ih (k := ⟨offset + 1, line, column + 1, cs⟩) htake hn

/-- Two places before the same text stay as far apart, and on the same line. -/
theorem advance_apart {k k' : Cursor} {d : Nat} (hrest : k'.rest = k.rest)
    (hoffset : k'.offset = k.offset + d) (hline : k'.line = k.line) (n : Nat) :
    (advance n k').offset = (advance n k).offset + d ∧ (advance n k').line = (advance n k).line := by
  induction n generalizing k k' with
  | zero => exact ⟨hoffset, hline⟩
  | succ n ih =>
    have hnext : k'.next.offset = k.next.offset + d ∧ k'.next.line = k.next.line := by
      unfold next
      rw [hrest]
      split
      · exact ⟨hoffset, hline⟩
      · split <;> exact ⟨by dsimp only; omega, by dsimp only; omega⟩
    exact ih (by simp [hrest]) hnext.1 hnext.2

end Cursor

namespace Insertion

variable {i : Insertion} {s s' : Spot} {k k' : Cursor}

theorem offset_lt_of_ahead (hle : k.offset ≤ i.place) (hf : i.faces ⟨k, false⟩ = false) :
    k.offset < i.place := by
  simp only [faces, Bool.not_false, Bool.true_and, beq_eq_false_iff_ne] at hf
  omega

theorem near_start (i : Insertion) :
    i.Near ⟨.start (i.before ++ i.behind), false⟩ (.start (i.before ++ (i.added ++ i.behind))) :=
  .ahead (Nat.zero_le _) rfl

/-- Up to the place the text is the same with the insertion. -/
theorem take_ahead (hrest : k.rest = i.before.drop k.offset ++ i.behind) {n : Nat}
    (hn : k.offset + n ≤ i.place) :
    n ≤ k.rest.length ∧ (i.restFrom k.offset).take n = k.rest.take n := by
  have hlen : n ≤ (i.before.drop k.offset).length := by
    rw [List.length_drop]
    exact Nat.le_sub_of_add_le' hn
  constructor
  · rw [hrest, List.length_append]
    omega
  · rw [hrest, restFrom, List.take_append_of_le_length hlen, List.take_append_of_le_length hlen]

/-- Going on before the insertion. -/
theorem near_advance_ahead (hrest : k.rest = i.before.drop k.offset ++ i.behind) {n : Nat}
    (hn : k.offset + n ≤ i.place) :
    i.Near ⟨k.advance n, false⟩ (Cursor.advance n { k with rest := i.restFrom k.offset }) := by
  obtain ⟨hlen, htake⟩ := take_ahead hrest hn
  have hoffset := Cursor.offset_advance hlen
  have hdrop : n ≤ (i.before.drop k.offset).length := by
    rw [List.length_drop]
    exact Nat.le_sub_of_add_le' hn
  have hrest' : (k.advance n).rest = i.before.drop (k.advance n).offset ++ i.behind := by
    rw [Cursor.rest_advance, hrest, List.drop_append_of_le_length hdrop, List.drop_drop, hoffset]
  have hfrom : (i.restFrom k.offset).drop n = i.restFrom (k.advance n).offset := by
    rw [restFrom, List.drop_append_of_le_length hdrop, List.drop_drop, hoffset, restFrom]
  rw [Cursor.advance_of_take_eq htake hlen, hfrom]
  exact .ahead (by omega) hrest'

theorem near_advance_past (h : i.Near ⟨k, true⟩ k') (n : Nat) :
    i.Near ⟨k.advance n, true⟩ (k'.advance n) := by
  cases h with
  | past hle hrest hoffset hline =>
    obtain ⟨hoffset', hline'⟩ := Cursor.advance_apart hrest hoffset hline n
    have hreach := ((Cursor.Reaches.refl k).advance n).offset_le
    exact .past (Nat.le_trans hle hreach) (by simp [hrest]) hoffset' hline'

theorem Near.atEnd_eq (h : i.Near s k') (hf : i.faces s = false) :
    k'.atEnd = s.cursor.atEnd := by
  cases h with
  | @ahead k hle hrest =>
    have hlt := offset_lt_of_ahead hle hf
    have hne : i.before.drop k.offset ≠ [] := by
      rw [Ne, List.drop_eq_nil_iff, Nat.not_le]
      exact hlt
    obtain ⟨c, cs, hcs⟩ := List.exists_cons_of_ne_nil hne
    simp only [Cursor.atEnd, restFrom, hrest, hcs, List.cons_append, List.isEmpty_cons]
  | past _ hrest _ _ => simp [Cursor.atEnd, hrest]

/-- Nothing is read without the insertion exactly if nothing is read with it. -/
theorem Near.offset_eq_iff {k₁ : Cursor} (h : i.Near s k') (h' : i.Near s' k₁)
    (hf : i.faces s = false) (hreach : s.cursor.Reaches s'.cursor) (hreach' : k'.Reaches k₁) :
    k₁.offset = k'.offset ↔ s'.cursor.offset = s.cursor.offset := by
  have hle := hreach.offset_le
  have hle' := hreach'.offset_le
  cases h with
  | ahead hk hrest =>
    have hlt := offset_lt_of_ahead hk hf
    cases h' with
    | ahead _ _ => rfl
    | past hk' _ hoffset' _ => dsimp only at *; omega
  | past hk hrest hoffset _ =>
    cases h' with
    | ahead hk' _ => dsimp only at *; omega
    | past hk' _ hoffset' _ => dsimp only at *; omega

/-- An insertion that is past stays so. -/
theorem Near.past_of_reaches {k₁ : Cursor} (hadded : i.added ≠ []) (h : i.Near s k')
    (h' : i.Near s' k₁) (hreach : k'.Reaches k₁) (hs : s.past = true) : s'.past = true := by
  have hle := hreach.offset_le
  have hpos := List.length_pos_iff.2 hadded
  cases h with
  | ahead _ _ => cases hs
  | past hk _ hoffset _ =>
    cases h' with
    | ahead hk' _ => dsimp only at hle hk'; omega
    | past _ _ _ _ => rfl

/-- What is read without passing the insertion. -/
theorem Near.chars_eq {k₁ : Cursor} (h : i.Near s k') (h' : i.Near s' k₁)
    (hpast : s'.past = s.past) :
    (Slice.mk k' k₁.offset).chars = (Slice.mk s.cursor s'.cursor.offset).chars := by
  cases h with
  | @ahead k hk hrest =>
    cases h' with
    | @ahead j hj _ =>
      simp only [Slice.chars, hrest, restFrom]
      have hlen : j.offset - k.offset ≤ (i.before.drop k.offset).length := by
        rw [List.length_drop]
        exact Nat.sub_le_sub_right hj _
      rw [List.take_append_of_le_length hlen, List.take_append_of_le_length hlen]
    | past _ _ _ _ => cases hpast
  | past hk hrest hoffset _ =>
    cases h' with
    | ahead _ _ => cases hpast
    | past hk' _ hoffset' _ =>
      simp only [Slice.chars, hrest, hoffset, hoffset', Nat.add_sub_add_right]

/-- What is read from before the insertion to behind it. -/
theorem Near.chars_between {k₁ : Cursor} (h : i.Near s k') (h' : i.Near s' k₁)
    (hs : s.past = false) (hs' : s'.past = true) :
    (Slice.mk k' k₁.offset).chars = i.between s.cursor s'.cursor.offset := by
  cases h with
  | past _ _ _ _ => cases hs
  | @ahead k hk hrest =>
    cases h' with
    | ahead _ _ => cases hs'
    | @past j _ hj hrest' hoffset _ =>
      have hlen : (i.before.drop k.offset).length = i.place - k.offset := by
        rw [List.length_drop, place]
      have hadded : j.offset + i.added.length - k.offset - (i.place - k.offset)
          = i.added.length + (j.offset - i.place) := by omega
      simp only [Slice.chars, hoffset, restFrom, between]
      rw [List.take_append, List.take_of_length_le (by omega), hlen, hadded, List.take_append,
        List.take_of_length_le (Nat.le_add_right _ _), Nat.add_sub_cancel_left]

end Insertion

namespace Sight

variable {i : Insertion} {M : α → α → Prop} {N : β → β → Prop}

theorem bind_eq_matched {x : Sight α} {f : α → Spot → Sight β} {b : β} {s : Spot} :
    x.bind f = .matched b s ↔ ∃ a s', x = .matched a s' ∧ f a s' = .matched b s := by
  cases x <;> simp [bind, and_assoc]

theorem cases_eq_matched {x : Sight α} {f : α → Spot → Sight β} {y : Sight β} {b : β} {s : Spot} :
    x.cases f y = .matched b s ↔
      (∃ a s', x = .matched a s' ∧ f a s' = .matched b s) ∨ x = .refused ∧ y = .matched b s := by
  cases x <;> simp [Sight.cases, and_assoc]

theorem bind_assoc {γ : Type} (x : Sight α) (f : α → Spot → Sight β) (g : β → Spot → Sight γ) :
    (x.bind f).bind g = x.bind fun a s => (f a s).bind g := by
  cases x <;> rfl

theorem Tells.bind {x : Sight α} {y y' : Reply α} {f : α → Spot → Sight β}
    {g g' : α → Cursor → Reply β} (h : x.Tells i M y y')
    (hf : ∀ a a' s k', x = .matched a s → y' = .matched a' k' → M a a' → i.Near s k' →
      (f a s).Tells i N (g a s.cursor) (g' a' k')) :
    (x.bind f).Tells i N (y.bind g) (y'.bind g') := by
  cases x with
  | matched a s =>
    obtain ⟨rfl, a', k', rfl, hm, hs⟩ := h
    exact hf a a' s k' rfl rfl hm hs
  | refused =>
    obtain ⟨rfl, rfl⟩ := h
    exact ⟨rfl, rfl⟩
  | lost => trivial

theorem Tells.cases {x : Sight α} {y y' : Reply α} {f : α → Spot → Sight β}
    {g g' : α → Cursor → Reply β} {z : Sight β} {w w' : Reply β} (h : x.Tells i M y y')
    (hf : ∀ a a' s k', x = .matched a s → y' = .matched a' k' → M a a' → i.Near s k' →
      (f a s).Tells i N (g a s.cursor) (g' a' k'))
    (hz : z.Tells i N w w') : (x.cases f z).Tells i N (y.cases g w) (y'.cases g' w') := by
  cases x with
  | matched a s =>
    obtain ⟨rfl, a', k', rfl, hm, hs⟩ := h
    exact hf a a' s k' rfl rfl hm hs
  | refused =>
    obtain ⟨rfl, rfl⟩ := h
    exact hz
  | lost => trivial

theorem Tells.mono {M' : α → α → Prop} {x : Sight α} {y y' : Reply α} (h : x.Tells i M y y')
    (hM : ∀ a a', M a a' → M' a a') : x.Tells i M' y y' := by
  cases x with
  | matched a s =>
    obtain ⟨hy, a', k', hy', hm, hs⟩ := h
    exact ⟨hy, a', k', hy', hM a a' hm, hs⟩
  | refused => exact h
  | lost => trivial

theorem tells_matched {a a' : α} {s : Spot} {k' : Cursor} (hm : M a a') (hs : i.Near s k') :
    (Sight.matched a s).Tells i M (.matched a s.cursor) (.matched a' k') :=
  ⟨rfl, a', k', rfl, hm, hs⟩

/-- A watched match is a match of the plain run. -/
theorem Tells.eq_matched {x : Sight α} {y y' : Reply α} (h : x.Tells i M y y') {a : α} {s : Spot}
    (hx : x = .matched a s) : y = .matched a s.cursor := by
  subst hx
  exact h.1

/-- Two matches have values that `M` relates and stop at the same place. -/
theorem Tells.related {x : Sight α} {y y' : Reply α} (h : x.Tells i M y y') {a a' : α} {s : Spot}
    {k' : Cursor} (hx : x = .matched a s) (hy : y' = .matched a' k') : M a a' ∧ i.Near s k' := by
  subst hx
  obtain ⟨-, b, k, he, hm, hs⟩ := h
  rw [hy] at he
  cases he
  exact ⟨hm, hs⟩

/-- A repetition, which may take more rounds with the insertion than without it. -/
theorem Tells.repeated {x : Spot → Sight α} {y : Cursor → Reply α}
    (hreach : ∀ k a k', y k = .matched a k' → k.Reaches k')
    (hx : ∀ s k', i.Near s k' → (x s).Tells i M (y s.cursor) (y k')) {n n' : Nat}
    {found found' : List α} {s : Spot} {k' : Cursor} (hs : i.Near s k')
    (hn : s.cursor.rest.length ≤ n) (hn' : k'.rest.length ≤ n')
    (hfound : List.Forall₂ M found found') :
    (Sight.repeated i x n found s).Tells i (List.Forall₂ M)
      (Reply.repeated y n found s.cursor) (Reply.repeated y n' found' k') := by
  have hreverse := List.rel_reverse hfound
  induction n generalizing found found' s k' n' with
  | zero =>
    unfold Sight.repeated
    split
    · trivial
    · rename_i hf
      have hend : s.cursor.atEnd = true := by
        rw [Cursor.atEnd, List.isEmpty_iff]
        exact List.eq_nil_of_length_eq_zero (Nat.le_zero.1 hn)
      rw [Reply.repeated_of_end ((hs.atEnd_eq (by simpa using hf)).trans hend)]
      exact tells_matched hreverse hs
  | succ n ih =>
    unfold Sight.repeated
    split
    · trivial
    rename_i hf
    have hf : i.faces s = false := by simpa using hf
    have hatEnd := hs.atEnd_eq hf
    split
    · rename_i hend
      rw [Reply.repeated_of_end hend, Reply.repeated_of_end (hatEnd.trans hend)]
      exact tells_matched hreverse hs
    · rename_i hend
      obtain ⟨n', rfl⟩ : ∃ l, n' = l + 1 := by
        refine ⟨n' - 1, ?_⟩
        have hne : k'.rest ≠ [] := by
          intro he
          rw [← hatEnd, Cursor.atEnd, he] at hend
          exact hend rfl
        have := List.length_pos_iff.2 hne
        omega
      rw [Reply.repeated, if_neg hend, Reply.repeated, hatEnd, if_neg hend]
      refine (hx s k' hs).cases (fun a a' s₁ k₁ hxs hyk hm hs₁ => ?_) (tells_matched hreverse hs)
      have hy := (hx s k' hs).eq_matched hxs
      have hsame := hs.offset_eq_iff hs₁ hf (hreach _ _ _ hy) (hreach _ _ _ hyk)
      have hcons : List.Forall₂ M (a :: found) (a' :: found') := .cons hm hfound
      by_cases ho : s₁.cursor.offset = s.cursor.offset
      · rw [if_pos ho, if_pos ho, if_pos (hsame.2 ho)]
        exact tells_matched (List.rel_reverse hcons) hs₁
      · rw [if_neg ho, if_neg ho, if_neg (fun h => ho (hsame.1 h))]
        have hlt := (hreach _ _ _ hy).lt_of_offset_ne ho
        have hlt' := (hreach _ _ _ hyk).lt_of_offset_ne fun h => ho (hsame.1 h)
        exact ih hs₁ (by omega) (by omega) hcons (List.rel_reverse hcons)

end Sight

section Expressions

variable {i : Insertion} {scan : T → List Char → Option Nat}
  {call : (r : R) → Spot → Sight (V r)} {reply : (r : R) → Cursor → Reply (V r)}
  {p : Expression T R V α} {q : Expression T R V β} {M : α → α → Prop} {N : β → β → Prop}

/-- Watching `p` tells of the runs without and with the insertion, wherever they start. -/
def Expression.Tells (i : Insertion) (scan : T → List Char → Option Nat)
    (call : (r : R) → Spot → Sight (V r)) (reply : (r : R) → Cursor → Reply (V r))
    (p : Expression T R V α) (M : α → α → Prop) : Prop :=
  ∀ s k', i.Near s k' → (p.watched i scan call s).Tells i M (p.answer scan reply s.cursor)
    (p.answer scan reply k')

/-- What a scanner takes without a watch. -/
def taken (scan? : List Char → Option Nat) (k : Cursor) : Reply Unit :=
  match scan? k.rest with
  | some n => .matched () (k.advance n)
  | none => .refused

theorem Insertion.take_tells (scan? : List Char → Option Nat) {s : Spot} {k' : Cursor}
    (hs : i.Near s k') :
    (i.take scan? s).Tells i Eq (taken scan? s.cursor) (taken scan? k') := by
  unfold Insertion.take taken
  split
  · trivial
  rename_i hf
  cases hs with
  | @ahead k hle hrest =>
    dsimp only
    cases hscan : scan? k.rest with
    | none =>
      cases hscan' : scan? (i.restFrom k.offset) with
      | none => exact ⟨rfl, rfl⟩
      | some n => trivial
    | some n =>
      dsimp only
      by_cases htake : scan? (i.restFrom k.offset) = some n ∧ k.offset + n ≤ i.place
      · rw [if_neg Bool.false_ne_true, if_pos htake, htake.1]
        exact Sight.tells_matched rfl (near_advance_ahead hrest htake.2)
      · rw [if_neg Bool.false_ne_true, if_neg htake]
        trivial
  | @past k _ hle hrest hoffset hline =>
    dsimp only
    rw [hrest]
    cases scan? k.rest with
    | none => exact ⟨rfl, rfl⟩
    | some n => exact Sight.tells_matched rfl (near_advance_past (.past hle hrest hoffset hline) n)

theorem Expression.answer_text_eq (x : List Char) (k : Cursor) :
    (Expression.text x : Expression T R V Unit).answer scan reply k = taken (textLength? x) k := by
  unfold answer taken textLength?
  split <;> rfl

theorem tells_text (x : List Char) :
    (Expression.text x : Expression T R V Unit).Tells i scan call reply Eq := by
  intro s k' hs
  rw [Expression.answer_text_eq, Expression.answer_text_eq]
  exact i.take_tells _ hs

theorem tells_token (t : T) :
    (Expression.token t : Expression T R V Unit).Tells i scan call reply Eq :=
  fun _ _ hs => i.take_tells (scan t) hs

/-- The first symbol of a table, or what comes of the rest of the table. -/
theorem Expression.answer_symbol_cons (x : Symbol α) (xs : List (Symbol α)) (k : Cursor) :
    (Expression.symbol (x :: xs) : Expression T R V α).answer scan reply k =
      (taken x.length? k).cases (fun _ => .matched x.value)
        ((Expression.symbol xs : Expression T R V α).answer scan reply k) := by
  unfold answer taken Symbol.length?
  rw [firstSymbol]
  cases x.take? k.rest <;> rfl

theorem tells_symbol (table : List (Symbol α)) :
    (Expression.symbol table : Expression T R V α).Tells i scan call reply Eq := by
  intro s k' hs
  induction table with
  | nil => exact ⟨rfl, rfl⟩
  | cons x xs ih =>
    rw [Expression.answer_symbol_cons, Expression.answer_symbol_cons]
    exact (i.take_tells _ hs).cases (fun _ _ _ _ _ _ _ h => Sight.tells_matched rfl h) ih

theorem Expression.Tells.both (hp : p.Tells i scan call reply M)
    (hq : q.Tells i scan call reply N) :
    (p.both q).Tells i scan call reply fun x x' => M x.1 x'.1 ∧ N x.2 x'.2 := by
  intro s k' hs
  refine (hp s k' hs).bind fun a a' s₁ k₁ _ _ hm hs₁ => ?_
  refine (hq s₁ k₁ hs₁).bind fun b b' s₂ k₂ _ _ hn hs₂ => ?_
  exact Sight.tells_matched ⟨hm, hn⟩ hs₂

theorem Expression.Tells.either {q : Expression T R V α} (hp : p.Tells i scan call reply M)
    (hq : q.Tells i scan call reply M) : (p.either q).Tells i scan call reply M :=
  fun s k' hs => (hp s k' hs).cases (fun _ _ _ _ _ _ hm h => Sight.tells_matched hm h) (hq s k' hs)

theorem Expression.Tells.option (hp : p.Tells i scan call reply M) :
    p.option.Tells i scan call reply (Option.Rel M) := by
  intro s k' hs
  unfold Expression.watched
  split
  · trivial
  rename_i hf
  have hatEnd := hs.atEnd_eq (by simpa using hf)
  unfold Expression.answer
  rw [hatEnd]
  split
  · exact Sight.tells_matched .none hs
  · exact (hp s k' hs).cases (fun _ _ _ _ _ _ hm h => Sight.tells_matched (.some hm) h)
      (Sight.tells_matched .none hs)

theorem Expression.Tells.many (hreach : ∀ r k a k', reply r k = .matched a k' → k.Reaches k')
    (hp : p.Tells i scan call reply M) : p.many.Tells i scan call reply (List.Forall₂ M) :=
  fun _ _ hs => Sight.Tells.repeated (fun _ _ _ => Expression.answer_reaches hreach) hp hs
    (Nat.le_refl _) (Nat.le_refl _) .nil

theorem Expression.Tells.many1 (hreach : ∀ r k a k', reply r k = .matched a k' → k.Reaches k')
    (hp : p.Tells i scan call reply M) : p.many1.Tells i scan call reply (List.Forall₂ M) := by
  intro s k' hs
  unfold Expression.watched
  split
  · trivial
  rename_i hf
  have hf : i.faces s = false := by simpa using hf
  unfold Expression.answer
  rw [hs.atEnd_eq hf]
  split
  · exact ⟨rfl, rfl⟩
  refine (hp s k' hs).bind fun a a' s₁ k₁ hxs hyk hm hs₁ => ?_
  have hy := (hp s k' hs).eq_matched hxs
  have hone : List.Forall₂ M [a] [a'] := .cons hm .nil
  have hsame := hs.offset_eq_iff hs₁ hf (Expression.answer_reaches hreach hy)
    (Expression.answer_reaches hreach hyk)
  by_cases ho : s₁.cursor.offset = s.cursor.offset
  · rw [if_pos ho, if_pos ho, if_pos (hsame.2 ho)]
    exact Sight.tells_matched hone hs₁
  · rw [if_neg ho, if_neg ho, if_neg (fun h => ho (hsame.1 h))]
    exact Sight.Tells.repeated (fun _ _ _ => Expression.answer_reaches hreach) hp hs₁
      (Nat.le_refl _) (Nat.le_refl _) hone

theorem Expression.Tells.absent (hp : p.Tells i scan call reply M) :
    p.absent.Tells i scan call reply Eq :=
  fun s k' hs => (hp s k' hs).cases (fun _ _ _ _ _ _ _ _ => ⟨rfl, rfl⟩)
    (Sight.tells_matched rfl hs)

theorem Expression.Tells.ahead (hp : p.Tells i scan call reply M) :
    p.ahead.Tells i scan call reply Eq :=
  fun s k' hs => (hp s k' hs).bind fun _ _ _ _ _ _ _ _ => Sight.tells_matched rfl hs

/-- An action is told of from where it starts and what it is given. -/
theorem Expression.Tells.act (hp : p.Tells i scan call reply M) {f : Slice → α → β}
    (h : ∀ s k' s₁ k₁ a a', i.faces s = false → i.Near s k' → i.Near s₁ k₁ →
      p.watched i scan call s = .matched a s₁ → M a a' →
      N (f ⟨s.cursor, s₁.cursor.offset⟩ a) (f ⟨k', k₁.offset⟩ a')) :
    (Expression.act f p).Tells i scan call reply N := by
  intro s k' hs
  unfold Expression.watched
  split
  · trivial
  rename_i hf
  refine (hp s k' hs).bind fun a a' s₁ k₁ hx _ hm hs₁ => ?_
  exact Sight.tells_matched (h s k' s₁ k₁ a a' (by simpa using hf) hs hs₁ hx hm) hs₁

/-- Whatever the values are, both runs are refused or match at the same place. -/
theorem Expression.tells_end (hreach : ∀ r k a k', reply r k = .matched a k' → k.Reaches k')
    (hcall : ∀ r s k', i.Near s k' → (call r s).Tells i (fun _ _ => True) (reply r s.cursor)
      (reply r k'))
    (p : Expression T R V α) : p.Tells i scan call reply fun _ _ => True := by
  have forget {α : Type} {M : α → α → Prop} {p : Expression T R V α}
      (h : p.Tells i scan call reply M) : p.Tells i scan call reply fun _ _ => True :=
    fun s k' hs => (h s k' hs).mono fun _ _ _ => trivial
  induction p with
  | text x => exact forget (tells_text x)
  | symbol table => exact forget (tells_symbol table)
  | token t => exact forget (tells_token t)
  | rule r => exact hcall r
  | both p q ihp ihq => exact forget (ihp.both ihq)
  | either p q ihp ihq => exact ihp.either ihq
  | option p ih => exact forget ih.option
  | many p ih => exact forget (ih.many hreach)
  | many1 p ih => exact forget (ih.many1 hreach)
  | absent p ih => exact forget ih.absent
  | ahead p ih => exact forget ih.ahead
  | act f p ih => exact ih.act fun _ _ _ _ _ _ _ _ _ _ _ => trivial

theorem Expression.watched_both {s s' : Spot} {x : α × β} :
    (p.both q).watched i scan call s = .matched x s' ↔
      ∃ s₁, p.watched i scan call s = .matched x.1 s₁ ∧
        q.watched i scan call s₁ = .matched x.2 s' := by
  rw [watched]
  simp only [Sight.bind_eq_matched]
  constructor
  · rintro ⟨a, s₁, hp, b, s₂, hq, he⟩
    cases he
    exact ⟨s₁, hp, hq⟩
  · rintro ⟨s₁, hp, hq⟩
    exact ⟨x.1, s₁, hp, x.2, s', hq, rfl⟩

theorem Expression.watched_act {f : Slice → α → β} {s s' : Spot} {b : β} :
    (Expression.act f p).watched i scan call s = .matched b s' ↔
      i.faces s = false ∧ ∃ a, p.watched i scan call s = .matched a s' ∧
        b = f ⟨s.cursor, s'.cursor.offset⟩ a := by
  rw [watched]
  cases i.faces s with
  | true => simp
  | false =>
    simp only [Bool.false_eq_true, if_false, true_and, Sight.bind_eq_matched]
    constructor
    · rintro ⟨a, s₁, hp, he⟩
      cases he
      exact ⟨a, hp, rfl⟩
    · rintro ⟨a, hp, rfl⟩
      exact ⟨a, s', hp, rfl⟩

/-- Only rules of a given kind are read. -/
def Expression.calm (rule : R → Bool) : {α : Type} → Expression T R V α → Bool
  | _, .text _ | _, .symbol _ | _, .token _ | _, .absent _ | _, .ahead _ => true
  | _, .rule r => rule r
  | _, .both p q => p.calm rule && q.calm rule
  | _, .either p q => p.calm rule && q.calm rule
  | _, .option p | _, .many p | _, .many1 p | _, .act _ p => p.calm rule

theorem Insertion.past_of_take {scan? : List Char → Option Nat} {s s' : Spot} {u : Unit}
    (h : i.take scan? s = .matched u s') : s'.past = s.past := by
  unfold Insertion.take at h
  split at h
  · cases h
  split at h
  · split at h <;> cases h
  · split at h
    · rename_i hpast
      cases h
      exact hpast.symm
    · rename_i hpast
      split at h
      · cases h
        simpa using hpast
      · cases h

theorem Insertion.past_of_takeSymbol {table : List (Symbol α)} {s s' : Spot} {a : α}
    (h : i.takeSymbol table s = .matched a s') : s'.past = s.past := by
  induction table with
  | nil => cases h
  | cons x xs ih =>
    rcases Sight.cases_eq_matched.1 h with ⟨u, s₁, hx, he⟩ | ⟨_, h⟩
    · cases he
      exact i.past_of_take hx
    · exact ih h

theorem Sight.past_of_repeated {x : Spot → Sight α} {n : Nat} {found as : List α} {s s' : Spot}
    (hx : ∀ s a s', x s = .matched a s' → s'.past = s.past)
    (h : Sight.repeated i x n found s = .matched as s') : s'.past = s.past := by
  induction n generalizing found s with
  | zero =>
    unfold Sight.repeated at h
    split at h
    · cases h
    · cases h
      rfl
  | succ n ih =>
    unfold Sight.repeated at h
    split at h
    · cases h
    split at h
    · cases h
      rfl
    rcases Sight.cases_eq_matched.1 h with ⟨a, s₁, hxs, he⟩ | ⟨_, he⟩
    · split at he
      · cases he
        exact hx _ _ _ hxs
      · exact (ih he).trans (hx _ _ _ hxs)
    · cases he
      rfl

/-- Tokens do not pass the insertion, so only rules can. -/
theorem Expression.past_of_calm {rule : R → Bool}
    (hcall : ∀ r s a s', rule r = true → call r s = .matched a s' → s'.past = s.past)
    (hp : p.calm rule = true) {s s' : Spot} {a : α}
    (h : p.watched i scan call s = .matched a s') : s'.past = s.past := by
  induction p generalizing s s' with
  | text x => exact i.past_of_take h
  | symbol table => exact i.past_of_takeSymbol h
  | token t => exact i.past_of_take h
  | rule r => exact hcall r s a s' hp h
  | both p q ihp ihq =>
    obtain ⟨hp, hq⟩ := Bool.and_eq_true_iff.1 hp
    obtain ⟨s₁, hx, hy⟩ := Expression.watched_both.1 h
    exact (ihq hq hy).trans (ihp hp hx)
  | either p q ihp ihq =>
    obtain ⟨hp, hq⟩ := Bool.and_eq_true_iff.1 hp
    rcases Sight.cases_eq_matched.1 h with ⟨a, s₁, hx, h⟩ | ⟨_, h⟩
    · cases h
      exact ihp hp hx
    · exact ihq hq h
  | option p ih =>
    unfold Expression.watched at h
    split at h
    · cases h
    split at h
    · cases h
      rfl
    rcases Sight.cases_eq_matched.1 h with ⟨a, s₁, hx, h⟩ | ⟨_, h⟩
    · cases h
      exact ih hp hx
    · cases h
      rfl
  | many p ih => exact Sight.past_of_repeated (fun _ _ _ => ih hp) h
  | many1 p ih =>
    unfold Expression.watched at h
    split at h
    · cases h
    split at h
    · cases h
    obtain ⟨a, s₁, hx, h⟩ := Sight.bind_eq_matched.1 h
    split at h
    · cases h
      exact ih hp hx
    · exact (Sight.past_of_repeated (fun _ _ _ => ih hp) h).trans (ih hp hx)
  | absent p ih =>
    rcases Sight.cases_eq_matched.1 h with ⟨a, s₁, hx, h⟩ | ⟨_, h⟩
    · cases h
    · cases h
      rfl
  | ahead p ih =>
    obtain ⟨a, s₁, hx, h⟩ := Sight.bind_eq_matched.1 h
    cases h
    rfl
  | act f p ih =>
    obtain ⟨_, a, hx, _⟩ := Expression.watched_act.1 h
    exact ih hp hx

end Expressions

end InkGauge.Peg
