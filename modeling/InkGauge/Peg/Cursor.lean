/-!
Offsets, lines and columns count characters. A cursor carries the text that is still to be read, so
that a place can be matched against without going back to the whole text.
-/

namespace InkGauge.Peg

/-- A place in a text. Lines end at a line feed; the first line and the first column are 1. -/
structure Cursor where
  offset : Nat
  line : Nat
  column : Nat
  rest : List Char

namespace Cursor

def start (text : List Char) : Cursor := ⟨0, 1, 1, text⟩

/-- One character on; the end of the text stays where it is. -/
def next (k : Cursor) : Cursor :=
  match k.rest with
  | [] => k
  | c :: cs =>
    if c = '\n' then ⟨k.offset + 1, k.line + 1, 1, cs⟩
    else ⟨k.offset + 1, k.line, k.column + 1, cs⟩

def advance : Nat → Cursor → Cursor
  | 0, k => k
  | n + 1, k => advance n k.next

def atEnd (k : Cursor) : Bool := k.rest.isEmpty

@[simp] theorem rest_next (k : Cursor) : k.next.rest = k.rest.tail := by
  rcases k with ⟨o, l, c, _ | ⟨d, ds⟩⟩
  · rfl
  · unfold next
    dsimp
    split <;> rfl

@[simp] theorem rest_advance (n : Nat) (k : Cursor) : (advance n k).rest = k.rest.drop n := by
  induction n generalizing k with
  | zero => rfl
  | succ n ih => simp [advance, ih]

theorem offset_next {k : Cursor} (h : k.rest ≠ []) : k.next.offset = k.offset + 1 := by
  rcases k with ⟨o, l, c, _ | ⟨d, ds⟩⟩
  · exact absurd rfl h
  · unfold next
    dsimp
    split <;> rfl

theorem offset_advance {n : Nat} {k : Cursor} (h : n ≤ k.rest.length) :
    (advance n k).offset = k.offset + n := by
  induction n generalizing k with
  | zero => rfl
  | succ n ih =>
    have hk : k.rest ≠ [] := by
      intro he
      simp [he] at h
    have hn : n ≤ k.next.rest.length := by
      simp only [rest_next, List.length_tail]
      omega
    rw [advance, ih hn, offset_next hk]
    omega

end Cursor

/-- The text from a cursor up to an offset. -/
structure Slice where
  first : Cursor
  stop : Nat

def Slice.chars (s : Slice) : List Char :=
  s.first.rest.take (s.stop - s.first.offset)

end InkGauge.Peg
