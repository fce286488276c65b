/-!
The needles are given as strings because they are written out in the rules that look for them; the
text that is searched is a list of characters.
-/

namespace InkGauge.Text

/-- What is left of `s` after the text `p`, if it starts with it. -/
def dropPrefix? : List Char → List Char → Option (List Char)
  | [], s => some s
  | _ :: _, [] => none
  | p :: ps, c :: cs => if p = c then dropPrefix? ps cs else none

/-- Does `p` stand at the start of `s`? -/
def startsWith (p s : List Char) : Bool :=
  (dropPrefix? p s).isSome

/-- Does `p` stand at the end of `s`? -/
def endsWith (p s : List Char) : Bool :=
  startsWith p.reverse s.reverse

/-- Does `p` stand anywhere in `s`? -/
def occursIn (p : List Char) : List Char → Bool
  | [] => p.isEmpty
  | c :: cs => startsWith p (c :: cs) || occursIn p cs

/-- The text before the first `p` and the text after it. -/
def splitAt? (p : List Char) : List Char → Option (List Char × List Char)
  | [] => if p.isEmpty then some ([], []) else none
  | c :: cs =>
    match dropPrefix? p (c :: cs) with
    | some rest => some ([], rest)
    | none => (splitAt? p cs).map fun (before, rest) => (c :: before, rest)

theorem dropPrefix?_append (p s : List Char) : dropPrefix? p (p ++ s) = some s := by
  induction p with
  | nil => rfl
  | cons c p ih => simp [dropPrefix?, ih]

theorem dropPrefix?_eq_some {p s rest : List Char} (h : dropPrefix? p s = some rest) :
    s = p ++ rest := by
  induction p generalizing s with
  | nil => simpa [dropPrefix?] using h
  | cons c p ih =>
    cases s with
    | nil => simp [dropPrefix?] at h
    | cons d s =>
      by_cases hc : c = d
      · simp only [dropPrefix?, hc, if_true] at h
        rw [hc, ih h, List.cons_append]
      · simp [dropPrefix?, hc] at h

theorem startsWith_iff (p s : List Char) : startsWith p s = true ↔ p <+: s := by
  constructor
  · intro h
    obtain ⟨rest, hr⟩ := Option.isSome_iff_exists.1 h
    exact ⟨rest, (dropPrefix?_eq_some hr).symm⟩
  · rintro ⟨rest, rfl⟩
    simp [startsWith, dropPrefix?_append]

theorem occursIn_iff (p s : List Char) : occursIn p s = true ↔ p <:+: s := by
  induction s with
  | nil => simp [occursIn]
  | cons c s ih => simp [occursIn, startsWith_iff, ih, List.infix_cons_iff]

end InkGauge.Text

namespace String

/-- Does the text contain `needle`? -/
def has (text needle : String) : Bool :=
  InkGauge.Text.occursIn needle.toList text.toList

/-- Does the text start with `head`? -/
def opens (text head : String) : Bool :=
  InkGauge.Text.startsWith head.toList text.toList

/-- Does the text end with `tail`? -/
def closes (text tail : String) : Bool :=
  InkGauge.Text.endsWith tail.toList text.toList

end String
