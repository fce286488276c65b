import InkGauge.Probe.Emitter
import InkGauge.Proofs.Contract.Trivia

/-!
A string token is an opening quote and a `StringTail`, in which a backslash takes the character
behind it along. No string token is the start of another one, so a literal ends at its own closing
quote, whatever text it stands for and whatever follows it.

Escaping character by character comes to the same as three replacements one after another. The
backslashes go first, so that none which another replacement wrote is replaced. A literal can be
decoded, and of all texts that are one token on one line and decode to a given text it is the only
one.
-/

namespace InkGauge.Contract

open Grammar (lex)
open Peg (Cursor)
open Token (Cuts stringRest?)

/-- The text of a string behind its opening quote. -/
inductive StringTail : List Char → Prop where
  | close : StringTail ['"']
  | escape (c : Char) {s : List Char} (rest : StringTail s) : StringTail ('\\' :: c :: s)
  | char {c : Char} {s : List Char} (quote : c ≠ '"') (backslash : c ≠ '\\') (rest : StringTail s) :
      StringTail (c :: s)

theorem stringRest?_cons {c : Char} (hquote : c ≠ '"') (hbackslash : c ≠ '\\') (s : List Char) :
    stringRest? (c :: s) = (stringRest? s).map (· + 1) := by
  rw [stringRest?]
  · exact hquote
  · rintro d t rfl
    exact absurd rfl hbackslash
  · rintro rfl
    exact absurd rfl hbackslash

/-- A character that is `b` neither in front of another one nor at the end is not `b`. -/
theorem ne_of_unpaired {b c : Char} {s : List Char} (hpair : ∀ d t, c = b → s = d :: t → False)
    (hlast : c = b → s = [] → False) : c ≠ b := by
  intro hc
  cases s with
  | nil => exact hlast hc rfl
  | cons d s => exact hpair d s hc rfl

/-- A string is read up to its closing quote, whatever follows. -/
theorem StringTail.stringRest?_append {u : List Char} (h : StringTail u) (t : List Char) :
    stringRest? (u ++ t) = some u.length := by
  induction h with
  | close => rfl
  | escape c rest ih =>
    rw [List.cons_append, List.cons_append, stringRest?, ih]
    rfl
  | char quote backslash rest ih =>
    rw [List.cons_append, stringRest?_cons quote backslash, ih]
    rfl

/-- What is read is a string. -/
theorem cuts_stringTail {s : List Char} {n : Nat} (h : stringRest? s = some n) :
    Cuts s n StringTail := by
  fun_induction stringRest? s generalizing n with
  | case1 s =>
    cases h
    exact ⟨['"'], s, rfl, rfl, .close⟩
  | case2 c s ih =>
    obtain ⟨m, hm, rfl⟩ := Option.map_eq_some_iff.1 h
    obtain ⟨u, rest, rfl, rfl, hu⟩ := ih hm
    exact ⟨'\\' :: c :: u, rest, rfl, rfl, .escape c hu⟩
  | case3 => cases h
  | case4 c s hquote hpair hlast ih =>
    obtain ⟨m, hm, rfl⟩ := Option.map_eq_some_iff.1 h
    exact (ih hm).cons fun _ hu => .char hquote (ne_of_unpaired hpair hlast) hu
  | case5 => cases h

/-- The start of a string is no string. -/
theorem StringTail.stringRest?_prefix {p u : List Char} (h : StringTail u) (hp : p <+: u)
    (hne : p ≠ u) : stringRest? p = none := by
  obtain ⟨t, rfl⟩ := hp
  cases hread : stringRest? p with
  | none => rfl
  | some n =>
    -- The same would be read in the whole string, of which it is less.
    obtain ⟨v, rest, rfl, -, hv⟩ := cuts_stringTail hread
    have hwhole := h.stringRest?_append []
    rw [List.append_nil, List.append_assoc, hv.stringRest?_append] at hwhole
    have hrest : rest = [] ∧ t = [] := by simpa using hwhole
    simp [hrest.2] at hne

theorem StringTail.of_escape {c : Char} {s : List Char} (h : StringTail ('\\' :: c :: s)) :
    StringTail s := by
  cases h with
  | escape _ rest => exact rest
  | char _ backslash _ => exact absurd rfl backslash

theorem StringTail.of_char {c : Char} {s : List Char} (h : StringTail (c :: s)) (hc : c ≠ '\\')
    (hs : s ≠ []) : c ≠ '"' ∧ StringTail s := by
  cases h with
  | close => exact absurd rfl hs
  | escape _ _ => exact absurd rfl hc
  | char quote _ rest => exact ⟨quote, rest⟩

theorem scan_string_quote (s : List Char) :
    grammar.scan .string ('"' :: s) = (stringRest? s).map (· + 1) := rfl

namespace StringTail

variable {u : List Char}

/-- The rule for strings reads a string to its end, wherever it stands. -/
theorem matchEnd?_eq (h : StringTail u) (before behind : List Char) :
    matchEnd? (.lex .stringLit) (before ++ ('"' :: u ++ behind)) before.length =
      some (before.length + ('"' :: u).length) := by
  refine matchEnd?_of_reads (reads_lex (Peg.Grammar.reads_token ?_)) before
  rw [List.cons_append, scan_string_quote, h.stringRest?_append]
  rfl

/-- The rule for strings refuses the start of a string. -/
theorem matchEnd?_prefix (h : StringTail u) {p : List Char} (hp : p <+: '"' :: u)
    (hne : p ≠ '"' :: u) : matchEnd? (.lex .stringLit) p 0 = none := by
  refine matchEnd?_of_refuses (refuses_lex (Peg.Grammar.refuses_token ?_))
  rw [List.drop_zero]
  rcases List.prefix_cons_iff.1 hp with rfl | ⟨q, rfl, hq⟩
  · rfl
  · rw [scan_string_quote, h.stringRest?_prefix hq fun heq => hne (heq ▸ rfl)]
    rfl

end StringTail

/-- A quote opens a string that goes to the end of the text exactly if a string's tail follows. -/
theorem matchEnd?_stringLit_iff {u : List Char} :
    matchEnd? (.lex .stringLit) ('"' :: u) 0 = some ('"' :: u).length ↔ StringTail u := by
  constructor
  · intro h
    obtain ⟨a, k, hreply, -, hend⟩ := exists_reply_of_matchEnd? h
    rw [grammar_total.reply_eq] at hreply
    obtain ⟨n, hn, rfl⟩ := Peg.Expression.answer_token.1 hreply
    obtain ⟨m, hm, rfl⟩ := Option.map_eq_some_iff.1 ((scan_string_quote u).symm.trans hn)
    obtain ⟨v, rest, rfl, rfl, hv⟩ := cuts_stringTail hm
    obtain rfl : rest = [] := by simpa [Cursor.start] using hend
    rwa [List.append_nil]
  · intro h
    simpa using h.matchEnd?_eq [] []

end InkGauge.Contract

namespace InkGauge.Probe

open Contract (StringTail matchEnd? matchEnd?_stringLit_iff ne_of_unpaired)

/-- Every `c` of a text replaced by `w`. -/
def replaceAll (c : Char) (w s : List Char) : List Char :=
  s.flatMap fun d => if d = c then w else [d]

theorem replaceAll_cons_self (c : Char) (w s : List Char) :
    replaceAll c w (c :: s) = w ++ replaceAll c w s := by
  simp [replaceAll]

theorem replaceAll_cons_of_ne {c d : Char} (h : d ≠ c) (w s : List Char) :
    replaceAll c w (d :: s) = d :: replaceAll c w s := by
  simp [replaceAll, h]

/-- Backslashes, quotes and line feeds are replaced one after another. -/
theorem escapeLiteral_eq_replaceAll (s : List Char) : escapeLiteral s =
    replaceAll '\n' ['\\', 'n'] (replaceAll '"' ['\\', '"'] (replaceAll '\\' ['\\', '\\'] s)) := by
  fun_induction escapeLiteral s with
  | case1 => rfl
  | case2 s ih | case3 s ih | case4 s ih => simp [replaceAll_cons_self, replaceAll_cons_of_ne, ih]
  | case5 c s hbackslash hquote hfeed ih =>
    rw [replaceAll_cons_of_ne hbackslash, replaceAll_cons_of_ne hquote, replaceAll_cons_of_ne hfeed,
      ih]

/-- The character that a backslash and the given one stand for. -/
def unescapeChar? : Char → Option Char
  | '\\' => some '\\'
  | '"' => some '"'
  | 'n' => some '\n'
  | _ => none

/-- The text that the inside of a literal stands for. -/
def unescape? : List Char → Option (List Char)
  | [] => some []
  | '\\' :: c :: s => (unescapeChar? c).bind fun d => (unescape? s).map (d :: ·)
  | '\\' :: [] => none
  | c :: s => (unescape? s).map (c :: ·)

theorem unescape?_escapeLiteral (s : List Char) : unescape? (escapeLiteral s) = some s := by
  fun_induction escapeLiteral s with
  | case1 => rfl
  | case2 s ih | case3 s ih | case4 s ih => simp [unescape?, unescapeChar?, ih]
  | case5 c s hbackslash hquote hfeed ih =>
    rw [unescape?, ih]
    · rfl
    · rintro d t rfl
      exact absurd rfl hbackslash
    · rintro rfl
      exact absurd rfl hbackslash

theorem lineFeed_notMem_escapeLiteral (s : List Char) : '\n' ∉ escapeLiteral s := by
  fun_induction escapeLiteral s with
  | case1 => simp
  | case2 s ih | case3 s ih | case4 s ih => simp [ih]
  | case5 c s hbackslash hquote hfeed ih =>
    rw [List.mem_cons, not_or]
    exact ⟨Ne.symm hfeed, ih⟩

/-- Between quotes, an escaped text is a string to its end. -/
theorem stringTail_escapeLiteral (s : List Char) : StringTail (escapeLiteral s ++ ['"']) := by
  fun_induction escapeLiteral s with
  | case1 => exact .close
  | case2 s ih | case3 s ih | case4 s ih => exact .escape _ ih
  | case5 c s hbackslash hquote hfeed ih => exact .char hquote hbackslash ih

theorem escapeLiteral_of_unescapeChar? {c d : Char} (h : unescapeChar? c = some d)
    (s : List Char) : escapeLiteral (d :: s) = '\\' :: c :: escapeLiteral s := by
  unfold unescapeChar? at h
  split at h <;> cases h <;> rfl

/-- Only the escaped text stands for a text, without a line feed, in a string. -/
theorem eq_escapeLiteral {u s : List Char} (htail : StringTail (u ++ ['"'])) (hline : '\n' ∉ u)
    (h : unescape? u = some s) : u = escapeLiteral s := by
  fun_induction unescape? u generalizing s with
  | case1 =>
    cases h
    rfl
  | case2 c u ih =>
    obtain ⟨d, hd, h⟩ := Option.bind_eq_some_iff.1 h
    obtain ⟨s, hs, rfl⟩ := Option.map_eq_some_iff.1 h
    simp only [List.mem_cons, not_or] at hline
    rw [escapeLiteral_of_unescapeChar? hd, ← ih htail.of_escape hline.2.2 hs]
  | case3 => cases h
  | case4 c u hpair hlast ih =>
    obtain ⟨s, hs, rfl⟩ := Option.map_eq_some_iff.1 h
    rw [List.mem_cons, not_or] at hline
    have hbackslash : c ≠ '\\' := ne_of_unpaired hpair hlast
    obtain ⟨hquote, hrest⟩ := htail.of_char hbackslash (by simp)
    rw [escapeLiteral, ← ih hrest hline.2 hs]
    · exact hbackslash
    · exact hquote
    · exact Ne.symm hline.1

theorem toList_stringLiteral (s : String) :
    (stringLiteral s).toList = '"' :: (escapeLiteral s.toList ++ ['"']) := by
  simp [stringLiteral]

/-- The first text is a single string token, on one line, that stands for the second. -/
structure IsLiteralOf (w s : List Char) : Prop where
  whole : matchEnd? (.lex .stringLit) w 0 = some w.length
  least : ∀ p, p <+: w → p ≠ w → matchEnd? (.lex .stringLit) p 0 = none
  line : '\n' ∉ w
  decodes : ∃ u, w = '"' :: (u ++ ['"']) ∧ unescape? u = some s

theorem isLiteralOf_stringLiteral (s : String) :
    IsLiteralOf (stringLiteral s).toList s.toList := by
  have htail := stringTail_escapeLiteral s.toList
  rw [toList_stringLiteral]
  refine ⟨matchEnd?_stringLit_iff.2 htail, fun p => htail.matchEnd?_prefix, ?_, _, rfl,
    unescape?_escapeLiteral s.toList⟩
  simpa using lineFeed_notMem_escapeLiteral s.toList

theorem IsLiteralOf.eq_stringLiteral {w : List Char} {s : String} (h : IsLiteralOf w s.toList) :
    w = (stringLiteral s).toList := by
  obtain ⟨u, rfl, hu⟩ := h.decodes
  have htail : StringTail (u ++ ['"']) := matchEnd?_stringLit_iff.1 h.whole
  have hline : '\n' ∉ u := fun hmem => h.line (by simp [hmem])
  rw [toList_stringLiteral, ← eq_escapeLiteral htail hline hu]

/-- What is written for a text is a literal of it, and there is no other one. In any code it is read
as a single token. Its inside is the text with the backslashes, then the quotes and then the line
feeds replaced. -/
theorem stringLiteral_faithful (s : String) :
    IsLiteralOf (stringLiteral s).toList s.toList ∧
    (∀ w, IsLiteralOf w s.toList → w = (stringLiteral s).toList) ∧
    (∀ before behind : List Char,
      matchEnd? (.lex .stringLit) (before ++ ((stringLiteral s).toList ++ behind)) before.length =
        some (before.length + (stringLiteral s).toList.length)) ∧
    (stringLiteral s).toList = '"' :: (replaceAll '\n' ['\\', 'n'] (replaceAll '"' ['\\', '"']
      (replaceAll '\\' ['\\', '\\'] s.toList)) ++ ['"']) := by
  refine ⟨isLiteralOf_stringLiteral s, fun w h => h.eq_stringLiteral, fun before behind => ?_, ?_⟩
  · rw [toList_stringLiteral]
    exact (stringTail_escapeLiteral s.toList).matchEnd?_eq before behind
  · rw [toList_stringLiteral, escapeLiteral_eq_replaceAll]

/-- A backslash in front of an `n`, a quote and a line feed. -/
def mixedText : String := "\\n\"\n"

theorem stringLiteral_faithful_mixedText :
    IsLiteralOf ['"', '\\', '\\', 'n', '\\', '"', '\\', 'n', '"'] mixedText.toList ∧
    ['"', '\\', '\\', 'n', '\\', '"', '\\', 'n', '"'] = (stringLiteral mixedText).toList ∧
    matchEnd? (.lex .stringLit)
      (['(', '"', '\\', '\\', 'n', '\\', '"', '\\', 'n', '"'] ++ [',', '"', '"', ')']) 1 =
        some 10 := by
  obtain ⟨hliteral, hunique, hread, hpasses⟩ := stringLiteral_faithful mixedText
  have htext : (stringLiteral mixedText).toList =
      ['"', '\\', '\\', 'n', '\\', '"', '\\', 'n', '"'] := by
    rw [hpasses]
    rfl
  rw [htext] at hliteral hread
  exact ⟨hliteral, hunique _ hliteral, hread ['('] [',', '"', '"', ')']⟩

end InkGauge.Probe
