import InkGauge.Proofs.Contract.Lexeme

/-!
The refusals that the reader runs into follow from the first character of a text, or from its first
word; the rules of the lexicon read the spellings of `Lexeme`.
-/

namespace InkGauge.Contract

open Text Grammar
open Peg (Look)

variable {α : Type}

/-- What may start with a given character. -/
def lookAt (c : Char) : Look Token where
  text x := x.head?.all (· == c)
  token x := x.idles || x.opens c

theorem sound_lookAt (c : Char) (t : List Char) : (lookAt c).Sound Token.scan (c :: t) where
  ne_nil := List.cons_ne_nil c t
  text x hx := by
    cases x with
    | nil => rfl
    | cons d x =>
      rw [List.cons_prefix_cons] at hx
      simp [lookAt, hx.1]
  token x n hn := by
    change (x.idles || x.opens c) = true
    cases hidle : x.idles with
    | true => rfl
    | false =>
      obtain ⟨_, d, v, hd, hopen⟩ := Token.scan_opens hidle hn
      cases hd
      rw [hopen]
      rfl

/-- What the first character of a text rules out is refused. -/
theorem refuses_at {c : Char} {p : P α} (n : Nat)
    (h : p.fate (lookAt c) (grammar.fate (lookAt c) n) = .refused) (t : List Char) :
    grammar.Refuses p (c :: t) :=
  grammar_total.refuses_of_fate (sound_lookAt c t) n h

/-- What may start with a part of a path. -/
def segmentLook : Look Token where
  text x := x.head?.all isIdentStart
  token
    | .word w => Token.selfWords.contains w || !Token.reservedWords.contains w
    | .commentText | .reserved | .name | .selfWord | .loose => true
    | _ => false

namespace Token

theorem opens_of_isWordSpelling {w : List Char} (hw : isWordSpelling w = true) (u : List Char) :
    Opens isIdentStart (w ++ u) := by
  cases w with
  | nil => cases hw
  | cons c w =>
    simp only [isWordSpelling, Bool.and_eq_true] at hw
    exact ⟨c, w ++ u, rfl, hw.1⟩

theorem mem_selfWords_of_reserved {w : List Char} (hw : isSegment w = true)
    (h : w ∈ reservedWords) : w ∈ selfWords := by
  rcases Bool.or_eq_true_iff.1 hw with hw | hw
  · simp [isName, h] at hw
  · simpa using hw

theorem underscore_append {w u : List Char} (hw : isSegment w = true) :
    scan .underscore (w ++ u) = none := by
  have hspelling := isWordSpelling_of_isSegment hw
  have hall := isIdentPart_of_isWordSpelling hspelling
  match w, hspelling with
  | [c], _ =>
    have hc : c ≠ '_' := by
      rintro rfl
      exact absurd hw (by decide)
    simp only [scan, List.cons_append]
    split
    · rename_i heq
      cases heq
      exact absurd rfl hc
    · rfl
  | c :: d :: w, _ =>
    simp only [scan, List.cons_append]
    split
    · rename_i heq
      cases heq
      simp [hall d (by simp)]
    · rfl

theorem isDigit_of_isIdentStart {c : Char} (hc : isIdentStart c = true) : c.isDigit = false := by
  delta isIdentStart Char.isAlpha Char.isUpper Char.isLower at hc
  simp only [Bool.or_eq_true, Bool.and_eq_true, decide_eq_true_eq, beq_iff_eq,
    UInt32.le_iff_toNat_le, ge_iff_le] at hc
  change (65 ≤ c.toNat ∧ c.toNat ≤ 90 ∨ 97 ≤ c.toNat ∧ c.toNat ≤ 122) ∨ c = '_' at hc
  rcases hc with hc | rfl
  · simp only [Char.isDigit, Bool.and_eq_false_iff, decide_eq_false_iff_not,
      UInt32.le_iff_toNat_le, ge_iff_le]
    change ¬48 ≤ c.toNat ∨ ¬c.toNat ≤ 57
    omega
  · decide

theorem gap_of_isIdentStart {c : Char} (hc : isIdentStart c = true) :
    Token.gap.opens c = false := by
  have hpart := isIdentPart_of_isIdentStart hc
  have hslash := eq_false_of_not_identPart (d := '/') (by decide) c hpart
  have hspace : isSpace c = false := by
    have hblank := isBlank_of_isIdentPart hpart
    exact Bool.eq_false_iff.2 fun h => Bool.false_ne_true (hblank.symm.trans (isBlank_of_isSpace h))
  simp [Token.opens, hspace, hslash]

/-- A class of characters that start no identifier is not met at a word. -/
theorem scan_ne_some {t : Token} (ht : t.idles = false)
    (hC : ∀ c, isIdentStart c = true → t.opens c = false) {w u : List Char}
    (hw : isWordSpelling w = true) (n : Nat) : scan t (w ++ u) ≠ some n := by
  intro h
  obtain ⟨_, c, v, hc, hopen⟩ := scan_opens ht h
  obtain ⟨d, v', hd, hstart⟩ := opens_of_isWordSpelling hw u
  rw [hc] at hd
  cases hd
  rw [hC c hstart] at hopen
  cases hopen

end Token

open Token

theorem sound_segmentLook {w u : List Char} (hw : isSegment w = true) (hu : Breaks u) :
    segmentLook.Sound Token.scan (w ++ u) where
  ne_nil := by
    obtain ⟨c, v, hc, _⟩ := opens_of_isWordSpelling (isWordSpelling_of_isSegment hw) u
    rw [hc]
    exact List.cons_ne_nil c v
  text x hx := by
    obtain ⟨c, v, hc, hstart⟩ := opens_of_isWordSpelling (isWordSpelling_of_isSegment hw) u
    cases x with
    | nil => rfl
    | cons d x =>
      rw [hc, List.cons_prefix_cons] at hx
      simp [segmentLook, hx.1, hstart]
  token x n hn := by
    have hspelling := isWordSpelling_of_isSegment hw
    have hall := isIdentPart_of_isWordSpelling hspelling
    cases x with
    | commentText | reserved | name | selfWord | loose => rfl
    | word x =>
      by_cases hx : x ∈ reservedWords
      · have hpart : ∀ x ∈ reservedWords, x.all isIdentPart = true := by decide
        have heq := (eq_of_wordLength (by simpa using hpart x hx) hspelling hu hn).2
        rw [List.mem_singleton.1 heq] at hw
        simp [segmentLook, mem_selfWords_of_reserved hw hx]
      · simp [segmentLook, hx]
    | truth =>
      have hmem := (eq_of_wordLength (by decide) hspelling hu hn).2
      have hself : ∀ w ∈ truthWords, isSegment w = false := by decide
      rw [hself w hmem] at hw
      cases hw
    | underscore =>
      rw [underscore_append hw] at hn
      cases hn
    | character | string | rawString =>
      rw [scan_quoted_append (by simp) hall hu] at hn
      cases hn
    | gap => exact absurd hn (scan_ne_some rfl (fun _ => gap_of_isIdentStart) hspelling n)
    | lifetime =>
      refine absurd hn (scan_ne_some rfl (fun c hc => ?_) hspelling n)
      exact eq_false_of_not_identPart (by decide) c (isIdentPart_of_isIdentStart hc)
    | number => exact absurd hn (scan_ne_some rfl (fun _ => isDigit_of_isIdentStart) hspelling n)
    | digits => exact absurd hn (scan_ne_some rfl (fun _ => isDigit_of_isIdentStart) hspelling n)

/-- What the first word of a text rules out is refused. -/
theorem refuses_word {w u : List Char} (hw : isSegment w = true) (hu : Breaks u) {p : P α} (n : Nat)
    (h : p.fate segmentLook (grammar.fate segmentLook n) = .refused) :
    grammar.Refuses p (w ++ u) :=
  grammar_total.refuses_of_fate (sound_segmentLook hw hu) n h

section Rules

variable {s t : List Char}

theorem reads_lex {r : LexRule} {Q : r.Value → Prop} (h : grammar.Reads (lexBody r) s t Q) :
    grammar.Reads (lex r) s t Q := grammar_total.reads_rule (r := .lex r) h

theorem refuses_lex {r : LexRule} (h : grammar.Refuses (lexBody r) t) :
    grammar.Refuses (lex r) t := grammar_total.refuses_rule (r := .lex r) h

theorem reads_exp {r : ExprRule} {Q : r.Value → Prop} (h : grammar.Reads (exprBody r) s t Q) :
    grammar.Reads (exp r) s t Q := grammar_total.reads_rule (r := .expr r) h

theorem refuses_exp {r : ExprRule} (h : grammar.Refuses (exprBody r) t) :
    grammar.Refuses (exp r) t := grammar_total.refuses_rule (r := .expr r) h

theorem reads_pat {r : PatternRule} {Q : r.Value → Prop} (h : grammar.Reads (patternBody r) s t Q) :
    grammar.Reads (pat r) s t Q := grammar_total.reads_rule (r := .pattern r) h

theorem refuses_pat {r : PatternRule} (h : grammar.Refuses (patternBody r) t) :
    grammar.Refuses (pat r) t := grammar_total.refuses_rule (r := .pattern r) h

theorem reads_stm {r : StmtRule} {Q : r.Value → Prop} (h : grammar.Reads (stmtBody r) s t Q) :
    grammar.Reads (stm r) s t Q := grammar_total.reads_rule (r := .stmt r) h

theorem reads_itm {r : ItemRule} {Q : r.Value → Prop} (h : grammar.Reads (itemBody r) s t Q) :
    grammar.Reads (itm r) s t Q := grammar_total.reads_rule (r := .item r) h

end Rules

section Tokens

variable {g s t w : List Char}

/-- A token with the gap `g` behind it ends before `t`. -/
structure Parted (g t : List Char) : Prop where
  gap : g = [] ∨ g = [' ']
  fresh : noTrivia t = true

/-- A word or a number with the gap `g` behind it ends before `t`. -/
structure WordEnd (g t : List Char) : Prop extends Parted g t where
  breaks : Breaks (g ++ t)

theorem gapLength_of_noTrivia (ht : noTrivia t = true) : gapLength false t = 0 := by
  unfold gapLength
  split
  · rfl
  · cases ht
  · rename_i c s _
    have hspace : isSpace c = false := by
      unfold noTrivia at ht
      split at ht
      · rename_i heq
        cases heq
      · rename_i heq
        cases heq
        decide
      · rename_i heq
        cases heq
        simpa using ht
    simp [hspace]

theorem stops_trivia (ht : noTrivia t = true) :
    grammar.Refuses ((.token .gap : P Unit) <|> lex .blockComment) t := by
  refine .orElse (Peg.Grammar.refuses_token ?_) (refuses_lex ?_)
  · change some? (gapLength false t) = none
    rw [gapLength_of_noTrivia ht]
    rfl
  · refine .seqRight (.seqRight (Peg.Grammar.refuses_text ?_))
    rintro ⟨v, rfl⟩
    cases ht

theorem reads_trivia (h : Parted g t) : grammar.Reads trivia g t fun _ => True := by
  obtain ⟨hg, ht⟩ := h
  refine reads_lex (.act ?_)
  rcases hg with rfl | rfl
  · exact (stops_trivia ht).many.imp fun _ _ _ _ => trivial
  · have hblank : grammar.Reads (.token .gap : P Unit) [' '] t fun _ => True := by
      refine Peg.Grammar.reads_token ?_
      change some? (gapLength false (' ' :: t)) = some 1
      have hlength : gapLength false (' ' :: t) = gapLength false t + 1 := by
        rw [gapLength]
        · rfl
        · simp
      rw [hlength, gapLength_of_noTrivia ht]
      rfl
    have hmany := Peg.Grammar.ReadsMany.step (u := []) hblank.orElse (by simp)
      (.stop (.inl (stops_trivia ht)))
    exact hmany.many.imp fun _ _ _ _ => trivial

theorem reads_sym (x : String) (h : Parted g t) :
    grammar.Reads (sym x) (x.toList ++ g) t fun _ => True :=
  (Peg.Grammar.reads_text x.toList (g ++ t)).seqLeft (reads_trivia h)

theorem refuses_sym {x : String} (h : ¬x.toList <+: t) : grammar.Refuses (sym x) t :=
  (Peg.Grammar.refuses_text h).seqLeft

theorem reads_kw {x : String} (hx : isWordSpelling x.toList = true) (h : WordEnd g t) :
    grammar.Reads (kw x) (x.toList ++ g) t fun _ => True := by
  have hpart : [x.toList].all (·.all isIdentPart) = true := by
    simpa using isIdentPart_of_isWordSpelling hx
  refine reads_lex (.seqRight (Q := fun _ => True) (Peg.Grammar.reads_token ?_)
    (reads_trivia h.toParted))
  exact wordLength_of_mem hpart hx h.breaks (List.mem_singleton_self _)

/-- Text without a slash is in front of comments and not in one. -/
theorem blankComments_append (h : '/' ∉ s) (t : List Char) :
    blankComments .code (s ++ t) = s ++ blankComments .code t := by
  induction s with
  | nil => rfl
  | cons c s ih =>
    simp only [List.mem_cons, not_or] at h
    rw [List.cons_append, blankComments, ih h.2, List.cons_append]
    · rintro _ rfl
      exact absurd rfl h.1
    · rintro _ rfl
      exact absurd rfl h.1

theorem dropWhile_of_allInk (hw : AllInk w) : w.dropWhile isBlank = w := by
  cases w with
  | nil => rfl
  | cons c w => simp [hw c (by simp)]

theorem trim_append (hw : AllInk w) (hg : ∀ c ∈ g, isBlank c = true) : trim (w ++ g) = w := by
  have hblank : ∀ c ∈ g.reverse, isBlank c = true := fun c hc => hg c (List.mem_reverse.1 hc)
  have hright : trimRight (w ++ g) = w := by
    rw [trimRight, List.reverse_append, List.dropWhile_append_of_pos hblank,
      dropWhile_of_allInk fun c hc => hw c (List.mem_reverse.1 hc), List.reverse_reverse]
  cases w with
  | nil =>
    have hleft : trimLeft g = [] := List.dropWhile_eq_nil_iff.2 hg
    rw [List.nil_append, trim, hleft]
    rfl
  | cons c w =>
    have hleft : trimLeft (c :: w ++ g) = c :: w ++ g := by simp [trimLeft, hw c (by simp)]
    rw [trim, hleft, hright]

/-- A word stays if nothing but comments and blanks follows it. -/
theorem stripTrivia_of_blank (hw : AllInk w) (hs : '/' ∉ w)
    (hg : ∀ c ∈ blankComments .code g, isBlank c = true) : stripTrivia (w ++ g) = w := by
  rw [stripTrivia, blankComments_append hs, trim_append hw hg]

theorem stripTrivia_append (hw : AllInk w) (hs : '/' ∉ w) (hg : g = [] ∨ g = [' ']) :
    stripTrivia (w ++ g) = w := by
  apply stripTrivia_of_blank hw hs
  rcases hg with rfl | rfl <;> simp [blankComments, show isBlank ' ' = true by decide]

theorem stripTrivia_word (hw : ∀ c ∈ w, isIdentPart c = true) (hg : g = [] ∨ g = [' ']) :
    stripTrivia (w ++ g) = w := by
  refine stripTrivia_append (fun c hc => isBlank_of_isIdentPart (hw c hc)) (fun h => ?_) hg
  exact absurd (hw '/' h) (by decide)

theorem reads_ident (hw : isName w = true) (h : WordEnd g t) :
    grammar.Reads (lex .ident) (w ++ g) t (· = String.ofList w) := by
  have hspelling := isWordSpelling_of_isName hw
  simp only [isName, Bool.and_eq_true, bne_iff_ne, Bool.not_eq_true', ← Bool.not_eq_true,
    List.contains_iff_mem] at hw
  have hreserved : grammar.Refuses (lex .reserved) (w ++ (g ++ t)) :=
    refuses_lex (Peg.Grammar.refuses_token
      (wordLength_of_not_mem (by decide) hspelling h.breaks hw.2))
  have hname : grammar.Reads (.token .name : P Unit) w (g ++ t) fun _ => True :=
    Peg.Grammar.reads_token (nameLength_append hspelling hw.1.2 h.breaks)
  refine reads_lex (.act ?_)
  refine ((hreserved.absent.seqRight hname).seqRight (reads_trivia h.toParted)).imp fun _ _ x hx => ?_
  rw [bareText, hx]
  exact congrArg String.ofList
    (stripTrivia_word (isIdentPart_of_isWordSpelling hspelling) h.gap)

theorem reads_pathIdent (hw : isSegment w = true) (h : WordEnd g t) :
    grammar.Reads (lex .pathIdent) (w ++ g) t (· = String.ofList w) := by
  have hspelling := isWordSpelling_of_isSegment hw
  have hread : grammar.Reads ((.token .selfWord *> trivia) <|> void (lex .ident) : P Unit)
      (w ++ g) t fun _ => True := by
    by_cases hself : w ∈ selfWords
    · refine .orElse (.seqRight (Q := fun _ => True) (Peg.Grammar.reads_token ?_)
        (reads_trivia h.toParted))
      exact wordLength_of_mem (by decide) hspelling h.breaks hself
    · have hname : isName w = true := by
        simpa [isSegment, hself] using hw
      refine .orElse_right (.seqRight (Peg.Grammar.refuses_token ?_))
        (.act ((reads_ident hname h).imp fun _ _ _ _ => trivial))
      rw [List.append_assoc]
      exact wordLength_of_not_mem (by decide) hspelling h.breaks hself
  refine reads_lex (.act (hread.imp fun _ _ x hx => ?_))
  rw [bareText, hx, stripTrivia_word (isIdentPart_of_isWordSpelling hspelling) h.gap]

/-- The spelling of a literal: a decimal integer or a truth value. -/
def isPlainLiteral (w : List Char) : Bool := isInteger w || truthWords.contains w

theorem isIdentPart_of_isPlainLiteral (hw : isPlainLiteral w = true) :
    ∀ c ∈ w, isIdentPart c = true := by
  rcases Bool.or_eq_true_iff.1 hw with hw | hw
  · exact isIdentPart_of_isInteger hw
  · have htruth : ∀ w ∈ truthWords, ∀ c ∈ w, isIdentPart c = true := by decide
    exact htruth w (by simpa using hw)

theorem reads_literal (hw : isPlainLiteral w = true) (h : WordEnd g t) :
    grammar.Reads (lex .literal) (w ++ g) t fun e => ∃ span, e = .lit (String.ofList w) span := by
  have hpart := isIdentPart_of_isPlainLiteral hw
  have hquoted {x : Token} (hx : x ∈ [.rawString, .string, .character]) :
      grammar.Refuses (.token x : P Unit) (w ++ (g ++ t)) :=
    Peg.Grammar.refuses_token (scan_quoted_append hx hpart h.breaks)
  have hread : grammar.Reads (lex .rawString <|> lex .stringLit <|> lex .charLit <|> lex .number
      <|> lex .truth : P Unit) w (g ++ t) fun _ => True := by
    refine .orElse_right (refuses_lex (hquoted (by simp))) ?_
    refine .orElse_right (refuses_lex (hquoted (by simp))) ?_
    refine .orElse_right (refuses_lex (hquoted (by simp))) ?_
    rcases Bool.or_eq_true_iff.1 hw with hw | hw
    · exact .orElse (reads_lex (Peg.Grammar.reads_token (number_append hw h.breaks)))
    · have hmem : w ∈ truthWords := by simpa using hw
      have hspelling : ∀ w ∈ truthWords, isWordSpelling w = true := by decide
      refine .orElse_right (refuses_lex (Peg.Grammar.refuses_token ?_))
        (reads_lex (Peg.Grammar.reads_token
          (wordLength_of_mem (by decide) (hspelling w hmem) h.breaks hmem)))
      exact Option.eq_none_iff_forall_ne_some.2
        (scan_ne_some (t := .number) rfl (fun _ => isDigit_of_isIdentStart) (hspelling w hmem))
  refine reads_lex (.seqLeft (.act (hread.imp fun _ _ x hx => ?_)) (reads_trivia h.toParted))
  exact ⟨exactSpan x, by dsimp only; rw [hx]⟩

/-- The parts of a path with the joints between them. -/
def joined : List (List Char) → List Char
  | [] => []
  | [w] => w
  | w :: v :: ws => w ++ [':', ':'] ++ joined (v :: ws)

/-- What can follow a part of a path: another part, or no joint at all. -/
def AfterSegment (t : List Char) : Prop :=
  (∃ w u, t = [':', ':'] ++ (w ++ u) ∧ isSegment w = true ∧ Breaks u) ∨ ¬[':', ':'] <+: t

/-- The rule reads a part of a path. -/
def ReadsSegment (p : P String) : Prop :=
  ∀ ⦃w g t : List Char⦄, isSegment w = true → WordEnd g t → AfterSegment t →
    grammar.Reads p (w ++ g) t (· = String.ofList w)

theorem noTrivia_cons {c : Char} (hspace : isSpace c = false) (hslash : c ≠ '/') (u : List Char) :
    noTrivia (c :: u) = true := by
  unfold noTrivia
  split
  · rfl
  · rename_i heq
    exact absurd (List.cons.inj heq).1 hslash
  · rename_i heq
    rw [← (List.cons.inj heq).1, hspace]
    rfl

theorem noTrivia_of_isIdentPart {c : Char} (hc : isIdentPart c = true) (u : List Char) :
    noTrivia (c :: u) = true := by
  have hblank := isBlank_of_isIdentPart hc
  refine noTrivia_cons (Bool.eq_false_iff.2 fun h => ?_) ?_ u
  · exact Bool.false_ne_true (hblank.symm.trans (isBlank_of_isSpace h))
  · rintro rfl
    exact absurd hc (by decide)

theorem noTrivia_of_isSegment (hw : isSegment w = true) (u : List Char) :
    noTrivia (w ++ u) = true := by
  obtain ⟨c, v, hc, hstart⟩ := opens_of_isWordSpelling (isWordSpelling_of_isSegment hw) u
  rw [hc]
  exact noTrivia_of_isIdentPart (isIdentPart_of_isIdentStart hstart) v

theorem readsSegment_pathIdent : ReadsSegment (lex .pathIdent) :=
  fun _ _ _ hw h _ => reads_pathIdent hw h

theorem readsSegment_exprSegment : ReadsSegment (exp .exprSegment) := by
  intro w g t hw h hafter
  have hfish : grammar.Refuses (exp .turbofish) t := by
    refine refuses_exp (.act ?_)
    rcases hafter with ⟨v, u, rfl, hv, hu⟩ | hno
    · exact (reads_sym "::" ⟨.inl rfl, noTrivia_of_isSegment hv u⟩).seqRight_refuses
        (refuses_word hv hu 3 (by decide))
    · exact (refuses_sym (x := "::") hno).seqRight
  have hread := (reads_pathIdent hw h).seqLeft (u := []) hfish.option
  rw [List.append_nil] at hread
  exact reads_exp hread

/-- A path is its first part, with the gap only behind the last one, and further parts. -/
theorem exists_path_cut {p : P String} (hp : ReadsSegment p) {w : List Char}
    {ws : List (List Char)} (hws : ∀ v ∈ w :: ws, isSegment v = true) (h : WordEnd g t)
    (hno : ¬[':', ':'] <+: t) :
    ∃ g' s', joined (w :: ws) ++ g = (w ++ g') ++ s' ∧ WordEnd g' (s' ++ t) ∧
      AfterSegment (s' ++ t) ∧
      grammar.ReadsMany (sym "::" *> p) s' t (· = ws.map String.ofList) := by
  induction ws generalizing w with
  | nil =>
    refine ⟨g, [], by simp [joined], h, .inr hno, .stop (.inl ?_)⟩
    exact (refuses_sym (x := "::") hno).seqRight
  | cons v ws ih =>
    obtain ⟨g', s', hcut, hend, hafter, hmany⟩ := ih fun x hx => hws x (List.mem_cons_of_mem w hx)
    have hv : isSegment v = true := hws v (by simp)
    have hfresh : noTrivia (v ++ g' ++ (s' ++ t)) = true := by
      rw [List.append_assoc]
      exact noTrivia_of_isSegment hv _
    have hread := (reads_sym "::" ⟨.inl rfl, hfresh⟩).seqRight (hp hv hend hafter)
    refine ⟨[], [':', ':'] ++ (v ++ g') ++ s', ?_, ⟨⟨.inl rfl, rfl⟩, ?_⟩, .inl ?_, ?_⟩
    · rw [joined, List.append_assoc _ (joined _), hcut]
      simp
    · exact ⟨':', _, rfl, by decide, nofun⟩
    · exact ⟨v, g' ++ (s' ++ t), by simp, hv, hend.breaks⟩
    · refine (Peg.Grammar.ReadsMany.step hread (by simp) hmany).imp ?_
      rintro _ ⟨_, _, rfl, rfl, rfl⟩
      rfl

theorem mem_joined {ws : List (List Char)} (hws : ∀ v ∈ ws, isSegment v = true) {c : Char}
    (hc : c ∈ joined ws) : isIdentPart c = true ∨ c = ':' := by
  have hword {v : List Char} (hv : v ∈ ws) (hcv : c ∈ v) : isIdentPart c = true :=
    isIdentPart_of_isWordSpelling (isWordSpelling_of_isSegment (hws v hv)) c hcv
  fun_induction joined ws with
  | case1 => cases hc
  | case2 w => exact .inl (hword (List.mem_singleton_self w) hc)
  | case3 w v ws ih =>
    simp only [List.mem_append, List.mem_cons, List.not_mem_nil, or_false, or_self] at hc
    rcases hc with (hc | hc) | hc
    · exact .inl (hword (by simp) hc)
    · exact .inr hc
    · exact ih (fun x hx => hws x (List.mem_cons_of_mem w hx)) hc
        fun hv => hword (List.mem_cons_of_mem w hv)

theorem allInk_joined {ws : List (List Char)} (hws : ∀ v ∈ ws, isSegment v = true) :
    AllInk (joined ws) := by
  intro c hc
  rcases mem_joined hws hc with hc | rfl
  · exact isBlank_of_isIdentPart hc
  · decide

theorem stripTrivia_joined {ws : List (List Char)} (hws : ∀ v ∈ ws, isSegment v = true)
    (hg : g = [] ∨ g = [' ']) : stripTrivia (joined ws ++ g) = joined ws := by
  refine stripTrivia_append (allInk_joined hws) (fun h => ?_) hg
  rcases mem_joined hws h with h | h <;> exact absurd h (by decide)

section Path

variable {ws : List (List Char)} (hws : ∀ v ∈ w :: ws, isSegment v = true) (h : WordEnd g t)
  (hno : ¬[':', ':'] <+: t)

include hws h hno

theorem reads_simplePath :
    grammar.Reads (lex .simplePath) (joined (w :: ws) ++ g) t fun _ => True := by
  have hw : isSegment w = true := hws w (by simp)
  obtain ⟨g', s', hcut, hend, hafter, hmany⟩ := exists_path_cut readsSegment_pathIdent hws h hno
  have hopt : grammar.Refuses (sym "::") (w ++ g' ++ (s' ++ t)) := by
    rw [List.append_assoc]
    exact refuses_word hw hend.breaks 1 (by decide)
  rw [hcut]
  refine reads_lex (.act ?_)
  exact ((hopt.option.seqRight (readsSegment_pathIdent hw hend hafter)).seqRight
    hmany.many).imp fun _ _ _ _ => trivial

theorem reads_path :
    grammar.Reads (exp .qualifiedPathExpr <|> exp .plainPathExpr) (joined (w :: ws) ++ g) t fun p =>
      p.segments = (w :: ws).map String.ofList ∧ p.text = String.ofList (joined (w :: ws)) := by
  have hw : isSegment w = true := hws w (by simp)
  have hsqueeze : squeeze (joined (w :: ws)) = joined (w :: ws) :=
    List.filter_eq_self.2 fun c hc => by simp [allInk_joined hws c hc]
  have hgap := h.gap
  obtain ⟨g', s', hcut, hend, hafter, hmany⟩ := exists_path_cut readsSegment_exprSegment hws h hno
  have hword {β : Type} {p : P β} (n : Nat)
      (hp : p.fate segmentLook (grammar.fate segmentLook n) = .refused) :
      grammar.Refuses p (w ++ g' ++ s' ++ t) := by
    rw [List.append_assoc, List.append_assoc]
    exact refuses_word hw hend.breaks n hp
  have hopt : grammar.Refuses (sym "::") (w ++ g' ++ s' ++ t) := hword 1 (by decide)
  rw [hcut]
  refine .orElse_right (hword 4 (by decide)) (reads_exp (.act ?_))
  have hparts := hopt.option.seqRight ((readsSegment_exprSegment hw hend hafter).both hmany.many)
  refine hparts.imp ?_
  rintro ⟨_, _⟩ ⟨rfl, rfl⟩ text htext
  refine ⟨rfl, ?_⟩
  change gluedText text = _
  rw [gluedText, htext, ← hcut, stripTrivia_joined hws hgap, hsqueeze]

theorem reads_pathExpr :
    grammar.Reads (exp .pathExpr) (joined (w :: ws) ++ g) t fun p =>
      p.segments = (w :: ws).map String.ofList ∧ p.text = String.ofList (joined (w :: ws)) :=
  reads_exp (reads_path hws h hno)

/-- A path is no macro call where no sign follows it, or one that belongs to a comparison. -/
theorem refuses_macroCall (hsign : (∃ v, t = '!' :: '=' :: v) ∨ ¬['!'] <+: t) :
    grammar.Refuses (exp .macroCall) (joined (w :: ws) ++ g ++ t) := by
  have hread := reads_simplePath hws h hno
  refine refuses_exp (.act ?_)
  rcases hsign with ⟨v, rfl⟩ | hsign
  · have hnone : grammar.Refuses (lex .delimited) ('=' :: v) := refuses_at 4 (by decide) v
    have hsym : grammar.Reads (sym "!") ("!".toList ++ []) ('=' :: v) fun _ => True :=
      reads_sym "!" ⟨.inl rfl, rfl⟩
    have hrefused := (hread.seqLeft hsym).both_refuses hnone
    rwa [List.append_assoc] at hrefused
  · exact (hread.seqLeft_refuses (refuses_sym (x := "!") hsign)).both

theorem refuses_structLit (hbrace : ¬['\x7b'] <+: t) :
    grammar.Refuses (exp .structLit) (joined (w :: ws) ++ g ++ t) := by
  refine refuses_exp (.act ?_)
  exact (reads_pathExpr hws h hno).both_refuses (.seqLeft (.seqRight (refuses_sym hbrace)))

end Path

end Tokens

end InkGauge.Contract
