import InkGauge.Proofs.Contract.Total
import InkGauge.Proofs.Peg.Reads

/-!
In canonical text at most one blank stands behind a token, and then the next token starts. A word or
a number ends before one of a few characters. So what a rule of the lexicon reads there is known
from the spelling alone.
-/

namespace InkGauge.Text

theorem isWord_of_isIdentPart {c : Char} (h : isIdentPart c = true) : isWord c = true := by
  have hc := (toNat_of_isIdentPart h).2
  rw [isWord, if_pos (by omega)]
  exact h

/-- The digits and the letters of either case continue an identifier. -/
theorem isIdentPart_of_range {c lo hi : Char} (hc : lo ≤ c ∧ c ≤ hi)
    (h : (48 ≤ lo.toNat ∧ hi.toNat ≤ 57) ∨ (65 ≤ lo.toNat ∧ hi.toNat ≤ 90) ∨
      (97 ≤ lo.toNat ∧ hi.toNat ≤ 122)) : isIdentPart c = true := by
  have hlo : lo.toNat ≤ c.toNat := hc.1
  have hhi : c.toNat ≤ hi.toNat := hc.2
  delta isIdentPart Char.isAlphanum Char.isAlpha Char.isUpper Char.isLower Char.isDigit
  simp only [Bool.or_eq_true, Bool.and_eq_true, decide_eq_true_eq, UInt32.le_iff_toNat_le,
    ge_iff_le]
  left
  change (65 ≤ c.toNat ∧ c.toNat ≤ 90 ∨ 97 ≤ c.toNat ∧ c.toNat ≤ 122) ∨
    48 ≤ c.toNat ∧ c.toNat ≤ 57
  omega

end InkGauge.Text

namespace InkGauge.Contract

open Text Grammar
open Peg (Look)

/-- What holds of the characters of a list is decided along the list, not over all characters. -/
instance (priority := 2000) decidableForallChars {p : Char → Prop} [DecidablePred p]
    (s : List Char) : Decidable (∀ c ∈ s, p c) := List.decidableBAll p s

/-- No blank and no comment starts here. -/
def noTrivia : List Char → Bool
  | [] => true
  | '/' :: c :: _ => c != '/' && c != '*'
  | c :: _ => !isSpace c

/-- The characters before which a word or a number of canonical text ends. -/
def breakers : List Char := [' ', ')', ']', ',', ';', '.', '(', '[', '?', ':']

/-- A word or a number ends here; a point starts no fraction. -/
def Breaks (u : List Char) : Prop :=
  ∃ c v, u = c :: v ∧ c ∈ breakers ∧ (c = '.' → ¬Opens Char.isDigit v)

theorem breaks_blank (v : List Char) : Breaks (' ' :: v) :=
  ⟨' ', v, rfl, by decide, fun h => absurd h (by decide)⟩

theorem Breaks.wordEnds {u : List Char} (h : Breaks u) : wordEnds u = true := by
  obtain ⟨c, v, rfl, hc, _⟩ := h
  have hword : ∀ c ∈ breakers, (!isWord c) = true := by decide
  exact hword c hc

theorem Breaks.not_opens {C : Char → Bool} (hC : ∀ c ∈ breakers, C c = false) {u : List Char}
    (h : Breaks u) : ¬Opens C u := by
  obtain ⟨c, v, rfl, hc, _⟩ := h
  rintro ⟨d, w, hd, hC'⟩
  cases hd
  rw [hC c hc] at hC'
  cases hC'

theorem Breaks.not_identPart {u : List Char} (h : Breaks u) : ¬Opens isIdentPart u :=
  h.not_opens (by decide)

/-- A run of a class and what does not go on in it are found again in any text. -/
theorem append_inj_of_class {C : Char → Bool} {u v u' v' : List Char} (h : u ++ v = u' ++ v')
    (hu : ∀ c ∈ u, C c = true) (hu' : ∀ c ∈ u', C c = true) (hv : ¬Opens C v) (hv' : ¬Opens C v') :
    u = u' ∧ v = v' := by
  induction u generalizing u' with
  | nil =>
    cases u' with
    | nil => exact ⟨rfl, h⟩
    | cons c u' =>
      rw [List.nil_append, List.cons_append] at h
      exact absurd ⟨c, u' ++ v', h, hu' c (by simp)⟩ hv
  | cons c u ih =>
    cases u' with
    | nil =>
      rw [List.nil_append, List.cons_append] at h
      exact absurd ⟨c, u ++ v, h.symm, hu c (by simp)⟩ hv'
    | cons d u' =>
      rw [List.cons_append, List.cons_append, List.cons.injEq] at h
      obtain ⟨rfl, h⟩ := h
      obtain ⟨rfl, rfl⟩ := ih h (fun x hx => hu x (by simp [hx])) fun x hx => hu' x (by simp [hx])
      exact ⟨rfl, rfl⟩

theorem takeWhile_append_of_class {C : Char → Bool} {u v : List Char} (hu : ∀ c ∈ u, C c = true)
    (hv : ¬Opens C v) : (u ++ v).takeWhile C = u := by
  rw [List.takeWhile_append_of_pos hu]
  cases v with
  | nil => simp
  | cons c v =>
    have hc : C c = false := Bool.eq_false_iff.2 fun h => hv ⟨c, v, rfl, h⟩
    simp [hc]

namespace Token

/-- The spelling of an identifier, a reserved word or a lone underscore. -/
def isWordSpelling : List Char → Bool
  | c :: s => isIdentStart c && s.all isIdentPart
  | [] => false

/-- The spelling of a name: a word that is neither reserved nor a lone underscore. -/
def isName (w : List Char) : Bool :=
  isWordSpelling w && w != ['_'] && !reservedWords.contains w

/-- The spelling of a part of a path. -/
def isSegment (w : List Char) : Bool := isName w || selfWords.contains w

variable {w u : List Char}

theorem isIdentPart_of_isWordSpelling (hw : isWordSpelling w = true) :
    ∀ c ∈ w, isIdentPart c = true := by
  cases w with
  | nil => cases hw
  | cons c s =>
    simp only [isWordSpelling, Bool.and_eq_true, List.all_eq_true] at hw
    intro d hd
    rcases List.mem_cons.1 hd with rfl | hd
    · exact isIdentPart_of_isIdentStart hw.1
    · exact hw.2 d hd

theorem isWordSpelling_of_isName (hw : isName w = true) : isWordSpelling w = true := by
  simp only [isName, Bool.and_eq_true] at hw
  exact hw.1.1

theorem isWordSpelling_of_isSegment (hw : isSegment w = true) : isWordSpelling w = true := by
  rcases Bool.or_eq_true_iff.1 hw with hw | hw
  · exact isWordSpelling_of_isName hw
  · have hall : ∀ w ∈ selfWords, isWordSpelling w = true := by decide
    exact hall w (by simpa using hw)

/-- A word is one of a list of words only as a whole. -/
theorem eq_of_wordLength {ws : List (List Char)} (hws : ws.all (·.all isIdentPart) = true)
    (hw : isWordSpelling w = true) (hu : Breaks u) {n : Nat} (h : wordLength? ws (w ++ u) = some n) :
    n = w.length ∧ w ∈ ws := by
  rw [wordLength?, List.findSome?_eq_some_iff] at h
  obtain ⟨before, x, after, hsplit, hx, _⟩ := h
  have hmem : x ∈ ws := by simp [hsplit]
  split at hx
  · rename_i rest hrest
    split at hx
    · rename_i hend
      have hcut : w ++ u = x ++ rest := dropPrefix?_eq_some hrest
      have hall := List.all_eq_true.1 (List.all_eq_true.1 hws x hmem)
      have hrest' : ¬Opens isIdentPart rest := by
        rintro ⟨c, v, rfl, hc⟩
        simp [Text.wordEnds, isWord_of_isIdentPart hc] at hend
      obtain ⟨rfl, _⟩ := append_inj_of_class hcut (isIdentPart_of_isWordSpelling hw) hall
        hu.not_identPart hrest'
      cases hx
      exact ⟨rfl, hmem⟩
    · cases hx
  · cases hx

theorem wordLength_of_mem {ws : List (List Char)} (hws : ws.all (·.all isIdentPart) = true)
    (hw : isWordSpelling w = true) (hu : Breaks u) (hmem : w ∈ ws) :
    wordLength? ws (w ++ u) = some w.length := by
  cases h : wordLength? ws (w ++ u) with
  | some n => rw [(eq_of_wordLength hws hw hu h).1]
  | none =>
    have hnone := List.findSome?_eq_none_iff.1 h w hmem
    simp [dropPrefix?_append, hu.wordEnds] at hnone

theorem wordLength_of_not_mem {ws : List (List Char)} (hws : ws.all (·.all isIdentPart) = true)
    (hw : isWordSpelling w = true) (hu : Breaks u) (hmem : w ∉ ws) :
    wordLength? ws (w ++ u) = none := by
  cases h : wordLength? ws (w ++ u) with
  | some n => exact absurd (eq_of_wordLength hws hw hu h).2 hmem
  | none => rfl

theorem identLength_append (hw : isWordSpelling w = true) (hu : Breaks u) :
    identLength (w ++ u) = some w.length := by
  cases w with
  | nil => cases hw
  | cons c s =>
    have hall := isIdentPart_of_isWordSpelling hw
    simp only [isWordSpelling, Bool.and_eq_true] at hw
    have hs : (s ++ u).takeWhile isIdentPart = s :=
      takeWhile_append_of_class (fun x hx => hall x (by simp [hx])) hu.not_identPart
    rw [List.cons_append, identLength, if_pos hw.1, hs, List.length_cons]

theorem nameLength_append (hw : isWordSpelling w = true) (hne : w ≠ ['_']) (hu : Breaks u) :
    nameLength? (w ++ u) = some w.length := by
  have hident := identLength_append hw hu
  have hall := isIdentPart_of_isWordSpelling hw
  unfold nameLength?
  dsimp only
  split
  · -- No raw name: a sign would have to stand inside the word or right behind it.
    rename_i rest heq
    exfalso
    match w, hw with
    | [c], _ =>
      simp only [List.cons_append, List.nil_append, List.cons.injEq] at heq
      obtain ⟨d, v, rfl, hd, _⟩ := hu
      cases heq.2
      exact absurd hd (by decide)
    | c :: d :: s, _ =>
      simp only [List.cons_append, List.cons.injEq] at heq
      have hd := hall d (by simp)
      rw [heq.2.1] at hd
      exact absurd hd (by decide)
  · split
    · rename_i rest heq
      have hend : wordEnds rest = false := by
        match w, hw, hne with
        | [c], _, hne =>
          simp only [List.cons_append, List.nil_append, List.cons.injEq] at heq
          exact absurd (by rw [heq.1]) hne
        | c :: d :: s, _, _ =>
          simp only [List.cons_append, List.cons.injEq] at heq
          rw [← heq.2]
          simp [Text.wordEnds, isWord_of_isIdentPart (hall d (by simp))]
      rw [hend]
      exact hident
    · exact hident

/-- The suffixes of the integer types, and none. -/
def integerSuffixes : List (List Char) :=
  ["", "i8", "i16", "i32", "i64", "i128", "isize", "u8", "u16", "u32", "u64", "u128",
    "usize"].map String.toList

/-- The spelling of a decimal integer. -/
def isInteger : List Char → Bool
  | c :: s => c.isDigit && integerSuffixes.contains (s.dropWhile isDigitMark)
  | [] => false

theorem isIdentPart_of_isDigitMark {c : Char} (h : isDigitMark c = true) : isIdentPart c = true := by
  simp only [isDigitMark, Bool.or_eq_true] at h
  simp only [isIdentPart, Char.isAlphanum, Bool.or_eq_true]
  tauto

theorem isIdentPart_of_isInteger (hw : isInteger w = true) : ∀ c ∈ w, isIdentPart c = true := by
  cases w with
  | nil => cases hw
  | cons d s =>
    simp only [isInteger, Bool.and_eq_true, List.contains_iff_mem] at hw
    have hsuffix : ∀ x ∈ integerSuffixes, ∀ c ∈ x, isIdentPart c = true := by decide
    intro c hc
    rcases List.mem_cons.1 hc with rfl | hc
    · exact isIdentPart_of_isDigit hw.1
    · rw [← List.takeWhile_append_dropWhile (p := isDigitMark) (l := s)] at hc
      rcases List.mem_append.1 hc with hc | hc
      · exact isIdentPart_of_isDigitMark (List.mem_takeWhile_imp hc)
      · exact hsuffix _ hw.2 c hc

section Classes

variable {C p : Char → Bool}

/-- Every character of the text is of the class. -/
def AllOf (C : Char → Bool) (u : List Char) : Prop := ∀ c ∈ u, C c = true

theorem AllOf.append {u v : List Char} (hu : AllOf C u) (hv : AllOf C v) : AllOf C (u ++ v) := by
  intro c hc
  rcases List.mem_append.1 hc with hc | hc
  · exact hu c hc
  · exact hv c hc

theorem takes_text_all {t : String} (h : t.toList.all C = true) :
    (Ways.text t).Takes (AllOf C) := by
  refine (Ways.takes_text t).imp fun u hu => ?_
  subst hu
  exact List.all_eq_true.1 h

theorem takes_char_all (h : ∀ c, p c = true → C c = true) : (Ways.char p).Takes (AllOf C) := by
  refine (Ways.takes_char p).imp fun u hu => ?_
  obtain ⟨x, hx, rfl⟩ := hu
  intro c hc
  rw [List.mem_singleton.1 hc]
  exact h x hx

theorem takes_run_all (h : ∀ c, p c = true → C c = true) : (Ways.run p).Takes (AllOf C) :=
  (Ways.takes_run p).imp fun _ hu c hc => h c (hu c hc)

theorem takes_run1_all (h : ∀ c, p c = true → C c = true) : (Ways.run1 p).Takes (AllOf C) :=
  (takes_char_all h).next (takes_run_all h) fun _ _ => AllOf.append

end Classes

/-- A character of a number without a fraction; a sign can stand in its exponent. -/
def isSigned (c : Char) : Bool := isIdentPart c || c == '+' || c == '-'

theorem isSigned_of_isIdentPart {c : Char} (h : isIdentPart c = true) : isSigned c = true := by
  simp [isSigned, h]

/-- A number has no point, or the first one has a digit behind it. -/
def NumberShape (u : List Char) : Prop :=
  AllOf isSigned u ∨ ∃ a b, u = a ++ '.' :: b ∧ AllOf isIdentPart a ∧ Opens Char.isDigit b

theorem NumberShape.append {u v : List Char} (hu : NumberShape u) (hv : AllOf isSigned v) :
    NumberShape (u ++ v) := by
  rcases hu with hu | ⟨a, b, rfl, ha, hb⟩
  · exact .inl (hu.append hv)
  · exact .inr ⟨a, b ++ v, by simp, ha, hb.append v⟩

theorem takes_suffixWays_all : suffixWays.Takes (AllOf isSigned) := by
  refine Ways.Takes.or (Ways.Takes.or ?_ (takes_text_all (by decide))) (takes_text_all (by decide))
  refine (takes_char_all fun c hc => ?_).next ?_ fun _ _ => AllOf.append
  · simp only [Bool.or_eq_true, beq_iff_eq] at hc
    rcases hc with rfl | rfl <;> decide
  · exact ((((takes_text_all (by decide)).or (takes_text_all (by decide))).or
      (takes_text_all (by decide))).or (takes_text_all (by decide))).or
      (takes_text_all (by decide)) |>.or (takes_text_all (by decide))

theorem takes_exponentWays_all : exponentWays.Takes (AllOf isSigned) := by
  refine (takes_char_all fun c hc => ?_).next
    (((takes_char_all fun c hc => ?_).opt fun c hc => nomatch hc).next
      (takes_run1_all fun c hc => isSigned_of_isIdentPart (isIdentPart_of_isDigitMark hc))
      fun _ _ => AllOf.append) fun _ _ => AllOf.append
  · simp only [Bool.or_eq_true, beq_iff_eq] at hc
    rcases hc with rfl | rfl <;> decide
  · simp only [Bool.or_eq_true, beq_iff_eq] at hc
    rcases hc with rfl | rfl <;> decide

theorem takes_decimal_shape :
    (decimalRun.next (((Ways.text ".").next decimalRun).opt.next exponentWays.opt)).Takes
      NumberShape := by
  have hdigit {c : Char} (hc : c.isDigit = true) : isIdentPart c = true := isIdentPart_of_isDigit hc
  have hrun : decimalRun.Takes (AllOf isIdentPart) :=
    (takes_char_all fun _ => hdigit).next (takes_run_all fun _ => isIdentPart_of_isDigitMark)
      fun _ _ => AllOf.append
  have hpoint : ((Ways.text ".").next decimalRun).Takes
      fun v => ∃ b, v = '.' :: b ∧ Opens Char.isDigit b :=
    (Ways.takes_text ".").next takes_decimalRun_opens fun u b hu hb => ⟨b, by rw [hu]; rfl, hb⟩
  have hfraction : ((Ways.text ".").next decimalRun).opt.Takes
      fun v => v = [] ∨ ∃ b, v = '.' :: b ∧ Opens Char.isDigit b :=
    (hpoint.imp fun _ => .inr).opt (.inl rfl)
  have htail : (((Ways.text ".").next decimalRun).opt.next exponentWays.opt).Takes
      fun v => ∃ a b, v = a ++ b ∧ (a = [] ∨ ∃ d, a = '.' :: d ∧ Opens Char.isDigit d)
        ∧ AllOf isSigned b :=
    hfraction.next (takes_exponentWays_all.opt fun c hc => nomatch hc)
      fun a b ha hb => ⟨a, b, rfl, ha, hb⟩
  refine hrun.next htail ?_
  rintro u _ hu ⟨a, b, rfl, ha, hb⟩
  rw [← List.append_assoc]
  refine NumberShape.append ?_ hb
  rcases ha with rfl | ⟨d, rfl, hd⟩
  · rw [List.append_nil]
    exact .inl fun c hc => isSigned_of_isIdentPart (hu c hc)
  · exact .inr ⟨u, d, rfl, hu, hd⟩

theorem takes_prefixed_shape {t : String} {p : Char → Bool} (ht : t.toList.all isIdentPart = true)
    (hp : ∀ c, p c = true → isIdentPart c = true) :
    ((Ways.text t).next (Ways.run1 p)).Takes NumberShape :=
  ((takes_text_all ht).next (takes_run1_all hp) fun _ _ => AllOf.append).imp
    fun _ hu => .inl fun c hc => isSigned_of_isIdentPart (hu c hc)

theorem takes_base_shape :
    ((((Ways.text "0x").next (Ways.run1 fun c => isHex c || c == '_'))
      |>.or ((Ways.text "0o").next (Ways.run1 fun c => ('0' ≤ c && c ≤ '7') || c == '_'))
      |>.or ((Ways.text "0b").next (Ways.run1 fun c => c == '0' || c == '1' || c == '_'))
      |>.or (decimalRun.next (((Ways.text ".").next decimalRun).opt.next exponentWays.opt)))).Takes
      NumberShape := by
  refine Ways.Takes.or (Ways.Takes.or (Ways.Takes.or ?_ ?_) ?_) takes_decimal_shape
  · refine takes_prefixed_shape (by decide) fun c hc => ?_
    simp only [isHex, Bool.or_eq_true, Bool.and_eq_true, decide_eq_true_eq, beq_iff_eq] at hc
    rcases hc with ((hc | hc) | hc) | rfl
    · exact isIdentPart_of_isDigit hc
    · exact isIdentPart_of_range hc (.inr (.inr (by decide)))
    · exact isIdentPart_of_range hc (.inr (.inl (by decide)))
    · decide
  · refine takes_prefixed_shape (by decide) fun c hc => ?_
    simp only [Bool.or_eq_true, Bool.and_eq_true, decide_eq_true_eq, beq_iff_eq] at hc
    rcases hc with hc | rfl
    · exact isIdentPart_of_range hc (.inl (by decide))
    · decide
  · refine takes_prefixed_shape (by decide) fun c hc => ?_
    simp only [Bool.or_eq_true, beq_iff_eq] at hc
    rcases hc with (rfl | rfl) | rfl <;> decide

/-- Nothing of a number goes on behind a decimal integer that ends. -/
theorem eq_of_number (hw : isInteger w = true) (hu : Breaks u) {rest : List Char}
    (h : rest ∈ numberWays (w ++ u)) : rest = u := by
  obtain ⟨m, hm, hrest⟩ := List.mem_flatMap.1 h
  obtain ⟨m', hm', hrest'⟩ := List.mem_flatMap.1 hrest
  have hbarred : rest = m' ∧ ¬Opens isIdentPart m' := by
    unfold Ways.barred at hrest'
    split at hrest'
    · cases hrest'
    · rename_i hno
      refine ⟨List.mem_singleton.1 hrest', ?_⟩
      rintro ⟨c, v, rfl, hc⟩
      exact hno (by simpa using hc)
  obtain ⟨rfl, hend⟩ := hbarred
  obtain ⟨a, ha, hshape⟩ := takes_base_shape _ m hm
  obtain ⟨b, rfl, hb⟩ := (takes_suffixWays_all.opt fun c hc => nomatch hc) m rest hm'
  have hcut : w ++ u = (a ++ b) ++ rest := by rw [ha, List.append_assoc]
  have hpart := isIdentPart_of_isInteger hw
  rcases hshape.append hb with hall | ⟨x, y, hxy, hx, hy⟩
  · have hsigned : AllOf isSigned w := fun c hc => isSigned_of_isIdentPart (hpart c hc)
    rcases List.append_eq_append_iff.1 hcut with ⟨v, hv, rfl⟩ | ⟨v, rfl, rfl⟩
    · cases v with
      | nil => rfl
      | cons c v =>
        have hc : isSigned c = true := hall c (by simp [hv])
        exact absurd ⟨c, v ++ rest, rfl, hc⟩ (hu.not_opens (by decide))
    · cases v with
      | nil => rfl
      | cons c v => exact absurd ⟨c, v ++ u, rfl, hpart c (by simp)⟩ hend
  · rw [hxy, List.append_assoc] at hcut
    have hpoint : ¬Opens isIdentPart ('.' :: (y ++ rest)) := by
      rintro ⟨c, v, hc, hpart⟩
      cases hc
      exact absurd hpart (by decide)
    obtain ⟨_, rfl⟩ := append_inj_of_class hcut hpart hx hu.not_identPart hpoint
    obtain ⟨c, v, hc, _, hfraction⟩ := hu
    cases hc
    exact absurd (hy.append rest) (hfraction rfl)

theorem mem_run {p : Char → Bool} {v : List Char} (hv : ∀ c ∈ v, p c = true) (s : List Char) :
    s ∈ Ways.run p (v ++ s) := by
  induction v with
  | nil =>
    cases s with
    | nil => simp [Ways.run]
    | cons c s =>
      rw [List.nil_append, Ways.run]
      split <;> simp
  | cons c v ih =>
    rw [List.cons_append, Ways.run, if_pos (hv c (by simp))]
    exact List.mem_append_left _ (ih fun x hx => hv x (by simp [hx]))

theorem mem_opt (p : Ways) (s : List Char) : s ∈ p.opt s := by simp [Ways.opt]

theorem mem_suffix {x : List Char} (hx : x ∈ integerSuffixes) (u : List Char) :
    u ∈ suffixWays.opt (x ++ u) := by
  have hall : ∀ x ∈ integerSuffixes.tail, suffixWays (x ++ u) = [u] := by
    simp only [integerSuffixes, List.map, List.tail_cons, List.forall_mem_cons]
    exact ⟨rfl, rfl, rfl, rfl, rfl, rfl, rfl, rfl, rfl, rfl, rfl, rfl, nofun⟩
  rcases List.mem_cons.1 hx with rfl | hx
  · exact mem_opt suffixWays u
  · refine List.mem_append_left _ ?_
    rw [hall x hx]
    exact List.mem_singleton_self u

theorem mem_number (hw : isInteger w = true) (hu : Breaks u) : u ∈ numberWays (w ++ u) := by
  cases w with
  | nil => cases hw
  | cons d s =>
    simp only [isInteger, Bool.and_eq_true, List.contains_iff_mem] at hw
    have hdecimal : s.dropWhile isDigitMark ++ u ∈ decimalRun ((d :: s) ++ u) := by
      refine List.mem_flatMap.2 ⟨s ++ u, by simp [Ways.char, hw.1], ?_⟩
      have hrun := mem_run (fun c hc => List.mem_takeWhile_imp hc)
        (v := s.takeWhile isDigitMark) (s.dropWhile isDigitMark ++ u)
      rwa [← List.append_assoc, List.takeWhile_append_dropWhile] at hrun
    refine List.mem_flatMap.2 ⟨s.dropWhile isDigitMark ++ u, ?_, ?_⟩
    · refine List.mem_append_right _ (List.mem_flatMap.2 ⟨_, hdecimal, ?_⟩)
      exact List.mem_flatMap.2 ⟨_, mem_opt _ _, mem_opt _ _⟩
    · refine List.mem_flatMap.2 ⟨u, mem_suffix hw.2 u, ?_⟩
      obtain ⟨c, v, rfl, hc, _⟩ := hu
      have hno : ∀ c ∈ breakers, isIdentPart c = false := by decide
      simp [Ways.barred, hno c hc]

theorem number_append (hw : isInteger w = true) (hu : Breaks u) :
    numberWays.length? (w ++ u) = some w.length := by
  have hmem := mem_number hw hu
  cases h : numberWays (w ++ u) with
  | nil =>
    rw [h] at hmem
    cases hmem
  | cons r rs =>
    have hr : r = u := eq_of_number hw hu (by rw [h]; exact List.mem_cons_self ..)
    rw [Ways.length?, h, hr]
    simp

/-- A run of word characters and the end of it hold no character of the class. -/
theorem not_opens_append {C : Char → Bool} (hC : ∀ c, isIdentPart c = true → C c = false)
    (hC' : ∀ c ∈ breakers, C c = false) (hw : ∀ c ∈ w, isIdentPart c = true) (hu : Breaks u) :
    ¬Opens C (w ++ u) := by
  cases w with
  | nil => exact hu.not_opens hC'
  | cons c w =>
    rintro ⟨d, v, hd, hC''⟩
    cases hd
    rw [hC c (hw c (by simp))] at hC''
    cases hC''

theorem eq_false_of_not_identPart {d : Char} (hd : isIdentPart d = false) (c : Char)
    (hc : isIdentPart c = true) : (c == d) = false := by
  refine Bool.eq_false_iff.2 fun h => ?_
  rw [beq_iff_eq.1 h, hd] at hc
  cases hc

theorem quoted_append (hw : ∀ c ∈ w, isIdentPart c = true) (hu : Breaks u) :
    quoted? (w ++ u) = none := by
  cases h : quoted? (w ++ u) with
  | none => rfl
  | some n =>
    have hopen := (opens_of_quoted h).2
    exact absurd hopen (not_opens_append (eq_false_of_not_identPart (by decide)) (by decide) hw hu)

theorem rawBody_append (hw : ∀ c ∈ w, isIdentPart c = true) (hu : Breaks u) :
    rawBody? (w ++ u) = none := by
  cases w with
  | nil =>
    cases h : rawBody? u with
    | none => rw [List.nil_append, h]
    | some n => exact absurd (opens_of_rawBody h).2 (hu.not_opens (by decide))
  | cons c w =>
    have hw' : ∀ c ∈ w, isIdentPart c = true := fun x hx => hw x (by simp [hx])
    have hfence : ¬Opens (· == '#') (w ++ u) :=
      not_opens_append (eq_false_of_not_identPart (by decide)) (by decide) hw' hu
    have hquote : ¬Opens (· == '"') (w ++ u) :=
      not_opens_append (eq_false_of_not_identPart (by decide)) (by decide) hw' hu
    rw [List.cons_append]
    unfold rawBody?
    split
    · rename_i s heq
      cases heq
      have hdrop : (w ++ u).dropWhile (· == '#') = w ++ u := by
        cases h : w ++ u with
        | nil => rfl
        | cons d v =>
          rw [h] at hfence
          exact List.dropWhile_cons_of_neg fun hd => hfence ⟨d, v, rfl, hd⟩
      dsimp only
      split
      · rename_i rest heq
        rw [hdrop] at heq
        exact absurd ⟨'"', rest, heq, by decide⟩ hquote
      · rfl
    · rfl

theorem byteMarked_append {length? : List Char → Option Nat}
    (h : ∀ {w}, (∀ c ∈ w, isIdentPart c = true) → length? (w ++ u) = none)
    (hw : ∀ c ∈ w, isIdentPart c = true) (hu : Breaks u) : byteMarked? length? (w ++ u) = none := by
  unfold byteMarked?
  split
  · rename_i rest heq
    cases w with
    | nil =>
      obtain ⟨c, v, rfl, hc, _⟩ := hu
      cases heq
      exact absurd hc (by decide)
    | cons c w =>
      rw [List.cons_append, List.cons.injEq] at heq
      have hrest := h fun x hx => hw x (List.mem_cons_of_mem c hx)
      rw [heq.2] at hrest
      rw [hrest, h hw]
      rfl
  · exact h hw

theorem character_append (hw : ∀ c ∈ w, isIdentPart c = true) (hu : Breaks u) :
    characterWays.length? (w ++ u) = none := by
  cases h : characterWays.length? (w ++ u) with
  | none => rfl
  | some n =>
    obtain ⟨rest, hrest, _⟩ := Option.map_eq_some_iff.1 h
    obtain ⟨m, hm, hquoted⟩ := List.mem_flatMap.1 (List.mem_of_head? hrest)
    have hopens : Opens (· == '\'') m := by
      obtain ⟨v, rfl, hv⟩ := takes_next_opens (C := (· == '\'')) (takes_text_opens (by decide))
        (takes_any_next takes_characterBody (Ways.takes_text "'")) m rest hquoted
      exact hv.append rest
    have hno {v : List Char} (hv : ∀ c ∈ v, isIdentPart c = true) :
        ¬Opens (· == '\'') (v ++ u) :=
      not_opens_append (eq_false_of_not_identPart (by decide)) (by decide) hv hu
    rcases List.mem_append.1 hm with hm | hm
    · have hcut : w ++ u = ['b'] ++ m := dropPrefix?_eq_some (by simpa [Ways.text] using hm)
      cases w with
      | nil =>
        obtain ⟨c, v, rfl, hc, _⟩ := hu
        cases hcut
        exact absurd hc (by decide)
      | cons c w =>
        cases hcut
        exact absurd hopens (hno fun x hx => hw x (List.mem_cons_of_mem _ hx))
    · rw [List.mem_singleton.1 hm] at hopens
      exact absurd hopens (hno hw)

/-- Neither a word nor a number starts a quoted literal. -/
theorem scan_quoted_append {t : Token} (ht : t ∈ [.rawString, .string, .character])
    (hw : ∀ c ∈ w, isIdentPart c = true) (hu : Breaks u) : scan t (w ++ u) = none := by
  simp only [List.mem_cons, List.not_mem_nil, or_false] at ht
  rcases ht with rfl | rfl | rfl
  · exact byteMarked_append (fun h => rawBody_append h hu) hw hu
  · exact byteMarked_append (fun h => quoted_append h hu) hw hu
  · exact character_append hw hu

end Token

end InkGauge.Contract
