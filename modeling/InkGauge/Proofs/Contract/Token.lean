import InkGauge.Contract.Token
import Mathlib.Data.List.DropRight
import Mathlib.Tactic.NthRewrite
import Mathlib.Tactic.Tauto

/-!
A literal ends on a character that is not blank, and any other token but trivia and the loose
tokens of a macro call has such a character in it.
-/

namespace InkGauge.Text

theorem isBlank_eq_false_of_toNat {c : Char} (h : 0x21 ≤ c.toNat) (h' : c.toNat ≤ 0x7E) :
    isBlank c = false := by
  simp only [isBlank, isSpace, Bool.or_eq_false_iff, Bool.and_eq_false_iff, decide_eq_false_iff_not,
    beq_eq_false_iff_ne]
  omega

theorem toNat_of_isIdentPart {c : Char} (h : isIdentPart c = true) :
    0x30 ≤ c.toNat ∧ c.toNat ≤ 0x7A := by
  delta isIdentPart Char.isAlphanum Char.isAlpha Char.isUpper Char.isLower Char.isDigit at h
  simp only [Bool.or_eq_true, Bool.and_eq_true, decide_eq_true_eq, beq_iff_eq,
    UInt32.le_iff_toNat_le, ge_iff_le] at h
  change ((65 ≤ c.toNat ∧ c.toNat ≤ 90 ∨ 97 ≤ c.toNat ∧ c.toNat ≤ 122) ∨
    48 ≤ c.toNat ∧ c.toNat ≤ 57) ∨ c = '_' at h
  rcases h with h | rfl
  · omega
  · decide

theorem isBlank_of_isIdentPart {c : Char} (h : isIdentPart c = true) : isBlank c = false := by
  obtain ⟨hlow, hhigh⟩ := toNat_of_isIdentPart h
  exact isBlank_eq_false_of_toNat (by omega) (by omega)

theorem isIdentPart_of_isIdentStart {c : Char} (h : isIdentStart c = true) :
    isIdentPart c = true := by
  simp only [isIdentStart, isIdentPart, Char.isAlphanum, Bool.or_eq_true] at h ⊢
  tauto

theorem isIdentPart_of_isDigit {c : Char} (h : c.isDigit = true) : isIdentPart c = true := by
  simp [isIdentPart, Char.isAlphanum, h]

namespace Ways

/-- Every way of the pattern takes a text of the given kind. -/
def Takes (p : Ways) (Q : List Char → Prop) : Prop :=
  ∀ s, ∀ rest ∈ p s, ∃ u, s = u ++ rest ∧ Q u

variable {p q : Ways} {Q Q' Q'' : List Char → Prop}

theorem Takes.imp (h : p.Takes Q) (hq : ∀ u, Q u → Q' u) : p.Takes Q' := by
  intro s rest hr
  obtain ⟨u, hu, hQ⟩ := h s rest hr
  exact ⟨u, hu, hq u hQ⟩

theorem takes_char (c : Char → Bool) : (char c).Takes fun u => ∃ x, c x = true ∧ u = [x] := by
  intro s rest hr
  cases s with
  | nil => simp [char] at hr
  | cons x s =>
    simp only [char] at hr
    split at hr
    · rename_i hx
      simp only [List.mem_singleton] at hr
      exact ⟨[x], by simp [hr], x, hx, rfl⟩
    · simp at hr

theorem takes_text (t : String) : (text t).Takes fun u => u = t.toList := by
  intro s rest hr
  have h : dropPrefix? t.toList s = some rest := by simpa [text] using hr
  exact ⟨t.toList, dropPrefix?_eq_some h, rfl⟩

theorem Takes.next (hp : p.Takes Q) (hq : q.Takes Q') (h : ∀ u v, Q u → Q' v → Q'' (u ++ v)) :
    (p.next q).Takes Q'' := by
  intro s rest hr
  obtain ⟨mid, hm, hmr⟩ := List.mem_flatMap.1 hr
  obtain ⟨u, rfl, hu⟩ := hp s mid hm
  obtain ⟨v, rfl, hv⟩ := hq mid rest hmr
  exact ⟨u ++ v, by simp, h u v hu hv⟩

theorem Takes.or (hp : p.Takes Q) (hq : q.Takes Q) : (p.or q).Takes Q := by
  intro s rest hr
  rcases List.mem_append.1 hr with hr | hr
  · exact hp s rest hr
  · exact hq s rest hr

theorem Takes.opt (hp : p.Takes Q) (h : Q []) : p.opt.Takes Q := by
  intro s rest hr
  rcases List.mem_append.1 hr with hr | hr
  · exact hp s rest hr
  · simp only [List.mem_singleton] at hr
    exact ⟨[], by simp [hr], h⟩

theorem takes_run (c : Char → Bool) : (run c).Takes fun u => ∀ x ∈ u, c x = true := by
  intro s
  induction s with
  | nil =>
    intro rest hr
    simp only [run, List.mem_singleton] at hr
    exact ⟨[], by simp [hr], by simp⟩
  | cons x s ih =>
    intro rest hr
    simp only [run] at hr
    split at hr
    · rename_i hx
      rcases List.mem_append.1 hr with hr | hr
      · obtain ⟨u, rfl, hu⟩ := ih rest hr
        exact ⟨x :: u, rfl, by simpa [hx] using hu⟩
      · simp only [List.mem_singleton] at hr
        exact ⟨[], by simp [hr], by simp⟩
    · simp only [List.mem_singleton] at hr
      exact ⟨[], by simp [hr], by simp⟩

theorem takes_barred (c : Char → Bool) : (barred c).Takes fun u => u = [] := by
  intro s rest hr
  simp only [barred] at hr
  split at hr
  · simp at hr
  · simp only [List.mem_singleton] at hr
    exact ⟨[], by simp [hr], rfl⟩

theorem Takes.length? (h : p.Takes Q) {s : List Char} {n : Nat} (hn : p.length? s = some n) :
    ∃ u rest, s = u ++ rest ∧ n = u.length ∧ Q u := by
  obtain ⟨rest, hr, rfl⟩ := Option.map_eq_some_iff.1 hn
  obtain ⟨u, rfl, hu⟩ := h s rest (List.mem_of_head? hr)
  exact ⟨u, rest, rfl, by simp, hu⟩

end Ways

end InkGauge.Text

namespace InkGauge.Contract

open Text

/-- A text whose last character is not blank. -/
def EndsInInk (u : List Char) : Prop := ∃ v c, u = v ++ [c] ∧ isBlank c = false

theorem EndsInInk.append {u v : List Char} (h : EndsInInk v) : EndsInInk (u ++ v) := by
  obtain ⟨w, c, rfl, hc⟩ := h
  exact ⟨u ++ w, c, by simp, hc⟩

/-- A text that is not all blank. -/
def HasInk (u : List Char) : Prop := ∃ c ∈ u, isBlank c = false

theorem EndsInInk.hasInk {u : List Char} (h : EndsInInk u) : HasInk u := by
  obtain ⟨v, c, rfl, hc⟩ := h
  exact ⟨c, by simp, hc⟩

/-- A text without blanks. -/
def AllInk (u : List Char) : Prop := ∀ c ∈ u, isBlank c = false

theorem AllInk.append {u v : List Char} (hu : AllInk u) (hv : AllInk v) : AllInk (u ++ v) := by
  intro c hc
  rcases List.mem_append.1 hc with hc | hc
  · exact hu c hc
  · exact hv c hc

theorem AllInk.endsInInk {u : List Char} (h : AllInk u) (hu : u ≠ []) : EndsInInk u := by
  refine ⟨u.dropLast, u.getLast hu, (List.dropLast_concat_getLast hu).symm, ?_⟩
  exact h _ (List.getLast_mem hu)

namespace Token

theorem takes_text_ink {t : String} (h : t.toList.all (!isBlank ·) = true) :
    (Ways.text t).Takes AllInk := by
  apply (Ways.takes_text t).imp
  rintro u rfl c hc
  simpa using List.all_eq_true.1 h c hc

theorem takes_char_ink {p : Char → Bool} (h : ∀ c, p c = true → isBlank c = false) :
    (Ways.char p).Takes AllInk := by
  apply (Ways.takes_char p).imp
  rintro u ⟨x, hx, rfl⟩ c hc
  simp only [List.mem_singleton] at hc
  exact hc ▸ h x hx

theorem takes_run_ink {p : Char → Bool} (h : ∀ c, p c = true → isBlank c = false) :
    (Ways.run p).Takes AllInk :=
  (Ways.takes_run p).imp fun _ hu c hc => h c (hu c hc)

theorem isBlank_of_isDigit {c : Char} (h : c.isDigit = true) : isBlank c = false :=
  isBlank_of_isIdentPart (isIdentPart_of_isDigit h)

theorem isBlank_of_isHex {c : Char} (h : isHex c = true) : isBlank c = false := by
  simp only [isHex, Bool.or_eq_true, Bool.and_eq_true, decide_eq_true_eq] at h
  rcases h with (h | h) | h
  · exact isBlank_of_isDigit h
  · exact isBlank_eq_false_of_toNat (Nat.le_trans (by decide) h.1) (Nat.le_trans h.2 (by decide))
  · exact isBlank_eq_false_of_toNat (Nat.le_trans (by decide) h.1) (Nat.le_trans h.2 (by decide))

theorem isBlank_of_isDigitMark {c : Char} (h : isDigitMark c = true) : isBlank c = false := by
  apply isBlank_of_isIdentPart
  simp only [isDigitMark, Bool.or_eq_true] at h
  simp only [isIdentPart, Char.isAlphanum, Bool.or_eq_true]
  tauto

/-- A run of at least one character without blanks. -/
def Solid (u : List Char) : Prop := AllInk u ∧ u ≠ []

theorem Solid.append {u v : List Char} (hu : Solid u) (hv : AllInk v) : Solid (u ++ v) :=
  ⟨hu.1.append hv, by simp [hu.2]⟩

theorem takes_text_solid {t : String} (h : t.toList.all (!isBlank ·) = true) (ht : t.toList ≠ []) :
    (Ways.text t).Takes Solid := by
  intro s rest hr
  obtain ⟨u, hu, rfl⟩ := Ways.takes_text t s rest hr
  exact ⟨_, hu, fun c hc => by simpa using List.all_eq_true.1 h c hc, ht⟩

theorem takes_char_solid {p : Char → Bool} (h : ∀ c, p c = true → isBlank c = false) :
    (Ways.char p).Takes Solid := by
  intro s rest hr
  obtain ⟨u, hu, x, hx, rfl⟩ := Ways.takes_char p s rest hr
  exact ⟨[x], hu, by simpa [AllInk] using h x hx, by simp⟩

theorem takes_run1_solid {p : Char → Bool} (h : ∀ c, p c = true → isBlank c = false) :
    (Ways.run1 p).Takes Solid :=
  (takes_char_solid h).next (takes_run_ink h) fun _ _ => Solid.append

theorem takes_decimalRun : decimalRun.Takes Solid :=
  (takes_char_solid fun _ => isBlank_of_isDigit).next
    (takes_run_ink fun _ => isBlank_of_isDigitMark) fun _ _ => Solid.append

theorem takes_prefixed {t : String} {p : Char → Bool} (ht : t.toList.all (!isBlank ·) = true)
    (ht' : t.toList ≠ []) (h : ∀ c, p c = true → isBlank c = false) :
    ((Ways.text t).next (Ways.run1 p)).Takes Solid :=
  (takes_text_solid ht ht').next (takes_run1_solid h) fun _ _ hu hv => hu.append hv.1

theorem takes_exponentWays : exponentWays.Takes AllInk := by
  apply (takes_char_ink _).next _ fun _ _ => AllInk.append
  · intro c hc
    simp only [Bool.or_eq_true, beq_iff_eq] at hc
    rcases hc with rfl | rfl <;> decide
  · apply ((takes_char_ink _).opt _).next _ fun _ _ => AllInk.append
    · intro c hc
      simp only [Bool.or_eq_true, beq_iff_eq] at hc
      rcases hc with rfl | rfl <;> decide
    · intro c hc
      cases hc
    · exact (takes_run1_solid fun _ => isBlank_of_isDigitMark).imp fun _ h => h.1

theorem takes_suffixWays : suffixWays.Takes AllInk := by
  refine Ways.Takes.or (Ways.Takes.or ?_ (takes_text_ink (by decide))) (takes_text_ink (by decide))
  apply (takes_char_ink _).next _ fun _ _ => AllInk.append
  · intro c hc
    simp only [Bool.or_eq_true, beq_iff_eq] at hc
    rcases hc with rfl | rfl <;> decide
  · have h8 : (Ways.text "8").Takes AllInk := takes_text_ink (by decide)
    have h16 : (Ways.text "16").Takes AllInk := takes_text_ink (by decide)
    have h32 : (Ways.text "32").Takes AllInk := takes_text_ink (by decide)
    have h64 : (Ways.text "64").Takes AllInk := takes_text_ink (by decide)
    have h128 : (Ways.text "128").Takes AllInk := takes_text_ink (by decide)
    exact ((((h8.or h16).or h32).or h64).or h128).or (takes_text_ink (by decide))

theorem takes_numberWays : numberWays.Takes Solid := by
  have hnil : AllInk [] := fun c hc => by cases hc
  have hend : (suffixWays.opt.next (Ways.barred isIdentPart)).Takes AllInk :=
    (takes_suffixWays.opt hnil).next (Ways.takes_barred _) fun u v hu hv => by simpa [hv] using hu
  have hfraction : ((Ways.text ".").next decimalRun).opt.Takes AllInk := by
    refine Ways.Takes.opt ?_ hnil
    exact (takes_text_ink (by decide)).next takes_decimalRun fun _ _ hu hv => hu.append hv.1
  have hdecimal : (decimalRun.next
      (((Ways.text ".").next decimalRun).opt.next exponentWays.opt)).Takes Solid :=
    takes_decimalRun.next (hfraction.next (takes_exponentWays.opt hnil) fun _ _ => AllInk.append)
      fun _ _ => Solid.append
  refine Ways.Takes.next (Ways.Takes.or (Ways.Takes.or (Ways.Takes.or ?_ ?_) ?_) hdecimal) hend
    fun _ _ => Solid.append
  · refine takes_prefixed (by decide) (by decide) fun c hc => ?_
    simp only [Bool.or_eq_true, beq_iff_eq] at hc
    rcases hc with hc | rfl
    · exact isBlank_of_isHex hc
    · decide
  · refine takes_prefixed (by decide) (by decide) fun c hc => ?_
    simp only [Bool.or_eq_true, Bool.and_eq_true, decide_eq_true_eq, beq_iff_eq] at hc
    rcases hc with hc | rfl
    · exact isBlank_eq_false_of_toNat (Nat.le_trans (by decide) hc.1) (Nat.le_trans hc.2 (by decide))
    · decide
  · refine takes_prefixed (by decide) (by decide) fun c hc => ?_
    simp only [Bool.or_eq_true, beq_iff_eq] at hc
    rcases hc with (rfl | rfl) | rfl <;> decide

theorem takes_lifetimeWays : lifetimeWays.Takes Solid := by
  refine (takes_text_solid (by decide) (by decide)).next
    ((takes_char_ink fun c hc => ?_).next ((takes_run_ink fun c hc => ?_).next
      (Ways.takes_barred _) fun u v hu hv => ?_) fun _ _ => AllInk.append) fun _ _ => Solid.append
  · exact isBlank_of_isIdentPart (isIdentPart_of_isIdentStart hc)
  · exact isBlank_of_isIdentPart hc
  · simpa [hv] using hu

/-- A pattern takes some text. -/
theorem takes_any_next {p q : Ways} {Q Q' : List Char → Prop} (hp : p.Takes Q) (hq : q.Takes Q') :
    (p.next q).Takes fun _ => True := hp.next hq fun _ _ _ _ => trivial

theorem takes_characterBody : characterBody.Takes fun _ => True := by
  have ht (t : String) : (Ways.text t).Takes fun _ => True :=
    (Ways.takes_text t).imp fun _ _ => trivial
  have hc (c : Char → Bool) : (Ways.char c).Takes fun _ => True :=
    (Ways.takes_char c).imp fun _ _ => trivial
  have hr (c : Char → Bool) : (Ways.run c).Takes fun _ => True :=
    (Ways.takes_run c).imp fun _ _ => trivial
  refine Ways.Takes.or (Ways.Takes.or (Ways.Takes.or (hc _) ?_) ?_) ?_
  · exact takes_any_next (ht _) (takes_any_next (takes_any_next (hc _) (hr _)) (ht _))
  · exact takes_any_next (ht _) (takes_any_next (hc _) (hc _))
  · exact takes_any_next (ht _) (hc _)

theorem takes_characterWays : characterWays.Takes EndsInInk := by
  have hquote : (Ways.text "'").Takes EndsInInk := by
    apply (Ways.takes_text "'").imp
    rintro u rfl
    exact ⟨[], '\'', rfl, by decide⟩
  have hopt : (Ways.text "b").opt.Takes fun _ => True :=
    Ways.Takes.opt ((Ways.takes_text "b").imp fun _ _ => trivial) trivial
  exact hopt.next (hquote.next (takes_characterBody.next hquote fun _ _ _ h => h.append)
    fun _ _ _ h => h.append) fun _ _ _ h => h.append

/-- The token takes the text `u` off the front of `s`. -/
def Cuts (s : List Char) (n : Nat) (Q : List Char → Prop) : Prop :=
  ∃ u rest, s = u ++ rest ∧ n = u.length ∧ Q u

theorem Cuts.imp {s : List Char} {n : Nat} {Q Q' : List Char → Prop} (h : Cuts s n Q)
    (hq : ∀ u, Q u → Q' u) : Cuts s n Q' := by
  obtain ⟨u, rest, hs, hn, hQ⟩ := h
  exact ⟨u, rest, hs, hn, hq u hQ⟩

theorem Cuts.cons {s : List Char} {n : Nat} {Q Q' : List Char → Prop} {c : Char} (h : Cuts s n Q)
    (hq : ∀ u, Q u → Q' (c :: u)) : Cuts (c :: s) (n + 1) Q' := by
  obtain ⟨u, rest, rfl, rfl, hQ⟩ := h
  exact ⟨c :: u, rest, rfl, rfl, hq u hQ⟩

theorem cuts_stringRest {s : List Char} {n : Nat} (h : stringRest? s = some n) :
    Cuts s n EndsInInk := by
  fun_induction stringRest? s generalizing n with
  | case1 s =>
    cases h
    exact ⟨['"'], s, rfl, rfl, [], '"', rfl, by decide⟩
  | case2 c s ih =>
    obtain ⟨m, hm, rfl⟩ := Option.map_eq_some_iff.1 h
    exact ((ih hm).cons fun _ hu => hu.append (u := [c])).cons fun _ hu => hu.append (u := ['\\'])
  | case3 => cases h
  | case4 c s _ _ _ ih =>
    obtain ⟨m, hm, rfl⟩ := Option.map_eq_some_iff.1 h
    exact (ih hm).cons fun _ hu => hu.append (u := [c])
  | case5 => cases h

theorem cuts_rawRest {fence s : List Char} {n : Nat} (hf : AllInk fence)
    (h : rawRest? fence s = some n) : Cuts s n EndsInInk := by
  induction s generalizing n with
  | nil => cases h
  | cons c s ih =>
    unfold rawRest? at h
    split at h
    · rename_i hc
      simp only [Bool.and_eq_true, decide_eq_true_eq] at hc
      obtain ⟨rfl, hs⟩ := hc
      obtain ⟨rest, rfl⟩ := (startsWith_iff fence s).1 hs
      cases h
      refine ⟨'"' :: fence, rest, rfl, rfl, ?_⟩
      have hq : AllInk ('"' :: fence) := by
        intro d hd
        rcases List.mem_cons.1 hd with rfl | hd
        · decide
        · exact hf d hd
      exact hq.endsInInk (by simp)
    · obtain ⟨m, hm, rfl⟩ := Option.map_eq_some_iff.1 h
      exact (ih hm).cons fun _ hu => hu.append (u := [c])

theorem cuts_rawBody {s : List Char} {n : Nat} (h : rawBody? s = some n) : Cuts s n EndsInInk := by
  unfold rawBody? at h
  split at h
  · rename_i s
    dsimp only at h
    split at h
    · rename_i rest hd
      obtain ⟨m, hm, rfl⟩ := Option.map_eq_some_iff.1 h
      have hf : AllInk (s.takeWhile (· == '#')) := by
        intro c hc
        have hx := List.mem_takeWhile_imp hc
        simp only [beq_iff_eq] at hx
        rw [hx]
        decide
      obtain ⟨u, r, hr, hl, hu⟩ := cuts_rawRest hf hm
      refine ⟨'r' :: s.takeWhile (· == '#') ++ '"' :: u, r, ?_, ?_, ?_⟩
      · have hs : s = s.takeWhile (· == '#') ++ s.dropWhile (· == '#') :=
          List.takeWhile_append_dropWhile.symm
        rw [hd, hr] at hs
        nth_rewrite 1 [hs]
        simp
      · simp [hl]
        omega
      · exact EndsInInk.append (u := 'r' :: s.takeWhile (· == '#'))
          (EndsInInk.append (u := ['"']) hu)
    · cases h
  · cases h

theorem cuts_byteMarked {length? : List Char → Option Nat}
    (hl : ∀ s n, length? s = some n → Cuts s n EndsInInk) {s : List Char} {n : Nat}
    (h : byteMarked? length? s = some n) : Cuts s n EndsInInk := by
  unfold byteMarked? at h
  split at h
  · rename_i rest
    rcases Option.or_eq_some_iff.1 h with h | ⟨_, h⟩
    · obtain ⟨m, hm, rfl⟩ := Option.map_eq_some_iff.1 h
      exact (hl _ _ hm).cons fun _ hu => hu.append (u := ['b'])
    · exact hl _ _ h
  · exact hl _ _ h

theorem cuts_quoted {s : List Char} {n : Nat} (h : quoted? s = some n) : Cuts s n EndsInInk := by
  unfold quoted? at h
  split at h
  · obtain ⟨m, hm, rfl⟩ := Option.map_eq_some_iff.1 h
    exact (cuts_stringRest hm).cons fun _ hu => hu.append (u := ['"'])
  · cases h

theorem cuts_wordLength {ws : List (List Char)} {s : List Char} {n : Nat}
    (h : wordLength? ws s = some n) : Cuts s n (· ∈ ws) := by
  obtain ⟨w, hw, hs⟩ := List.exists_of_findSome?_eq_some h
  split at hs
  · rename_i rest hr
    split at hs
    · cases hs
      exact ⟨w, rest, dropPrefix?_eq_some hr, rfl, hw⟩
    · cases hs
  · cases hs

theorem cuts_identLength {s : List Char} {n : Nat} (h : identLength s = some n) :
    Cuts s n AllInk ∧ 0 < n := by
  unfold identLength at h
  split at h
  · rename_i c s
    split at h
    · rename_i hc
      cases h
      refine ⟨⟨c :: s.takeWhile isIdentPart, s.dropWhile isIdentPart, ?_, rfl, ?_⟩, by omega⟩
      · simp
      · intro d hd
        apply isBlank_of_isIdentPart
        rcases List.mem_cons.1 hd with rfl | hd
        · exact isIdentPart_of_isIdentStart hc
        · exact List.mem_takeWhile_imp hd
    · cases h
  · cases h

theorem Solid.endsInInk {u : List Char} (h : Solid u) : EndsInInk u := h.1.endsInInk h.2

theorem Cuts.solid {s : List Char} {n : Nat} (h : Cuts s n AllInk) (hn : 0 < n) :
    Cuts s n Solid := by
  obtain ⟨u, rest, hs, rfl, hu⟩ := h
  exact ⟨u, rest, hs, rfl, hu, List.length_pos_iff.1 hn⟩

theorem cuts_nameLength {s : List Char} {n : Nat} (h : nameLength? s = some n) :
    Cuts s n HasInk := by
  have hident {s n} (h : identLength s = some n) : Cuts s n HasInk := by
    obtain ⟨hc, hn⟩ := cuts_identLength h
    exact (hc.solid hn).imp fun _ hu => hu.endsInInk.hasInk
  unfold nameLength? at h
  dsimp only at h
  split at h
  · rename_i rest
    rcases Option.or_eq_some_iff.1 h with h | ⟨_, h⟩
    · obtain ⟨m, hm, rfl⟩ := Option.map_eq_some_iff.1 h
      refine ((hident hm).cons (c := '#') fun _ hu => ?_).cons fun _ hu => hu
      exact ⟨'r', by simp, by decide⟩
    · exact hident h
  · split at h
    · split at h
      · cases h
      · exact hident h
    · exact hident h

/-- Tokens that are not all blank. -/
def inked : Token → Bool
  | .gap | .commentText | .loose | .reserved => false
  | .word w => w.any (!isBlank ·)
  | _ => true

/-- Tokens that are literals. -/
def isLiteral : Token → Bool
  | .rawString | .string | .character | .number | .truth => true
  | _ => false

theorem scan_literal {t : Token} (ht : t.isLiteral = true) {s : List Char} {n : Nat}
    (h : scan t s = some n) : Cuts s n EndsInInk := by
  cases t with
  | rawString => exact cuts_byteMarked (fun _ _ => cuts_rawBody) h
  | string => exact cuts_byteMarked (fun _ _ => cuts_quoted) h
  | character => exact takes_characterWays.length? h
  | number => exact Cuts.imp (takes_numberWays.length? h) fun _ hu => hu.endsInInk
  | truth =>
    refine (cuts_wordLength h).imp fun w hw => ?_
    simp only [truthWords, List.map_cons, List.map_nil, List.mem_cons, List.not_mem_nil,
      or_false] at hw
    rcases hw with rfl | rfl
    · exact ⟨['t', 'r', 'u'], 'e', rfl, by decide⟩
    · exact ⟨['f', 'a', 'l', 's'], 'e', rfl, by decide⟩
  | _ => cases ht

theorem scan_inked {t : Token} (ht : t.inked = true) {s : List Char} {n : Nat}
    (h : scan t s = some n) : Cuts s n HasInk := by
  cases t with
  | word w =>
    refine (cuts_wordLength h).imp fun u hu => ?_
    simp only [List.mem_singleton] at hu
    obtain ⟨c, hc, hb⟩ := List.any_eq_true.1 ht
    exact ⟨c, hu ▸ hc, by simpa using hb⟩
  | name => exact cuts_nameLength h
  | underscore =>
    simp only [scan] at h
    split at h
    · split at h
      · cases h
      · cases h
        exact ⟨['_'], _, rfl, rfl, '_', by simp, by decide⟩
    · cases h
  | selfWord =>
    refine (cuts_wordLength h).imp fun w hw => ?_
    simp only [selfWords, List.map_cons, List.map_nil, List.mem_cons, List.not_mem_nil,
      or_false] at hw
    rcases hw with rfl | rfl | rfl | rfl
    · exact ⟨'s', by decide, by decide⟩
    · exact ⟨'S', by decide, by decide⟩
    · exact ⟨'s', by decide, by decide⟩
    · exact ⟨'c', by decide, by decide⟩
  | lifetime => exact Cuts.imp (takes_lifetimeWays.length? h) fun _ hu => hu.endsInInk.hasInk
  | digits =>
    rw [scan, some?] at h
    split at h
    · cases h
    · rename_i hn
      cases h
      have hc : Cuts s (s.takeWhile Char.isDigit).length AllInk :=
        ⟨_, _, List.takeWhile_append_dropWhile.symm, rfl,
          fun c hc => isBlank_of_isDigit (List.mem_takeWhile_imp hc)⟩
      exact (hc.solid (Nat.pos_of_ne_zero hn)).imp fun _ hu => hu.endsInInk.hasInk
  | truth | number | character | string | rawString =>
    exact (scan_literal rfl h).imp fun _ hu => hu.hasInk
  | gap | commentText | loose | reserved => cases ht

end Token

end InkGauge.Contract
