import InkGauge.Text.Spacing
import Mathlib.Data.List.Chain
import Mathlib.Data.List.DropRight

/-!
Canonical spacing is canonical.

Once the blanks of a text are single spaces between other characters, every further pass only takes
some of these spaces out. No pass brings back what an earlier one has taken out: what a pass looks
for is a space between two characters, and what was apart in the text comes together only where a
space is gone. The one case that needs care is a joint of two colons, for which colons would have to
come together; none of the passes takes the space between two colons, but for the one that starts a
joint itself. So a text in canonical spacing is left alone by every pass.
-/

namespace InkGauge.Text

/-- The second text is the first less some of its blanks. -/
inductive Thinned : List Char → List Char → Prop where
  | nil : Thinned [] []
  | keep (c : Char) {s u : List Char} (rest : Thinned s u) : Thinned (c :: s) (c :: u)
  | drop {c : Char} (blank : isBlank c = true) {s u : List Char} (rest : Thinned s u) :
      Thinned (c :: s) u

/-- No two blanks stand together. -/
def Single (s : List Char) : Prop :=
  s.IsChain fun a b => ¬(isBlank a = true ∧ isBlank b = true)

theorem squeeze_cons_of_blank {c : Char} (h : isBlank c = true) (s : List Char) :
    squeeze (c :: s) = squeeze s := by
  simp [squeeze, h]

theorem squeeze_cons_of_ink {c : Char} (h : isBlank c = false) (s : List Char) :
    squeeze (c :: s) = c :: squeeze s := by
  simp [squeeze, h]

namespace Thinned

variable {s u : List Char}

theorem squeeze_eq (h : Thinned s u) : squeeze u = squeeze s := by
  induction h with
  | nil => rfl
  | keep c rest ih => simp only [squeeze, List.filter_cons] at ih ⊢; rw [ih]
  | drop blank rest ih => rw [squeeze_cons_of_blank blank, ih]

theorem sublist (h : Thinned s u) : u.Sublist s := by
  induction h with
  | nil => exact .slnil
  | keep c rest ih => exact ih.cons_cons c
  | drop blank rest ih => exact ih.cons _

theorem head?_eq (h : Thinned s u) {c : Char} (hc : isBlank c = false) (hs : s.head? = some c) :
    u.head? = some c := by
  cases h with
  | nil => exact hs
  | keep d rest => exact hs
  | drop blank rest =>
    cases hs
    rw [hc] at blank
    cases blank

theorem getLast?_eq (h : Thinned s u) {c : Char} (hc : isBlank c = false)
    (hs : s.getLast? = some c) : u.getLast? = some c := by
  induction h with
  | nil => exact hs
  | @keep d s u rest ih =>
    cases s with
    | nil =>
      cases rest
      exact hs
    | cons e s =>
      have hu := ih (by rwa [List.getLast?_cons_cons] at hs)
      rw [List.getLast?_cons, hu, Option.getD_some]
  | @drop d blank s u rest ih =>
    cases s with
    | nil =>
      obtain rfl : d = c := by simpa using hs
      rw [hc] at blank
      cases blank
    | cons e s => exact ih (by rwa [List.getLast?_cons_cons] at hs)

theorem single (h : Thinned s u) (hs : Single s) : Single u := by
  induction h with
  | nil => exact hs
  | @keep c s u rest ih =>
    obtain ⟨hnext, hs⟩ := List.isChain_cons.1 hs
    refine List.isChain_cons.2 ⟨?_, ih hs⟩
    rintro d hd ⟨hc, hblank⟩
    -- What follows the blank in the first text is no blank, so it is kept.
    cases s with
    | nil =>
      cases rest
      cases hd
    | cons e s =>
      have he : isBlank e = false := by simpa [hc] using hnext e rfl
      rw [rest.head?_eq he rfl] at hd
      cases hd
      rw [he] at hblank
      cases hblank
  | drop blank rest ih => exact ih hs.of_cons

end Thinned

/-- All blanks of the text are single spaces. -/
structure Spaced (s : List Char) : Prop where
  spaces : ∀ c ∈ s, isBlank c = true → c = ' '
  single : Single s

/-- All blanks of the text are single spaces between other characters. -/
structure Even (s : List Char) : Prop extends Spaced s where
  head : ∀ c ∈ s.head?, isBlank c = false
  last : ∀ c ∈ s.getLast?, isBlank c = false

namespace Spaced

variable {c : Char} {s u : List Char}

theorem of_cons (h : Spaced (c :: s)) : Spaced s :=
  ⟨fun d hd => h.spaces d (List.mem_cons_of_mem c hd), h.single.of_cons⟩

theorem ink_of_ne (h : Spaced (c :: s)) (hc : c ≠ ' ') : isBlank c = false := by
  simpa [hc] using h.spaces c List.mem_cons_self

/-- What follows a space is no blank. -/
theorem ink_next (h : Spaced (' ' :: c :: s)) : isBlank c = false := by
  simpa [show isBlank ' ' = true by decide] using (List.isChain_cons_cons.1 h.single).1

theorem ne_next (h : Spaced (' ' :: c :: s)) : c ≠ ' ' := by
  rintro rfl
  exact absurd h.ink_next (by decide)

theorem head?_next (h : Spaced (' ' :: s)) : s.head? ≠ some ' ' := by
  intro hs
  obtain ⟨t, rfl⟩ := List.head?_eq_some_iff.1 hs
  exact h.ne_next rfl

theorem ink_before {d : Char} (h : Spaced (c :: d :: s)) (hd : isBlank d = true) :
    isBlank c = false := by
  simpa [hd] using (List.isChain_cons_cons.1 h.single).1

end Spaced

theorem Thinned.even {s u : List Char} (h : Thinned s u) (hs : Even s) : Even u where
  spaces c hc := hs.spaces c (h.sublist.subset hc)
  single := h.single hs.single
  head := by
    cases hhead : s.head? with
    | none =>
      rw [List.head?_eq_none_iff] at hhead
      subst hhead
      cases h
      simp
    | some c =>
      have hc := hs.head c hhead
      rw [h.head?_eq hc hhead]
      rintro _ ⟨⟩
      exact hc
  last := by
    cases hlast : s.getLast? with
    | none =>
      rw [List.getLast?_eq_none_iff] at hlast
      subst hlast
      cases h
      simp
    | some c =>
      have hc := hs.last c hlast
      rw [h.getLast?_eq hc hlast]
      rintro _ ⟨⟩
      exact hc

theorem squeeze_collapse (s : List Char) : squeeze (collapse s) = squeeze s := by
  fun_induction collapse s with
  | case1 => rfl
  | case2 c hc => rw [squeeze_cons_of_blank hc, squeeze_cons_of_blank (by decide)]
  | case3 c hc d ds hd ih => rw [ih, squeeze_cons_of_blank hc]
  | case4 c hc d ds hd ih =>
    rw [squeeze_cons_of_blank (by decide), ih, squeeze_cons_of_blank hc]
  | case5 c cs hc ih =>
    have hink : isBlank c = false := by simpa using hc
    rw [squeeze_cons_of_ink hink, squeeze_cons_of_ink hink, ih]

theorem collapse_spaces (s : List Char) : ∀ c ∈ collapse s, isBlank c = true → c = ' ' := by
  fun_induction collapse s with
  | case1 => simp
  | case2 c hc => simp
  | case3 c hc d ds hd ih => exact ih
  | case4 c hc d ds hd ih => simpa using ih
  | case5 c cs hc ih => simpa [hc] using ih

theorem collapse_cons_of_ink {c : Char} (h : isBlank c = false) (s : List Char) :
    collapse (c :: s) = c :: collapse s := by
  rw [collapse.eq_def]
  simp [h]

theorem single_collapse (s : List Char) : Single (collapse s) := by
  fun_induction collapse s with
  | case1 => exact .nil
  | case2 c hc => exact .singleton _
  | case3 c hc d ds hd ih => exact ih
  | case4 c hc d ds hd ih =>
    have hink : isBlank d = false := by simpa using hd
    rw [collapse_cons_of_ink hink] at ih ⊢
    exact .cons_cons (by simp [hink]) ih
  | case5 c cs hc ih => exact List.isChain_cons.2 ⟨by simp [hc], ih⟩

theorem spaced_collapse (s : List Char) : Spaced (collapse s) :=
  ⟨collapse_spaces s, single_collapse s⟩

theorem collapse_eq_self {s : List Char} (h : Spaced s) : collapse s = s := by
  fun_induction collapse s with
  | case1 => rfl
  | case2 c hc => rw [h.spaces c List.mem_cons_self hc]
  | case3 c hc d ds hd ih => exact absurd ⟨hc, hd⟩ (List.isChain_cons_cons.1 h.single).1
  | case4 c hc d ds hd ih => rw [ih h.of_cons, h.spaces c List.mem_cons_self hc]
  | case5 c cs hc ih => rw [ih h.of_cons]

theorem squeeze_dropWhile (s : List Char) : squeeze (s.dropWhile isBlank) = squeeze s := by
  induction s with
  | nil => rfl
  | cons c s ih =>
    by_cases hc : isBlank c = true
    · rw [List.dropWhile_cons_of_pos hc, ih, squeeze_cons_of_blank hc]
    · rw [List.dropWhile_cons_of_neg hc]

theorem squeeze_reverse (s : List Char) : squeeze s.reverse = (squeeze s).reverse :=
  List.filter_reverse

theorem squeeze_trim (s : List Char) : squeeze (trim s) = squeeze s := by
  rw [trim, trimRight, squeeze_reverse, squeeze_dropWhile, squeeze_reverse, List.reverse_reverse,
    trimLeft, squeeze_dropWhile]

theorem trim_isInfix (s : List Char) : trim s <:+: s :=
  (List.rdropWhile_prefix isBlank _).isInfix.trans (List.dropWhile_suffix isBlank).isInfix

theorem even_trim {s : List Char} (h : Spaced s) : Even (trim s) where
  spaces c hc := h.spaces c ((trim_isInfix s).subset hc)
  single := h.single.infix (trim_isInfix s)
  head c hc := by
    obtain ⟨v, hv⟩ := List.head?_eq_some_iff.1 hc
    obtain ⟨t, ht⟩ := List.rdropWhile_prefix isBlank (trimLeft s)
    have hleft : s.dropWhile isBlank = c :: (v ++ t) := by
      rw [← List.cons_append, ← hv]
      exact ht.symm
    have hnot := List.head?_dropWhile_not isBlank s
    rwa [hleft] at hnot
  last c hc := by
    obtain ⟨v, hv⟩ := List.getLast?_eq_some_iff.1 hc
    have hne : trim s ≠ [] := by simp [hv]
    have hnot := List.rdropWhile_last_not isBlank (trimLeft s) hne
    change ¬isBlank ((trim s).getLast hne) = true at hnot
    simpa [hv] using hnot

theorem trim_eq_self {s : List Char} (h : Even s) : trim s = s := by
  have hleft : trimLeft s = s := by
    cases s with
    | nil => rfl
    | cons c s => simp [trimLeft, h.head c rfl]
  have hright : trimRight s = s := by
    refine List.rdropWhile_eq_self_iff.2 fun hne => ?_
    simpa using h.last _ (List.getLast?_eq_some_getLast hne)
  rw [trim, hleft, hright]

theorem thinned_tightenJoints (s : List Char) : Thinned s (tightenJoints s) := by
  fun_induction tightenJoints s with
  | case1 => exact .nil
  | case2 c s hc ih => exact .keep _ (.drop (by decide) ih)
  | case3 c s hc ih => exact .keep _ ih
  | case4 c s hc ih => exact .keep _ (.keep _ (.drop (by decide) ih))
  | case5 c s hc ih => exact .keep _ ih
  | case6 c s _ _ hc ih =>
    have hspace : c = ' ' := by simpa using (Bool.and_eq_true_iff.1 hc).1
    exact .drop (by rw [hspace]; decide) ih
  | case7 c s _ _ hc ih => exact .keep _ ih

/-- A space and a character that a joint binds to. -/
def SpaceBinds (s : List Char) : Prop := ∃ c u, s = ' ' :: c :: u ∧ joins c = true

theorem SpaceBinds.eq_space {c : Char} {s : List Char} (h : SpaceBinds (c :: s)) : c = ' ' := by
  obtain ⟨d, u, hs, -⟩ := h
  cases hs
  rfl

theorem SpaceBinds.joins {c : Char} {s : List Char} (h : SpaceBinds (' ' :: c :: s)) :
    joins c = true := by
  obtain ⟨d, u, hs, hd⟩ := h
  cases hs
  exact hd

/-- The text starts with a space in front of a joint, or with a joint and a space behind it. -/
def LooseJoint : List Char → Prop
  | ' ' :: s => startsJoint s = true
  | '.' :: s => SpaceBinds s
  | ':' :: ':' :: s => SpaceBinds s
  | _ => False

/-- No joint has a space next to it. -/
def JointsTight (s : List Char) : Prop := ∀ u, u <:+ s → ¬LooseJoint u

theorem jointsTight_cons {c : Char} {s : List Char} :
    JointsTight (c :: s) ↔ ¬LooseJoint (c :: s) ∧ JointsTight s := by
  simp only [JointsTight, List.suffix_cons_iff, or_imp, forall_and, forall_eq]

theorem looseJoint_cons_iff {c : Char} {s : List Char} : LooseJoint (c :: s) ↔
    c = ' ' ∧ startsJoint s = true ∨ c = '.' ∧ SpaceBinds s ∨
      c = ':' ∧ ∃ u, s = ':' :: u ∧ SpaceBinds u := by
  constructor
  · intro h
    unfold LooseJoint at h
    split at h
    case h_1 heq => cases heq; exact .inl ⟨rfl, h⟩
    case h_2 heq => cases heq; exact .inr (.inl ⟨rfl, h⟩)
    case h_3 heq => cases heq; exact .inr (.inr ⟨rfl, _, rfl, h⟩)
    case h_4 => cases h
  · rintro (⟨rfl, h⟩ | ⟨rfl, h⟩ | ⟨rfl, u, rfl, h⟩) <;> exact h

theorem bindsNext_cons {c : Char} (hc : c ≠ ' ') (s : List Char) :
    bindsNext (c :: s) = joins c := by
  unfold bindsNext
  split
  case h_1 heq =>
    cases heq
    exact absurd rfl hc
  case h_2 heq =>
    cases heq
    rfl
  case h_3 heq => cases heq

theorem startsJoint_cons_iff {c : Char} {s : List Char} : startsJoint (c :: s) = true ↔
    c = '.' ∧ bindsNext s = true ∨ c = ':' ∧ ∃ u, s = ':' :: u ∧ bindsNext u = true := by
  constructor
  · intro h
    unfold startsJoint at h
    split at h
    case h_1 heq => cases heq; exact .inl ⟨rfl, h⟩
    case h_2 heq => cases heq; exact .inr ⟨rfl, _, rfl, h⟩
    case h_3 => cases h
  · rintro (⟨rfl, h⟩ | ⟨rfl, u, rfl, h⟩) <;> exact h

namespace Thinned

variable {c : Char} {s u : List Char}

/-- A character that is no blank is kept. -/
theorem cons_inv (h : Thinned (c :: s) u) (hc : isBlank c = false) :
    ∃ v, u = c :: v ∧ Thinned s v := by
  cases h with
  | keep _ rest => exact ⟨_, rfl, rest⟩
  | drop blank rest =>
    rw [hc] at blank
    cases blank

/-- A space that is kept is the one that was there, since no blank stands next to it. -/
theorem space_inv (h : Thinned s (' ' :: u)) (hs : Spaced s) :
    ∃ t, s = ' ' :: t ∧ Thinned t u := by
  cases h with
  | keep _ rest => exact ⟨_, rfl, rest⟩
  | @drop d blank t _ rest =>
    cases t with
    | nil => cases rest
    | cons e t =>
      obtain rfl := hs.spaces d List.mem_cons_self blank
      obtain ⟨v, hv, -⟩ := rest.cons_inv hs.ink_next
      cases hv
      exact absurd hs.ink_next (by decide)

theorem spaceBinds (h : Thinned s u) (hs : Spaced s) (hu : SpaceBinds u) : SpaceBinds s := by
  obtain ⟨d, v, rfl, hd⟩ := hu
  obtain ⟨t, rfl, ht⟩ := h.space_inv hs
  cases t with
  | nil => cases ht
  | cons e t =>
    obtain ⟨w, hw, -⟩ := ht.cons_inv hs.ink_next
    cases hw
    exact ⟨d, t, rfl, hd⟩

theorem bindsNext_eq (h : Thinned s u) (hs : Spaced s) : bindsNext u = bindsNext s := by
  cases s with
  | nil =>
    cases h
    rfl
  | cons c s =>
    by_cases hc : c = ' '
    · subst hc
      cases h with
      | keep _ rest =>
        cases s with
        | nil =>
          cases rest
          rfl
        | cons d s =>
          obtain ⟨v, rfl, -⟩ := rest.cons_inv hs.ink_next
          rfl
      | drop _ rest =>
        cases s with
        | nil =>
          cases rest
          decide
        | cons d s =>
          obtain ⟨v, rfl, -⟩ := rest.cons_inv hs.ink_next
          rw [bindsNext_cons hs.ne_next]
          rfl
    · obtain ⟨v, rfl, -⟩ := h.cons_inv (hs.ink_of_ne hc)
      rw [bindsNext_cons hc, bindsNext_cons hc]

/-- A joint stays a joint, and there is a new one only where two colons come together. -/
theorem startsJoint_eq (h : Thinned s u) (hs : Spaced s) (hhead : s.head? ≠ some ' ')
    (hcolons : ∀ r v, s = ':' :: ' ' :: ':' :: r → u = ':' :: ':' :: v → bindsNext v = false) :
    startsJoint u = startsJoint s := by
  cases s with
  | nil =>
    cases h
    rfl
  | cons c s =>
    have hc : c ≠ ' ' := by simpa using hhead
    obtain ⟨v, rfl, hrest⟩ := h.cons_inv (hs.ink_of_ne hc)
    rw [Bool.eq_iff_iff, startsJoint_cons_iff, startsJoint_cons_iff, hrest.bindsNext_eq hs.of_cons]
    refine or_congr Iff.rfl (and_congr_right ?_)
    rintro rfl
    constructor
    · rintro ⟨w, rfl, hw⟩
      cases s with
      | nil => cases hrest
      | cons d s =>
        by_cases hd : d = ' '
        · subst hd
          cases hrest with
          | drop _ rest =>
            cases s with
            | nil => cases rest
            | cons e s =>
              obtain ⟨x, hx, -⟩ := rest.cons_inv hs.of_cons.ink_next
              cases hx
              rw [hcolons s w rfl rfl] at hw
              cases hw
        · obtain ⟨x, hx, hrest⟩ := hrest.cons_inv (hs.of_cons.ink_of_ne hd)
          cases hx
          exact ⟨s, rfl, by rwa [← hrest.bindsNext_eq hs.of_cons.of_cons]⟩
    · rintro ⟨w, rfl, hw⟩
      obtain ⟨x, rfl, hnext⟩ := hrest.cons_inv (by decide)
      exact ⟨x, rfl, by rwa [hnext.bindsNext_eq hs.of_cons.of_cons]⟩

end Thinned

theorem tightenJoints_space (s : List Char) : tightenJoints (' ' :: s) =
    if startsJoint s = true then tightenJoints s else ' ' :: tightenJoints s := by
  rw [tightenJoints] <;> simp

/-- A space is taken out in front of a colon only if another colon follows. -/
theorem exists_of_tightenJoints_space {s u : List Char}
    (h : tightenJoints (' ' :: s) = ':' :: u) : ∃ v, u = ':' :: v := by
  rw [tightenJoints_space] at h
  split at h
  case isTrue hjoint =>
    have hthin := thinned_tightenJoints s
    rw [h] at hthin
    cases s with
    | nil => cases hthin
    | cons c s =>
      obtain ⟨rfl, -⟩ | ⟨rfl, t, rfl, -⟩ := startsJoint_cons_iff.1 hjoint
      · obtain ⟨v, hv, -⟩ := hthin.cons_inv (by decide)
        cases hv
      · obtain ⟨v, hv, hrest⟩ := hthin.cons_inv (by decide)
        cases hv
        obtain ⟨w, rfl, -⟩ := hrest.cons_inv (by decide)
        exact ⟨w, rfl⟩
  case isFalse => cases h

/-- Colons come together only in front of a third one, which no joint binds to. -/
theorem bindsNext_of_tightenJoints {r v : List Char}
    (h : tightenJoints (':' :: ' ' :: ':' :: r) = ':' :: ':' :: v) : bindsNext v = false := by
  have hfirst :
      tightenJoints (':' :: ' ' :: ':' :: r) = ':' :: tightenJoints (' ' :: ':' :: r) := by
    rw [tightenJoints] <;> simp
  rw [hfirst, List.cons.injEq] at h
  obtain ⟨w, rfl⟩ := exists_of_tightenJoints_space h.2
  exact bindsNext_cons (by decide) w

theorem startsJoint_tightenJoints {s : List Char} (hs : Spaced s) (hhead : s.head? ≠ some ' ') :
    startsJoint (tightenJoints s) = startsJoint s := by
  apply (thinned_tightenJoints s).startsJoint_eq hs hhead
  rintro r v rfl h
  exact bindsNext_of_tightenJoints h

theorem jointsTight_tightenJoints {s : List Char} (hs : Spaced s) :
    JointsTight (tightenJoints s) := by
  -- A space behind a joint that is left was there before, and was left for its next character.
  have hleft {t : List Char} (ht : Spaced t) (h : SpaceBinds (tightenJoints t)) : SpaceBinds t :=
    (thinned_tightenJoints t).spaceBinds ht h
  fun_induction tightenJoints s with
  | case1 => simp [JointsTight, LooseJoint]
  | case2 c s hc ih =>
    refine jointsTight_cons.2 ⟨fun hloose => ?_, ih hs.of_cons.of_cons⟩
    exact hs.of_cons.ne_next (hleft hs.of_cons.of_cons hloose).eq_space
  | case3 c s hc ih =>
    refine jointsTight_cons.2 ⟨fun hloose => ?_, ih hs.of_cons⟩
    exact hc (hleft hs.of_cons hloose).joins
  | case4 c s hc ih =>
    have hspaced := hs.of_cons.of_cons
    refine jointsTight_cons.2 ⟨fun hloose => ?_,
      jointsTight_cons.2 ⟨fun hloose => ?_, ih hspaced.of_cons⟩⟩
    · exact hspaced.ne_next (hleft hspaced.of_cons hloose).eq_space
    · obtain ⟨hc', -⟩ | ⟨hc', -⟩ | ⟨-, u, hu, -⟩ := looseJoint_cons_iff.1 hloose
      · exact absurd hc' (by decide)
      · exact absurd hc' (by decide)
      · obtain ⟨v, hv, -⟩ := (thinned_tightenJoints (c :: s)).cons_inv hspaced.ink_next
        rw [hv] at hu
        cases hu
        exact absurd hc (by decide)
  | case5 c s hc ih =>
    refine jointsTight_cons.2 ⟨fun hloose => ?_, ih hs.of_cons⟩
    obtain ⟨v, hv, hrest⟩ := (thinned_tightenJoints (':' :: ' ' :: c :: s)).cons_inv (by decide)
    rw [hv] at hloose
    exact hc (hrest.spaceBinds hs.of_cons.of_cons hloose).joins
  | case6 c s _ _ hc ih => exact ih hs.of_cons
  | case7 c s hpoint hcolon hc ih =>
    refine jointsTight_cons.2 ⟨fun hloose => ?_, ih hs.of_cons⟩
    rcases looseJoint_cons_iff.1 hloose with ⟨rfl, hjoint⟩ | ⟨rfl, hbinds⟩ | ⟨rfl, u, hu, hbinds⟩
    · rw [startsJoint_tightenJoints hs.of_cons hs.head?_next] at hjoint
      exact hc (by rw [hjoint]; rfl)
    · obtain ⟨d, v, rfl, -⟩ := hleft hs.of_cons hbinds
      exact hpoint d v rfl rfl
    · have hthin := thinned_tightenJoints s
      rw [hu] at hthin
      cases hthin with
      | keep _ rest =>
        obtain ⟨d, v, rfl, -⟩ := rest.spaceBinds hs.of_cons.of_cons hbinds
        exact hcolon d v rfl rfl
      | @drop e blank t _ rest =>
        obtain rfl := hs.of_cons.spaces e List.mem_cons_self blank
        obtain ⟨v, rfl⟩ := exists_of_tightenJoints_space hu
        exact absurd hbinds.eq_space (by decide)

theorem tightenJoints_eq_self {s : List Char} (h : JointsTight s) : tightenJoints s = s := by
  fun_induction tightenJoints s with
  | case1 => rfl
  | case2 c s hc ih => exact absurd ⟨c, s, rfl, hc⟩ (jointsTight_cons.1 h).1
  | case3 c s hc ih => rw [ih (jointsTight_cons.1 h).2]
  | case4 c s hc ih => exact absurd ⟨c, s, rfl, hc⟩ (jointsTight_cons.1 h).1
  | case5 c s hc ih => rw [ih (jointsTight_cons.1 h).2]
  | case6 c s _ _ hc ih =>
    obtain ⟨hspace, hjoint⟩ := Bool.and_eq_true_iff.1 hc
    obtain rfl : c = ' ' := by simpa using hspace
    exact absurd hjoint (jointsTight_cons.1 h).1
  | case7 c s _ _ hc ih => rw [ih (jointsTight_cons.1 h).2]

/-- Without the single spaces between two characters that go together. -/
def closeUp (p : Char → Char → Bool) : List Char → List Char
  | [] => []
  | a :: ' ' :: b :: s =>
    if p a b then a :: closeUp p (b :: s) else a :: closeUp p (' ' :: b :: s)
  | a :: s => a :: closeUp p s

/-- No space stands between two characters that go together. -/
def Closed (p : Char → Char → Bool) (s : List Char) : Prop :=
  ∀ a b, p a b = true → ¬[a, ' ', b] <:+: s

theorem thinned_closeUp (p : Char → Char → Bool) (s : List Char) : Thinned s (closeUp p s) := by
  fun_induction closeUp p s with
  | case1 => exact .nil
  | case2 a b s hp ih => exact .keep _ (.drop (by decide) ih)
  | case3 a b s hp ih => exact .keep _ ih
  | case4 a s _ ih => exact .keep _ ih

theorem closed_cons {p : Char → Char → Bool} {c : Char} {s : List Char} (h : Closed p (c :: s)) :
    Closed p s :=
  fun a b hp hin => h a b hp (hin.trans (List.suffix_cons c s).isInfix)

theorem closeUp_eq_self {p : Char → Char → Bool} {s : List Char} (h : Closed p s) :
    closeUp p s = s := by
  fun_induction closeUp p s with
  | case1 => rfl
  | case2 a b s hp ih => exact absurd (List.prefix_append [a, ' ', b] s).isInfix (h a b hp)
  | case3 a b s hp ih => rw [ih (closed_cons h)]
  | case4 a s _ ih => rw [ih (closed_cons h)]

/-- A space that is left was there before, between characters that do not go together. -/
theorem infix_of_closeUp {p : Char → Char → Bool} {s : List Char} (hs : Spaced s) {a b : Char}
    (h : [a, ' ', b] <:+: closeUp p s) : [a, ' ', b] <:+: s ∧ p a b = false := by
  fun_induction closeUp p s with
  | case1 => simp at h
  | case2 c d s hp ih =>
    rcases List.infix_cons_iff.1 h with hfirst | hlater
    · obtain ⟨-, t, ht⟩ := List.cons_prefix_cons.1 hfirst
      obtain ⟨u, hu, -⟩ := (thinned_closeUp p (d :: s)).cons_inv hs.of_cons.ink_next
      rw [hu] at ht
      cases ht
      exact absurd rfl hs.of_cons.ne_next
    · obtain ⟨hin, hab⟩ := ih hs.of_cons.of_cons hlater
      exact ⟨hin.trans (List.suffix_append [c, ' '] (d :: s)).isInfix, hab⟩
  | case3 c d s hp ih =>
    rcases List.infix_cons_iff.1 h with hfirst | hlater
    · obtain ⟨rfl, t, ht⟩ := List.cons_prefix_cons.1 hfirst
      have hthin := thinned_closeUp p (' ' :: d :: s)
      rw [← ht] at hthin
      obtain ⟨u, hu, hrest⟩ := hthin.space_inv hs.of_cons
      cases hu
      obtain ⟨v, hv, -⟩ := hrest.cons_inv hs.of_cons.ink_next
      cases hv
      exact ⟨(List.prefix_append [a, ' ', b] s).isInfix, by simpa using hp⟩
    · obtain ⟨hin, hab⟩ := ih hs.of_cons hlater
      exact ⟨hin.trans (List.suffix_cons c _).isInfix, hab⟩
  | case4 c s hnot ih =>
    rcases List.infix_cons_iff.1 h with hfirst | hlater
    · obtain ⟨rfl, t, ht⟩ := List.cons_prefix_cons.1 hfirst
      have hthin := thinned_closeUp p s
      rw [← ht] at hthin
      obtain ⟨u, rfl, hrest⟩ := hthin.space_inv hs.of_cons
      cases u with
      | nil => cases hrest
      | cons d u => exact absurd rfl (hnot d u)
    · obtain ⟨hin, hab⟩ := ih hs.of_cons hlater
      exact ⟨hin.trans (List.suffix_cons c _).isInfix, hab⟩

theorem closed_closeUp (p : Char → Char → Bool) {s : List Char} (hs : Spaced s) :
    Closed p (closeUp p s) := by
  intro a b hp h
  rw [(infix_of_closeUp hs h).2] at hp
  cases hp

theorem Closed.closeUp {p q : Char → Char → Bool} {s : List Char} (hs : Spaced s)
    (h : Closed q s) : Closed q (closeUp p s) :=
  fun a b hq hin => h a b hq (infix_of_closeUp hs hin).1

theorem exists_closeUp_cons (p : Char → Char → Bool) (c : Char) (s : List Char) :
    ∃ u, closeUp p (c :: s) = c :: u := by
  generalize ht : c :: s = t
  fun_cases closeUp p t with
  | case1 => cases ht
  | case2 a b s hp => cases ht; exact ⟨_, rfl⟩
  | case3 a b s hp => cases ht; exact ⟨_, rfl⟩
  | case4 a s _ => cases ht; exact ⟨_, rfl⟩

section Joints

variable {p : Char → Char → Bool} (hp : p ':' ':' = false)

include hp

theorem startsJoint_closeUp {s : List Char} (hs : Spaced s) (hhead : s.head? ≠ some ' ') :
    startsJoint (closeUp p s) = startsJoint s := by
  apply (thinned_closeUp p s).startsJoint_eq hs hhead
  rintro r v rfl h
  obtain ⟨u, hu⟩ := exists_closeUp_cons p ' ' (':' :: r)
  rw [closeUp, if_neg (by simp [hp]), hu] at h
  cases h

/-- A character in front of the text has a loose joint behind it only if it had one before. -/
theorem looseJoint_of_closeUp {c : Char} {s : List Char} (hs : Spaced (c :: s))
    (h : LooseJoint (c :: closeUp p s)) : LooseJoint (c :: s) := by
  have hthin := thinned_closeUp p s
  rcases looseJoint_cons_iff.1 h with ⟨rfl, hjoint⟩ | ⟨rfl, hbinds⟩ | ⟨rfl, u, hu, hbinds⟩
  · rwa [startsJoint_closeUp hp hs.of_cons hs.head?_next] at hjoint
  · exact hthin.spaceBinds hs.of_cons hbinds
  · cases s with
    | nil => cases hu
    | cons d s =>
      obtain ⟨v, hv⟩ := exists_closeUp_cons p d s
      rw [hv] at hu
      cases hu
      rw [hv] at hthin
      obtain ⟨w, hw, hrest⟩ := hthin.cons_inv (by decide)
      cases hw
      exact hrest.spaceBinds hs.of_cons.of_cons hbinds

theorem jointsTight_cons_closeUp {c : Char} {s : List Char} (hs : Spaced (c :: s))
    (h : JointsTight (c :: s)) (hrest : JointsTight (closeUp p s)) :
    JointsTight (c :: closeUp p s) := by
  refine jointsTight_cons.2 ⟨fun hloose => ?_, hrest⟩
  exact (jointsTight_cons.1 h).1 (looseJoint_of_closeUp hp hs hloose)

theorem jointsTight_closeUp {s : List Char} (hs : Spaced s) (h : JointsTight s) :
    JointsTight (closeUp p s) := by
  fun_induction closeUp p s with
  | case1 => exact h
  | case2 a b s hab ih =>
    obtain ⟨-, htight⟩ := jointsTight_cons.1 (jointsTight_cons.1 h).2
    refine jointsTight_cons.2 ⟨fun hloose => ?_, ih hs.of_cons.of_cons htight⟩
    obtain ⟨u, hu⟩ := exists_closeUp_cons p b s
    rcases looseJoint_cons_iff.1 hloose with ⟨rfl, -⟩ | ⟨rfl, hbinds⟩ | ⟨rfl, v, hv, -⟩
    · exact hs.ne_next rfl
    · rw [hu] at hbinds
      exact hs.of_cons.ne_next hbinds.eq_space
    · rw [hu] at hv
      cases hv
      rw [hp] at hab
      cases hab
  | case3 a b s hab ih =>
    exact jointsTight_cons_closeUp hp hs h (ih hs.of_cons (jointsTight_cons.1 h).2)
  | case4 a s _ ih =>
    exact jointsTight_cons_closeUp hp hs h (ih hs.of_cons (jointsTight_cons.1 h).2)

end Joints

/-- An opening bracket goes together with whatever follows it. -/
def opensOn (a _ : Char) : Bool := isOpening a

/-- A closing mark goes together with whatever is in front of it. -/
def closesOn (_ b : Char) : Bool := isClosing b

/-- A callee goes together with its opening bracket. -/
def calls (a b : Char) : Bool := endsCallee a && b == '('

theorem tightenOpenings_of_ink {c : Char} (hc : isBlank c = false) (inside : Bool) (s : List Char) :
    tightenOpenings inside (c :: s) = c :: tightenOpenings (isOpening c) s := by
  simp [tightenOpenings, hc]

theorem last_of_cons {a b : Char} {s : List Char}
    (h : ∀ c ∈ (a :: b :: s).getLast?, isBlank c = false) :
    ∀ c ∈ (b :: s).getLast?, isBlank c = false := by
  rwa [List.getLast?_cons_cons] at h

theorem tightenOpenings_eq {s : List Char} (hs : Spaced s)
    (hlast : ∀ c ∈ s.getLast?, isBlank c = false) :
    tightenOpenings false s = closeUp opensOn s := by
  fun_induction closeUp opensOn s with
  | case1 => rfl
  | case2 a b s hopen ih =>
    have hb := hs.of_cons.ink_next
    have hrest := ih hs.of_cons.of_cons (last_of_cons (last_of_cons hlast))
    rw [tightenOpenings_of_ink (hs.ink_before (by decide)), show isOpening a = true from hopen,
      ← hrest, tightenOpenings_of_ink hb]
    simp [tightenOpenings, hb, show isBlank ' ' = true by decide]
  | case3 a b s hopen ih =>
    rw [tightenOpenings_of_ink (hs.ink_before (by decide)), ← ih hs.of_cons (last_of_cons hlast)]
    simp [show isOpening a = false by simpa [opensOn] using hopen]
  | case4 a s hnot ih =>
    cases s with
    | nil => simp [tightenOpenings, closeUp]
    | cons b s =>
      have hrest := ih hs.of_cons (last_of_cons hlast)
      -- A blank behind the character would be the last, since nothing follows it.
      have hb : isBlank b = false := by
        by_cases hspace : b = ' '
        · subst hspace
          cases s with
          | nil => exact hlast ' ' rfl
          | cons c s => exact absurd rfl (hnot c s)
        · exact hs.of_cons.ink_of_ne hspace
      rw [← hrest, tightenOpenings_of_ink hb]
      simp [tightenOpenings, hb]

theorem consTight_of_ink {c : Char} (hc : isBlank c = false) (s : List Char) :
    consTight c s = c :: s := by
  simp [consTight, hc]

theorem tightenClosings_eq {s : List Char} (hs : Spaced s)
    (hhead : ∀ b t, s = ' ' :: b :: t → isClosing b = false) :
    tightenClosings s = closeUp closesOn s := by
  have hcons (c : Char) (t : List Char) :
      tightenClosings (c :: t) = consTight c (tightenClosings t) := rfl
  fun_induction closeUp closesOn s with
  | case1 => rfl
  | case2 a b s hclose ih =>
    have hrest : tightenClosings (b :: s) = closeUp closesOn (b :: s) := by
      refine ih hs.of_cons.of_cons ?_
      rintro c t heq
      cases heq
      exact absurd rfl hs.of_cons.ne_next
    obtain ⟨u, hu⟩ := exists_closeUp_cons closesOn b s
    have hspace : consTight ' ' (closeUp closesOn (b :: s)) = closeUp closesOn (b :: s) := by
      rw [hu, consTight, if_pos]
      simpa [show isBlank ' ' = true by decide, closesOn] using hclose
    rw [hcons, hcons, hrest, hspace, consTight_of_ink (hs.ink_before (by decide))]
  | case3 a b s hclose ih =>
    have hrest : tightenClosings (' ' :: b :: s) = closeUp closesOn (' ' :: b :: s) := by
      refine ih hs.of_cons ?_
      rintro c t heq
      cases heq
      simpa [closesOn] using hclose
    rw [hcons, hrest, consTight_of_ink (hs.ink_before (by decide))]
  | case4 a s hnot ih =>
    have hrest := ih hs.of_cons fun b t heq => absurd heq (hnot b t)
    rw [hcons, hrest]
    by_cases ha : a = ' '
    · subst ha
      cases s with
      | nil => rfl
      | cons b s =>
        obtain ⟨u, hu⟩ := exists_closeUp_cons closesOn b s
        rw [hu, consTight, if_neg]
        simp [hhead b s rfl]
    · rw [consTight_of_ink (hs.ink_of_ne ha)]

theorem tightenCalls_eq (s : List Char) : tightenCalls s = closeUp calls s := by
  fun_induction closeUp calls s with
  | case1 => rfl
  | case2 a b s hcall ih =>
    obtain ⟨ha, hb⟩ := Bool.and_eq_true_iff.1 hcall
    obtain rfl : b = '(' := by simpa using hb
    rw [tightenCalls, if_pos ha, ih]
  | case3 a b s hcall ih =>
    by_cases hb : b = '('
    · subst hb
      have ha : ¬endsCallee a = true := by simpa [calls] using hcall
      rw [tightenCalls, if_neg ha, ih]
    · rw [tightenCalls, ih]
      simpa using hb
  | case4 a s hnot ih =>
    rw [tightenCalls, ih]
    exact hnot '('

/-- Nothing is left to be taken out of the text. -/
structure Canonical (s : List Char) : Prop where
  even : Even s
  joints : JointsTight s
  openings : Closed opensOn s
  closings : Closed closesOn s

theorem Even.not_spaced_head {s : List Char} (h : Even s) (b : Char) (t : List Char)
    (hs : s = ' ' :: b :: t) : isClosing b = false := by
  subst hs
  exact absurd (h.head ' ' rfl) (by decide)

theorem Even.closeUp {s : List Char} (h : Even s) (p : Char → Char → Bool) :
    Even (closeUp p s) :=
  (thinned_closeUp p s).even h

theorem even_joints (s : List Char) : Even (tightenJoints (trim (collapse s))) :=
  (thinned_tightenJoints _).even (even_trim (spaced_collapse s))

theorem compact_eq (s : List Char) :
    compact s = closeUp closesOn (closeUp opensOn (tightenJoints (trim (collapse s)))) := by
  have heven := even_joints s
  have hopened := heven.closeUp opensOn
  rw [compact, tightenOpenings_eq heven.toSpaced heven.last,
    tightenClosings_eq hopened.toSpaced hopened.not_spaced_head]

theorem canonical_compact (s : List Char) : Canonical (compact s) := by
  have heven := even_joints s
  have hopened := heven.closeUp opensOn
  have htight := jointsTight_tightenJoints (even_trim (spaced_collapse s)).toSpaced
  rw [compact_eq]
  refine ⟨hopened.closeUp closesOn, ?_, ?_, closed_closeUp closesOn hopened.toSpaced⟩
  · exact jointsTight_closeUp rfl hopened.toSpaced (jointsTight_closeUp rfl heven.toSpaced htight)
  · exact (closed_closeUp opensOn heven.toSpaced).closeUp hopened.toSpaced

theorem compact_eq_self {s : List Char} (h : Canonical s) : compact s = s := by
  rw [compact_eq, collapse_eq_self h.even.toSpaced, trim_eq_self h.even,
    tightenJoints_eq_self h.joints, closeUp_eq_self h.openings, closeUp_eq_self h.closings]

theorem canonical_tightenCalls {s : List Char} (h : Canonical s) :
    Canonical (tightenCalls s) ∧ Closed calls (tightenCalls s) := by
  have hspaced := h.even.toSpaced
  rw [tightenCalls_eq]
  exact ⟨⟨h.even.closeUp calls, jointsTight_closeUp rfl hspaced h.joints,
    h.openings.closeUp hspaced, h.closings.closeUp hspaced⟩, closed_closeUp calls hspaced⟩

theorem squeeze_compact (s : List Char) : squeeze (compact s) = squeeze s := by
  rw [compact_eq, (thinned_closeUp _ _).squeeze_eq, (thinned_closeUp _ _).squeeze_eq,
    (thinned_tightenJoints _).squeeze_eq, squeeze_trim, squeeze_collapse]

theorem squeeze_compactTokens (s : List Char) : squeeze (compactTokens s) = squeeze s := by
  rw [compactTokens, tightenCalls_eq, (thinned_closeUp _ _).squeeze_eq, squeeze_compact]

/-- The first text has the characters of the second that are no blanks, with single spaces between
some of them: none at the ends, behind an opening bracket or before a closing mark. -/
structure SpacedAs (u s : List Char) : Prop where
  ink : squeeze u = squeeze s
  spaces : ∀ c ∈ u, isBlank c = true → c = ' '
  single : ¬[' ', ' '] <:+: u
  head : u.head? ≠ some ' '
  last : u.getLast? ≠ some ' '
  opened : ∀ c ∈ ['(', '['], ¬[c, ' '] <:+: u
  closed : ∀ c ∈ [')', ']', ',', ';'], ¬[' ', c] <:+: u

theorem Canonical.spacedAs {u s : List Char} (h : Canonical u) (hink : squeeze u = squeeze s) :
    SpacedAs u s where
  ink := hink
  spaces := h.even.spaces
  single hin := by
    have hchain := h.even.single.infix hin
    exact (List.isChain_cons_cons.1 hchain).1 (by decide)
  head hspace := absurd (h.even.head ' ' hspace) (by decide)
  last hspace := absurd (h.even.last ' ' hspace) (by decide)
  opened c hc hin := by
    -- The space is not the last character, so something stands behind it.
    obtain ⟨before, after, rfl⟩ := hin
    cases after with
    | nil => exact absurd (h.even.last ' ' (by simp)) (by decide)
    | cons b after =>
      have hopens : isOpening c = true := by simpa [isOpening] using hc
      exact h.openings c b hopens ⟨before, after, by simp⟩
  closed c hc hin := by
    obtain ⟨before, after, rfl⟩ := hin
    rcases List.eq_nil_or_concat before with rfl | ⟨before, a, rfl⟩
    · exact absurd (h.even.head ' ' rfl) (by decide)
    · have hcloses : isClosing c = true := by simpa [isClosing, or_assoc] using hc
      exact h.closings a c hcloses ⟨before, after, by simp⟩

/-- Canonical spacing keeps the text but for its blanks, has spaces only where they may stand, and
leaves alone what is in canonical spacing already. -/
theorem spacing_canonical (s : List Char) :
    compact (compact s) = compact s ∧ compactTokens (compactTokens s) = compactTokens s ∧
      SpacedAs (compact s) s ∧ SpacedAs (compactTokens s) s := by
  have hcompact := canonical_compact s
  obtain ⟨htokens, hclosed⟩ := canonical_tightenCalls hcompact
  refine ⟨compact_eq_self hcompact, ?_, hcompact.spacedAs (squeeze_compact s),
    htokens.spacedAs (squeeze_compactTokens s)⟩
  have hagain : compact (compactTokens s) = compactTokens s := compact_eq_self htokens
  rw [compactTokens, hagain, tightenCalls_eq]
  exact closeUp_eq_self hclosed

end InkGauge.Text
