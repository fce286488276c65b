import InkGauge.Proofs.Probe.Patches

/-!
A build that is not to be profiled.

Of the lines that take the place of a probed statement, such a build keeps one: the statement as it
was. So the instrumented text without the lines that drop out is the text that was read.
-/

namespace InkGauge.Probe

open Contract

/-- The lines that are left in a build that is not to be profiled: those for the other build go with
the attribute before them, and of those for this one only the attribute goes. -/
def unprofiledLines : List (List Char) → List (List Char)
  | [] => []
  | [l] => if l = profiledOnly.toList ∨ l = unprofiledOnly.toList then [] else [l]
  | l :: m :: ls =>
    if l = profiledOnly.toList then unprofiledLines ls
    else if l = unprofiledOnly.toList then unprofiledLines (m :: ls)
    else l :: unprofiledLines (m :: ls)

/-- The patch in a build that is not to be profiled. -/
def Patch.unprofiled (p : Patch) : Patch := { p with lines := unprofiledLines p.lines }

/-- The code of a line that a build keeps that is not to be profiled. -/
def ProbeLine.unprofiled? : ProbeLine → Option (List Char)
  | .profiled _ => none
  | .unprofiled code | .always code => some code

theorem unprofiledLines_profiled (code : List Char) (ls : List (List Char)) :
    unprofiledLines (profiledOnly.toList :: code :: ls) = unprofiledLines ls := by
  rw [unprofiledLines, if_pos rfl]

theorem unprofiledLines_unprofiled (code : List Char) (ls : List (List Char)) :
    unprofiledLines (unprofiledOnly.toList :: code :: ls) = unprofiledLines (code :: ls) := by
  have hne : unprofiledOnly.toList ≠ profiledOnly.toList := by decide
  rw [unprofiledLines, if_neg hne, if_pos rfl]

theorem unprofiledLines_code {code : List Char} (hon : code ≠ profiledOnly.toList)
    (hoff : code ≠ unprofiledOnly.toList) (ls : List (List Char)) :
    unprofiledLines (code :: ls) = code :: unprofiledLines ls := by
  cases ls with
  | nil => simp [unprofiledLines, hon, hoff]
  | cons m ls => rw [unprofiledLines, if_neg hon, if_neg hoff]

/-- What is left of lines, if no code that is left reads like one of the attributes. -/
theorem unprofiledLines_text {ps : List ProbeLine}
    (h : ∀ p ∈ ps, ∀ code, p.unprofiled? = some code →
      code ≠ profiledOnly.toList ∧ code ≠ unprofiledOnly.toList) :
    unprofiledLines (ps.flatMap ProbeLine.text) = ps.filterMap ProbeLine.unprofiled? := by
  induction ps with
  | nil => rfl
  | cons p ps ih =>
    have hp := h p (by simp)
    have hrest := ih fun q hq => h q (by simp [hq])
    rw [List.flatMap_cons]
    cases p with
    | profiled code =>
      change unprofiledLines (profiledOnly.toList :: code :: ps.flatMap ProbeLine.text) = _
      rw [unprofiledLines_profiled, hrest]
      rfl
    | unprofiled code =>
      change unprofiledLines (unprofiledOnly.toList :: code :: ps.flatMap ProbeLine.text) = _
      rw [unprofiledLines_unprofiled, unprofiledLines_code (hp code rfl).1 (hp code rfl).2, hrest]
      rfl
    | always code =>
      change unprofiledLines (code :: ps.flatMap ProbeLine.text) = _
      rw [unprofiledLines_code (hp code rfl).1 (hp code rfl).2, hrest]
      rfl

/-- Either way of probing a statement leaves it once, as it was. -/
theorem unprofiled_lines (s : Site) (id : Nat) (text : List Char) :
    (s.lines id text).filterMap ProbeLine.unprofiled? = [slice text s.target.stmt.span] := by
  unfold Site.lines
  split
  · unfold Site.caughtLines
    cases s.target.stmt <;> rfl
  · rfl

theorem getLast?_slice {text : List Char} {s : Span} (hs : s.Marks text) :
    (slice text s).getLast? = text[s.stop - 1]? := by
  have hlt := hs.nonempty
  have hle := hs.inside
  have hlen : (slice text s).length = s.stop - s.start := by
    rw [slice, List.length_take, List.length_drop]
    omega
  rw [List.getLast?_eq_getElem?, hlen, slice, List.getElem?_take_of_lt (by omega),
    List.getElem?_drop]
  congr 1
  omega

/-- The text of a target ends on a semicolon, so it reads like none of the attributes. -/
theorem slice_ne_attribute {text : List Char} {lo hi : Nat} {ts : List Target} {t : Target}
    (h : Lined text lo hi ts) (ht : t ∈ ts) :
    slice text t.stmt.span ≠ profiledOnly.toList ∧
      slice text t.stmt.span ≠ unprofiledOnly.toList := by
  have hlaid := h.laid ht
  have hmarks : t.stmt.span.Marks text := hlaid.marks
  have hlast : (slice text t.stmt.span).getLast? = some ';' := by
    rw [getLast?_slice hmarks]
    exact (hlaid.closed (isSimple_of_target? (h.found t ht))).1
  constructor
  · intro he
    rw [he] at hlast
    exact absurd hlast (by decide)
  · intro he
    rw [he] at hlast
    exact absurd hlast (by decide)

/-- Every patch leaves the text it stands for. -/
theorem unprofiledLines_patch {source : List Char} {filename : String} {tree : SourceFile}
    (h : parse source filename = .ok tree) {p : Patch} (hp : p ∈ patches tree) :
    unprofiledLines p.lines = [(source.drop p.start).take (p.stop - p.start)] := by
  obtain ⟨⟨s, id⟩, hs, rfl⟩ := List.mem_map.1 hp
  have hmem : s.target ∈ targetsOf (sites tree) :=
    List.mem_map.2 ⟨s, (List.mem_zipIdx hs).2.2 ▸ List.getElem_mem _, rfl⟩
  have hkept := unprofiled_lines s id source
  have hcode : ∀ l ∈ s.lines id source, ∀ code, l.unprofiled? = some code →
      code ≠ profiledOnly.toList ∧ code ≠ unprofiledOnly.toList := by
    intro l hl code hcode
    have hin : code ∈ (s.lines id source).filterMap ProbeLine.unprofiled? :=
      List.mem_filterMap.2 ⟨l, hl, hcode⟩
    rw [hkept, List.mem_singleton] at hin
    rw [hin]
    exact slice_ne_attribute (lined_sites h) hmem
  change unprofiledLines ((s.lines id tree.text).flatMap ProbeLine.text) = _
  rw [text_of_parse h, unprofiledLines_text hcode, hkept]
  rfl

theorem inOrder_unprofiled {lo hi : Nat} {ps : List Patch} (h : PatchesInOrder lo hi ps) :
    PatchesInOrder lo hi (ps.map Patch.unprofiled) := by
  induction ps generalizing lo with
  | nil => exact h
  | cons p ps ih => exact ⟨h.1, h.2.1, ih h.2.2⟩

/-- Without the lines that drop out, the patches change nothing. -/
theorem patched_unprofiled {source : List Char} {filename : String} {tree : SourceFile}
    (h : parse source filename = .ok tree) :
    patched source 0 ((patches tree).map Patch.unprofiled) = source := by
  refine patched_original (inOrder_unprofiled (patches_inOrder h)) ?_
  intro p hp
  obtain ⟨q, hq, rfl⟩ := List.mem_map.1 hp
  have hlines : q.unprofiled.lines = [(source.drop q.start).take (q.stop - q.start)] :=
    unprofiledLines_patch h hq
  rw [Patch.text, hlines]
  simp [Patch.unprofiled, List.intercalate]

/-- The instrumented text is the text that was read with a patch for each site, and the module
behind it. The lines of a patch that are left in a build that is not to be profiled are the
statement it stands for, so dropping the others gives back the text that was read. -/
theorem run_unprofiled {source : List Char} {filename : String} {tree : SourceFile}
    (h : parse source filename = .ok tree) (i : Instrumentor) :
    ∃ out, (i.run source filename).1 = .ok (out ++ (if Text.endsWith ['\n'] out then [] else ['\n'])
        ++ '\n' :: (moduleText i.thresholds).toList) ∧
      applyEdits source (edits tree) = .ok out ∧ out = patched source 0 (patches tree) ∧
      edits tree = (patches tree).map Patch.edit ∧
      (∀ p ∈ patches tree,
        unprofiledLines p.lines = [(source.drop p.start).take (p.stop - p.start)]) ∧
      patched source 0 ((patches tree).map Patch.unprofiled) = source := by
  refine ⟨patched source 0 (patches tree), ?_, ?_, rfl, edits_eq_map tree,
    fun p hp => unprofiledLines_patch h hp, patched_unprofiled h⟩
  · rw [run_of_parse h i]
    rfl
  · rw [edits_eq_map]
    exact applyEdits_patches (patches_inOrder h)

theorem run_unprofiled_two :
    ∃ tree, parse "impl A\x7bpub fn f(&self)\x7blet a=self.b.get(x);self.c.set(y);\x7d\x7d".toList "" =
        .ok tree ∧
      (patches tree).length = 2 ∧
      patched "impl A\x7bpub fn f(&self)\x7blet a=self.b.get(x);self.c.set(y);\x7d\x7d".toList 0
        ((patches tree).map Patch.unprofiled) =
          "impl A\x7bpub fn f(&self)\x7blet a=self.b.get(x);self.c.set(y);\x7d\x7d".toList := by
  have hcheck : parsesTo "impl A\x7bpub fn f(&self)\x7blet a=self.b.get(x);self.c.set(y);\x7d\x7d"
      (fun tree => (patches tree).length == 2) = true := by decide +kernel
  obtain ⟨tree, htree, hlen⟩ := exists_of_parsesTo hcheck
  obtain ⟨_, _, _, _, _, _, hback⟩ := run_unprofiled htree (.fresh .default)
  exact ⟨tree, htree, beq_iff_eq.1 hlen, hback⟩

end InkGauge.Probe
