import InkGauge.Proofs.Probe.Splice

/-!
The edits that put probes into a contract.

They stand one behind the other in the text that was read, so making them cannot fail: a text is
refused only because it is no contract.
-/

namespace InkGauge.Probe

open Contract

/-- The patch that puts in the probe with an id. -/
def Site.patch (s : Site) (id : Nat) (text : List Char) : Patch where
  start := s.target.stmt.span.start
  stop := s.target.stmt.span.stop
  indent := indentAt text s.target.stmt.span.start
  lines := (s.lines id text).flatMap ProbeLine.text

/-- The patches of a contract, in source order. -/
def patches (tree : SourceFile) : List Patch :=
  (sites tree).zipIdx.map fun (s, id) => s.patch id tree.text

theorem edits_eq_map (tree : SourceFile) : edits tree = (patches tree).map Patch.edit := by
  rw [edits_eq_zipIdx, patches, List.map_map]
  rfl

theorem inOrder_of_lined {text : List Char} {lo hi : Nat} {ss : List Site}
    (h : Lined text lo hi (targetsOf ss)) (id : Nat) (source : List Char) :
    PatchesInOrder lo hi ((ss.zipIdx id).map fun (s, id) => s.patch id source) := by
  have hr := h.row
  clear h
  induction ss generalizing lo id with
  | nil => exact hr
  | cons s ss ih =>
    obtain ⟨hlo, hs, hrest⟩ := hr
    exact ⟨hlo, hs.marks.nonempty, ih (id + 1) hrest⟩

theorem patches_inOrder {source : List Char} {filename : String} {tree : SourceFile}
    (h : parse source filename = .ok tree) :
    PatchesInOrder 0 source.length (patches tree) :=
  inOrder_of_lined (lined_sites h) 0 tree.text

theorem text_of_parse {source : List Char} {filename : String} {tree : SourceFile}
    (h : parse source filename = .ok tree) : tree.text = source := by
  obtain ⟨_, _, _, _, ht, _⟩ := parse_eq_ok h
  exact ht

/-- What comes of a text that is a contract: the instrumentor starts over, and is left with the
probes of this text. -/
theorem run_of_parse {source : List Char} {filename : String} {tree : SourceFile}
    (h : parse source filename = .ok tree) (i : Instrumentor) :
    i.run source filename =
      (.ok (withModule i.thresholds (patched source 0 (patches tree))),
        ⟨i.thresholds, (edits tree).length, probes tree, source⟩) := by
  have happly := applyEdits_patches (patches_inOrder h)
  rw [← edits_eq_map] at happly
  simp only [Instrumentor.run, h, Instrumentor.runTree, place_eq, text_of_parse h, happly]
  rfl

theorem run_of_fault {source : List Char} {filename : String} {fault : Fault}
    (h : parse source filename = .error fault) (i : Instrumentor) :
    i.run source filename = (.error (.unparsed fault), i) := by
  simp only [Instrumentor.run, h]

/-- A text cannot be instrumented exactly if it is no contract. The edits of a contract lie in its
text one behind the other, and can all be made. -/
theorem run_fails_only_unparsed (i : Instrumentor) (source : List Char) (filename : String) :
    (∀ e, (i.run source filename).1 = .error e ↔
      ∃ fault, parse source filename = .error fault ∧ e = .unparsed fault) ∧
    ∀ tree, parse source filename = .ok tree →
      (∀ e ∈ edits tree, 0 ≤ e.start ∧ e.start < e.stop ∧ e.stop ≤ source.length) ∧
      (edits tree).Pairwise (fun a b => a.stop ≤ b.start) ∧
      ∃ out, applyEdits source (edits tree) = .ok out := by
  constructor
  · intro e
    cases h : parse source filename with
    | error fault =>
      rw [run_of_fault h i]
      constructor
      · intro he
        cases he
        exact ⟨fault, rfl, rfl⟩
      · rintro ⟨_, hf, rfl⟩
        cases hf
        rfl
    | ok tree =>
      rw [run_of_parse h i]
      constructor
      · intro he
        cases he
      · rintro ⟨_, hf, _⟩
        cases hf
  · intro tree h
    have horder := patches_inOrder h
    rw [edits_eq_map]
    refine ⟨?_, ?_, _, applyEdits_patches horder⟩
    · intro e he
      obtain ⟨p, hp, rfl⟩ := List.mem_map.1 he
      obtain ⟨hlo, hlt, hhi⟩ := horder.bounds hp
      exact ⟨Int.natCast_nonneg _, Int.ofNat_lt.2 hlt, Int.ofNat_le.2 hhi⟩
    · rw [List.pairwise_map]
      exact horder.pairwise.imp fun hpq => Int.ofNat_le.2 hpq

theorem run_fails_only_unparsed_two :
    ∃ tree, parse "impl A\x7bpub fn f(&self)\x7bself.b.get(x);self.c.get(y);\x7d\x7d".toList "" =
        .ok tree ∧
      (edits tree).length = 2 ∧ (edits tree).Pairwise (fun a b => a.stop ≤ b.start) := by
  have hcheck : parsesTo "impl A\x7bpub fn f(&self)\x7bself.b.get(x);self.c.get(y);\x7d\x7d"
      (fun tree => (edits tree).length == 2) = true := by decide +kernel
  obtain ⟨tree, htree, hlen⟩ := exists_of_parsesTo hcheck
  have hedits := (run_fails_only_unparsed (.fresh .default) _ _).2 tree htree
  exact ⟨tree, htree, beq_iff_eq.1 hlen, hedits.2.1⟩

end InkGauge.Probe
