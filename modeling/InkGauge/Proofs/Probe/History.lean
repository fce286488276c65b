import InkGauge.Proofs.Probe.Patches

/-!
Whatever an instrumentor was given before, a contract is instrumented as by a fresh one: the probes
are numbered from zero, in the order in which their statements stand. A text that is no contract
leaves the probes as they were, and what comes later is as if it had not been there.
-/

namespace InkGauge.Probe

open Contract

/-- A text to be instrumented, and the name it goes by. -/
structure Call where
  source : List Char
  filename : String

/-- Is the text a contract? -/
def Call.isContract (c : Call) : Bool := (parse c.source c.filename).isOk

theorem Call.exists_of_isContract {c : Call} (h : c.isContract = true) :
    ∃ tree, parse c.source c.filename = .ok tree := by
  unfold isContract at h
  cases hparse : parse c.source c.filename with
  | ok tree => exact ⟨tree, rfl⟩
  | error fault =>
    rw [hparse] at h
    cases h

namespace Instrumentor

def call (i : Instrumentor) (c : Call) : Except InstrumentError (List Char) × Instrumentor :=
  i.run c.source c.filename

/-- The instrumentor after calls made one after the other. -/
def after (i : Instrumentor) : List Call → Instrumentor
  | [] => i
  | c :: cs => (i.call c).2.after cs

/-- What each of the calls gives, and the probes that are kept after it. -/
def outcomes (i : Instrumentor) :
    List Call → List (Except InstrumentError (List Char) × List Placement)
  | [] => []
  | c :: cs => ((i.call c).1, (i.call c).2.probes) :: (i.call c).2.outcomes cs

/-- A call on a text that is no contract changes nothing. -/
theorem call_of_fault {c : Call} {fault : Fault} (h : parse c.source c.filename = .error fault)
    (i : Instrumentor) : i.call c = (.error (.unparsed fault), i) := run_of_fault h i

/-- A call on a contract starts over: of the instrumentor as it was, only the thresholds matter. -/
theorem call_of_parse {c : Call} {tree : SourceFile} (h : parse c.source c.filename = .ok tree)
    (i : Instrumentor) :
    i.call c = (.ok (withModule i.thresholds (patched c.source 0 (patches tree))),
      ⟨i.thresholds, (edits tree).length, Probe.probes tree, c.source⟩) := run_of_parse h i

theorem thresholds_call (i : Instrumentor) (c : Call) :
    (i.call c).2.thresholds = i.thresholds := by
  cases h : parse c.source c.filename with
  | error fault => rw [call_of_fault h]
  | ok tree => rw [call_of_parse h]

theorem thresholds_after (i : Instrumentor) (cs : List Call) :
    (i.after cs).thresholds = i.thresholds := by
  induction cs generalizing i with
  | nil => rfl
  | cons c cs ih => rw [after, ih, thresholds_call]

theorem outcomes_append (i : Instrumentor) (cs ds : List Call) :
    i.outcomes (cs ++ ds) = i.outcomes cs ++ (i.after cs).outcomes ds := by
  induction cs generalizing i with
  | nil => rfl
  | cons c cs ih => rw [List.cons_append, outcomes, ih, outcomes, after, List.cons_append]

/-- After any calls an instrumentor is as the last of them on a contract left it, and that call
might as well have been the only one. -/
theorem after_eq_last (i : Instrumentor) (cs : List Call) :
    i.after cs = ((cs.filter Call.isContract).getLast?).elim i fun c => (i.call c).2 := by
  induction cs generalizing i with
  | nil => rfl
  | cons c cs ih =>
    rw [after, ih]
    cases h : parse c.source c.filename with
    | error fault =>
      have hno : c.isContract = false := by rw [Call.isContract, h]; rfl
      rw [List.filter_cons_of_neg (by simp [hno]), call_of_fault h]
    | ok tree =>
      have hyes : c.isContract = true := by rw [Call.isContract, h]; rfl
      rw [List.filter_cons_of_pos hyes, List.getLast?_cons]
      cases hlast : (cs.filter Call.isContract).getLast? with
      | none => rfl
      | some d =>
        have hd : d.isContract = true :=
          (List.mem_filter.1 (List.mem_of_getLast? hlast)).2
        obtain ⟨tree', hd⟩ := Call.exists_of_isContract hd
        simp only [Option.elim_some, Option.getD_some, call_of_parse hd, thresholds_call]

end Instrumentor

/-- A probe and the edit that puts it in. -/
def PutIn (tree : SourceFile) (p : Placement) (e : Edit) : Prop :=
  ∃ s ∈ sites tree, p = s.probe p.id ∧ e = s.edit p.id tree.text

theorem ids_probes (tree : SourceFile) :
    (probes tree).map Placement.id = List.range (edits tree).length := by
  have hid : (Placement.id ∘ fun x : Site × Nat => x.1.probe x.2) = Prod.snd := rfl
  rw [probes_eq_zipIdx, length_edits, List.map_map, hid, List.zipIdx_map_snd, List.range_eq_range']

theorem putIn_probes (tree : SourceFile) :
    List.Forall₂ (PutIn tree) (probes tree) (edits tree) := by
  have hmem : ∀ x ∈ (sites tree).zipIdx, x.1 ∈ sites tree := fun x hx =>
    List.fst_mem_of_mem_zipIdx hx
  rw [probes_eq_zipIdx, edits_eq_zipIdx, List.forall₂_map_left_iff, List.forall₂_map_right_iff,
    List.forall₂_same]
  exact fun x hx => ⟨x.1, hmem x hx, rfl, rfl⟩

/-- The statements that get a probe start one behind the other. -/
theorem starts_increase {source : List Char} {filename : String} {tree : SourceFile}
    (h : parse source filename = .ok tree) :
    (edits tree).Pairwise fun a b => a.start < b.start := by
  have horder := patches_inOrder h
  rw [edits_eq_map, List.pairwise_map]
  apply horder.pairwise.imp_of_mem
  intro p q hp _ hpq
  have hlt := (horder.bounds hp).2.1
  exact Int.ofNat_lt.2 (Nat.lt_of_lt_of_le hlt hpq)

/-- After any calls an instrumentor is as the last call on a contract left it. A contract gives the
text and leaves the counter, the probes and the text at hand that it gives and leaves with a fresh
instrumentor. There is a probe for each edit, numbered from zero on, and the edits start one behind
the other. A text that is no contract leaves the instrumentor as it was, and later calls give what
they would have given without it. -/
theorem call_numbered_afresh (t : Thresholds) (cs : List Call) (c : Call) :
    let i := (Instrumentor.fresh t).after cs
    i = ((cs.filter Call.isContract).getLast?).elim (.fresh t)
      (fun last => ((Instrumentor.fresh t).call last).2) ∧
    (∀ text, (i.call c).1 = .ok text →
      i.call c = (Instrumentor.fresh t).call c ∧
      ∃ tree out, parse c.source c.filename = .ok tree ∧
        applyEdits c.source (edits tree) = .ok out ∧ text = withModule t out ∧
        (i.call c).2 = ⟨t, (edits tree).length, probes tree, c.source⟩ ∧
        (probes tree).map Placement.id = List.range (edits tree).length ∧
        List.Forall₂ (PutIn tree) (probes tree) (edits tree) ∧
        (edits tree).Pairwise fun a b => a.start < b.start) ∧
    ∀ e, (i.call c).1 = .error e →
      (∃ fault, e = .unparsed fault ∧ parse c.source c.filename = .error fault) ∧
      (i.call c).2 = i ∧
      ∀ ds, ∃ later,
        (Instrumentor.fresh t).outcomes (cs ++ c :: ds) =
          (Instrumentor.fresh t).outcomes cs ++ (.error e, i.probes) :: later ∧
        (Instrumentor.fresh t).outcomes (cs ++ ds) =
          (Instrumentor.fresh t).outcomes cs ++ later := by
  intro i
  have hi : i.thresholds = t := Instrumentor.thresholds_after _ cs
  refine ⟨Instrumentor.after_eq_last _ cs, ?_⟩
  cases h : parse c.source c.filename with
  | ok tree =>
    have hcall := Instrumentor.call_of_parse h i
    rw [hi] at hcall
    constructor
    case right =>
      intro e he
      rw [hcall] at he
      cases he
    intro text htext
    rw [hcall] at htext
    cases htext
    refine ⟨?_, tree, patched c.source 0 (patches tree), rfl, ?_, rfl, congrArg Prod.snd hcall,
      ids_probes tree, putIn_probes tree, starts_increase h⟩
    · rw [hcall, Instrumentor.call_of_parse h]
      rfl
    · rw [edits_eq_map]
      exact applyEdits_patches (patches_inOrder h)
  | error fault =>
    have hcall := Instrumentor.call_of_fault h i
    constructor
    case left =>
      intro text htext
      rw [hcall] at htext
      cases htext
    intro e he
    rw [hcall] at he
    cases he
    refine ⟨⟨fault, rfl, rfl⟩, by rw [hcall], fun ds => ⟨i.outcomes ds, ?_, ?_⟩⟩
    · rw [Instrumentor.outcomes_append]
      change _ ++ ((i.call c).1, (i.call c).2.probes) :: (i.call c).2.outcomes ds = _
      rw [hcall]
    · exact Instrumentor.outcomes_append _ cs ds

/-- A text that is no contract, a contract with one probe, and one with two. -/
def brokenCall : Call := ⟨"impl".toList, ""⟩

def readCall : Call := ⟨"impl A\x7bpub fn f(&self)\x7bself.b.get(x);\x7d\x7d".toList, ""⟩

def twoReadsCall : Call :=
  ⟨"impl A\x7bpub fn f(&self)\x7bif a\x7bself.b.get(x);\x7dself.c.get(y);\x7d\x7d".toList, ""⟩

theorem call_numbered_afresh_two :
    ((Instrumentor.fresh .default).call brokenCall).2 = Instrumentor.fresh .default ∧
    ∃ text, (((Instrumentor.fresh .default).after [readCall, brokenCall]).call twoReadsCall).1 =
        .ok text ∧
      (((Instrumentor.fresh .default).after [readCall, brokenCall]).call twoReadsCall).2.nextId = 2 ∧
      (((Instrumentor.fresh .default).after [readCall, brokenCall]).call
        twoReadsCall).2.probes.map Placement.id = [0, 1] := by
  constructor
  · have hbroken : parsesTo "impl" (fun _ => true) = false := by decide +kernel
    cases h : parse brokenCall.source brokenCall.filename with
    | ok tree =>
      have hparse : parse "impl".toList "" = .ok tree := h
      rw [parsesTo, hparse] at hbroken
      cases hbroken
    | error fault =>
      have hfails : ((Instrumentor.fresh .default).call brokenCall).1 = .error (.unparsed fault) := by
        rw [Instrumentor.call_of_fault h]
      exact ((call_numbered_afresh .default [] brokenCall).2.2 _ hfails).2.1
  · have hcheck : parsesTo
        "impl A\x7bpub fn f(&self)\x7bif a\x7bself.b.get(x);\x7dself.c.get(y);\x7d\x7d"
        (fun tree => (edits tree).length == 2) = true := by decide +kernel
    obtain ⟨tree, htree, hlen⟩ := exists_of_parsesTo hcheck
    have hparse : parse twoReadsCall.source twoReadsCall.filename = .ok tree := htree
    have hok : ∃ text,
        (((Instrumentor.fresh .default).after [readCall, brokenCall]).call twoReadsCall).1 =
          .ok text := ⟨_, congrArg Prod.fst (Instrumentor.call_of_parse hparse _)⟩
    obtain ⟨text, htext⟩ := hok
    obtain ⟨-, tree', out, htree', -, -, hleft, hids, -⟩ :=
      (call_numbered_afresh .default [readCall, brokenCall] twoReadsCall).2.1 text htext
    have htrees : tree' = tree := Except.ok.inj (htree'.symm.trans htree)
    rw [hleft]
    refine ⟨text, htext, ?_, ?_⟩
    · rw [htrees]
      exact beq_iff_eq.1 hlen
    · rw [hids, htrees, beq_iff_eq.1 hlen]
      rfl

end InkGauge.Probe
