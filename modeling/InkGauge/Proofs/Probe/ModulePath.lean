import InkGauge.Proofs.Probe.Patches

/-!
The module of the tracker is put behind the text, outside of all modules. A probe in an impl block
calls it by a path that goes up once for every inline module around the block. The number is noted
for the span of the block by one search through the file, and asked for by another; in a file that
was read, both come by the same blocks.
-/

namespace InkGauge.Probe

open Contract Number

/-- The path of the tracker from inside so many modules. -/
def pathFrom (depth : Nat) : List Char :=
  (List.replicate depth "super::".toList).flatten ++ "__ink_profiling".toList

theorem toList_modulePath (depth : Nat) : (modulePath depth).toList = pathFrom depth := by
  simp [modulePath, pathFrom, moduleName, String.toList_join, List.flatMap_def]

/-- The line calls the tracker by the path from inside so many modules, and the path goes up no
further. -/
def CallsFrom (depth : Nat) (line : ProbeLine) : Prop :=
  ∃ lead args, line = .profiled (lead ++ pathFrom depth ++ "::probe_".toList ++ args) ∧
    ¬"super::".toList <:+ lead

/-- The line repeats the statement, its value, or what it binds the value to. -/
def Site.Copies (s : Site) (id : Nat) (text : List Char) (line : ProbeLine) : Prop :=
  line = .always (slice text s.target.stmt.span) ∨
  line = .unprofiled (slice text s.target.stmt.span) ∨
  line = .profiled (("let __ink_result_" ++ natText id ++ ascription s.target.stmt ++ " = ").toList
    ++ slice text s.target.value.span ++ [';']) ∨
  line ∈ rebind id text s.target.stmt

theorem callsFrom_before (s : Site) (id : Nat) : CallsFrom s.depth (s.before id) := by
  refine ⟨("let __ink_before_" ++ natText id ++ " = ").toList,
    ("before(" ++ natText id ++ ");").toList, ?_, ?_⟩
  · simp [Site.before, toList_modulePath]
  · rintro ⟨t, ht⟩
    have hlast := congrArg List.getLast? ht
    rw [String.toList_append, List.getLast?_append, List.getLast?_append] at hlast
    simp at hlast

/-- Two lines of a probe call the tracker by the path, and the others come from the contract. -/
theorem lines_callFrom (s : Site) (id : Nat) (text : List Char) :
    ∃ before own after rest, s.lines id text = before :: own ++ after :: rest ∧
      CallsFrom s.depth before ∧ CallsFrom s.depth after ∧
      ∀ line ∈ own ++ rest, s.Copies id text line := by
  unfold Site.lines
  split
  · refine ⟨s.before id, [_], _, Site.rebind id text s.target.stmt ++
      [.unprofiled (slice text s.target.stmt.span)], rfl, callsFrom_before s id,
      ⟨[], ("after_with_size(" ++ natText id ++ ", __ink_before_" ++ natText id ++
        ", ::core::mem::size_of_val(&__ink_result_" ++ natText id ++ "), " ++ s.label ++
        ");").toList, by simp [toList_modulePath], by decide⟩, ?_⟩
    intro line hline
    simp only [List.singleton_append, List.mem_cons, List.mem_append, List.not_mem_nil,
      or_false] at hline
    rcases hline with rfl | hline | rfl
    · exact .inr (.inr (.inl rfl))
    · exact .inr (.inr (.inr hline))
    · exact .inr (.inl rfl)
  · refine ⟨s.before id, [_], _, [], rfl, callsFrom_before s id,
      ⟨[], ("after(" ++ natText id ++ ", __ink_before_" ++ natText id ++ ", " ++ s.label ++
        ");").toList, by simp [toList_modulePath], by decide⟩, ?_⟩
    intro line hline
    exact .inl (List.mem_singleton.1 hline)

/-- The text takes the place of the statement. Two of its lines call the tracker by the path from
inside so many modules, and the others come from the contract. -/
def Site.CallsFrom (s : Site) (depth id : Nat) (text replacement : List Char) : Prop :=
  ∃ before own after rest,
    replacement = ('\n' :: indentAt text s.target.stmt.span.start).intercalate
      ((before :: own ++ after :: rest).flatMap ProbeLine.text) ∧
    Probe.CallsFrom depth before ∧ Probe.CallsFrom depth after ∧
    ∀ line ∈ own ++ rest, s.Copies id text line

theorem edit_callsFrom (s : Site) (id : Nat) (text : List Char) :
    s.CallsFrom s.depth id text (s.edit id text).replacement := by
  obtain ⟨before, own, after, rest, hlines, hcalls⟩ := lines_callFrom s id text
  exact ⟨before, own, after, rest, by rw [Site.edit, hlines], hcalls⟩

/-- Going through items that stand at a depth, this is noted of a block in them. -/
def Noted (items : List Item) (depth : Nat) (entry : Span × Nat) : Prop :=
  ∃ d i b, Nested items d i ∧ ImplBlock.WrittenAs b i ∧ entry = (b.span, depth + d)

theorem noted_cons_iff {i : Item} {is : List Item} {depth : Nat} {entry : Span × Nat} :
    Noted (i :: is) depth entry ↔ (∃ b, ImplBlock.WrittenAs b i ∧ entry = (b.span, depth)) ∨
      Noted i.inner (depth + 1) entry ∨ Noted is depth entry := by
  constructor
  · rintro ⟨d, j, b, hnested, hb, rfl⟩
    rcases (List.singleton_append ▸ hnested : Nested ([i] ++ is) d j).of_append with hi | his
    · cases hi with
      | here hj =>
        cases List.mem_singleton.1 hj
        exact .inl ⟨b, hb, rfl⟩
      | inside hm hinner =>
        cases List.mem_singleton.1 hm
        exact .inr (.inl ⟨_, j, b, hinner, hb, by rw [Nat.add_assoc, Nat.add_comm 1]⟩)
    · exact .inr (.inr ⟨d, j, b, his, hb, rfl⟩)
  · rintro (⟨b, hb, rfl⟩ | ⟨d, j, b, hnested, hb, rfl⟩ | ⟨d, j, b, hnested, hb, rfl⟩)
    · exact ⟨0, i, b, .here List.mem_cons_self, hb, rfl⟩
    · exact ⟨d + 1, j, b, .of_inner List.mem_cons_self hnested, hb,
        by rw [Nat.add_assoc, Nat.add_comm 1]⟩
    · exact ⟨d, j, b, hnested.mono fun _ => List.mem_cons_of_mem i, hb, rfl⟩

/-- An item is noted itself if it is a block, and then the items in it. -/
theorem noteItem_eq (depth : Nat) (out : Depths) (i : Item) :
    noteItem depth out i = noteItems (depth + 1)
      ((i.implBlock?.map fun b => (b.span, depth)).toList ++ out) i.inner := by
  obtain ⟨attrs, visibility, span, kind⟩ := i
  cases kind with
  | mod name items => cases items <;> rfl
  | _ => rfl

theorem mem_noteItems {entry : Span × Nat} : (depth : Nat) → (out : Depths) → (is : List Item) →
    (entry ∈ noteItems depth out is ↔ entry ∈ out ∨ Noted is depth entry)
  | depth, out, [] => by
    have hnone : ¬Noted [] depth entry := fun ⟨_, _, _, h, _⟩ => h.ne_nil rfl
    simp [noteItems, hnone]
  | depth, out, i :: is => by
    have hsize := i.sizeOf_inner_le
    have hblock : entry ∈ (i.implBlock?.map fun b => (b.span, depth)).toList ↔
        ∃ b, ImplBlock.WrittenAs b i ∧ entry = (b.span, depth) := by
      rw [Option.mem_toList, Option.map_eq_some_iff]
      simp only [implBlock?_eq_some_iff, @eq_comm _ entry]
    rw [noteItems, noteItem_eq, mem_noteItems depth _ is, mem_noteItems (depth + 1) _ i.inner,
      noted_cons_iff, List.mem_append, hblock]
    grind
termination_by _ _ is => sizeOf is
decreasing_by
  · rw [List.cons.sizeOf_spec]
    omega
  · rw [List.cons.sizeOf_spec]
    omega

/-- The block stands in the file, inside so many inline modules. -/
def StandsAt (tree : SourceFile) (b : ImplBlock) (depth : Nat) : Prop :=
  ∃ i, Nested tree.items depth i ∧ b.WrittenAs i

section

variable {source : List Char} {filename : String} {tree : SourceFile}

/-- The items of a file that was read, as a row. -/
theorem row_items (h : parse source filename = .ok tree) :
    Row source 0 source.length ((Node.items tree.items).map .node) := by
  have hrow := parse_row h
  rw [List.map_append] at hrow
  exact hrow.sublist (List.sublist_append_right _ _)

theorem mem_impls_iff_standsAt (b : ImplBlock) : b ∈ tree.impls ↔ ∃ d, StandsAt tree b d :=
  mem_impls_iff

theorem StandsAt.nonempty (h : parse source filename = .ok tree) {b : ImplBlock} {d : Nat}
    (hb : StandsAt tree b d) : b.span.start < b.span.stop := by
  obtain ⟨i, hnested, -, hspan, -⟩ := hb
  rw [← hspan]
  exact (hnested.within (row_items h)).1

/-- The blocks are found one behind the other. -/
theorem impls_before (h : parse source filename = .ok tree) :
    tree.impls.Pairwise fun a b => a.span.start < b.span.start ∧ a.span.Before b.span := by
  have hnonempty : ∀ b ∈ tree.impls, b.span.start < b.span.stop := by
    intro b hb
    obtain ⟨d, hstands⟩ := (mem_impls_iff_standsAt b).1 hb
    exact hstands.nonempty h
  have hbefore := (inOrder_walkFrom (row_items h)).pairwise fun s hs => by
    obtain ⟨b, hb, rfl⟩ := List.mem_map.1 hs
    exact hnonempty b hb
  apply (List.pairwise_map.1 hbefore).imp_of_mem
  intro a b ha _ hab
  exact ⟨Nat.lt_of_lt_of_le (hnonempty a ha) hab, hab⟩

/-- Blocks of one span are one block, at one depth. -/
theorem StandsAt.unique (h : parse source filename = .ok tree) {b b' : ImplBlock} {d d' : Nat}
    (hb : StandsAt tree b d) (hb' : StandsAt tree b' d') (hspan : b.span = b'.span) :
    b = b' ∧ d = d' := by
  obtain ⟨i, hnested, hof⟩ := hb
  obtain ⟨i', hnested', hof'⟩ := hb'
  obtain ⟨rfl, rfl⟩ := hnested.eq_of_span (row_items h) hnested' hof.inner_eq_nil hof'.inner_eq_nil
    (by rw [hof.2.1, hof'.2.1, hspan])
  have hsome := (implBlock?_eq_some_iff.2 hof).symm.trans (implBlock?_eq_some_iff.2 hof')
  exact ⟨Option.some.inj hsome, rfl⟩

theorem mem_moduleDepths_iff {entry : Span × Nat} :
    entry ∈ moduleDepths tree ↔ ∃ b d, StandsAt tree b d ∧ entry = (b.span, d) := by
  rw [moduleDepths, mem_noteItems]
  constructor
  · rintro (hnil | ⟨d, i, b, hnested, hb, rfl⟩)
    · cases hnil
    · exact ⟨b, d, ⟨i, hnested, hb⟩, by rw [Nat.zero_add]⟩
  · rintro ⟨b, d, ⟨i, hnested, hb⟩, rfl⟩
    exact .inr ⟨d, i, b, hnested, hb, by rw [Nat.zero_add]⟩

/-- What is noted of a block is the number of modules around it. -/
theorem lookup_moduleDepths (h : parse source filename = .ok tree) {b : ImplBlock} {d : Nat}
    (hb : StandsAt tree b d) : (moduleDepths tree).lookup b.span = some d := by
  have hmem : (b.span, d) ∈ moduleDepths tree := mem_moduleDepths_iff.2 ⟨b, d, hb, rfl⟩
  cases hlookup : (moduleDepths tree).lookup b.span with
  | none => simpa using List.lookup_eq_none_iff.1 hlookup _ hmem
  | some d' =>
    obtain ⟨before, rest, heq, -⟩ := List.lookup_eq_some_iff.1 hlookup
    have hmem' : (b.span, d') ∈ moduleDepths tree := by simp [heq]
    obtain ⟨b', d'', hb', hentry⟩ := mem_moduleDepths_iff.1 hmem'
    obtain ⟨hspan, rfl⟩ := Prod.mk.inj hentry
    rw [(hb.unique h hb' hspan).2]

/-- A site lies in a method of a block, and is as deep as is noted for the block. -/
theorem site_in_block {s : Site} (hs : s ∈ sites tree) : ∃ b ∈ tree.impls,
    ∃ m ∈ methodsOf b.items, ∃ body, m.fn.body = some body ∧ s.target ∈ targetsIn body ∧
      s.depth = (moduleDepths tree).of b := by
  rw [sites_eq_flatMap] at hs
  obtain ⟨b, hb, hs⟩ := List.mem_flatMap.1 hs
  obtain ⟨m, hm, hs⟩ := List.mem_flatMap.1 hs
  unfold methodSites at hs
  split at hs
  · unfold sitesOf at hs
    split at hs
    · rename_i body hbody
      obtain ⟨t, ht, rfl⟩ := List.mem_map.1 hs
      exact ⟨b, hb, m, hm, body, hbody, ht, rfl⟩
    · cases hs
  · cases hs

/-- The search for entry points comes by every impl block of a contract once, in source order. The
other search notes for each of them the number of inline modules around it. The probes that are put
into the block call the tracker by a path that goes up as often. -/
theorem probes_callFrom (h : parse source filename = .ok tree) (i : Instrumentor) :
    (∀ b, b ∈ tree.impls ↔ ∃ d, StandsAt tree b d) ∧
    (tree.impls.Pairwise fun a b => a.span.start < b.span.start ∧ a.span.Before b.span) ∧
    (∀ b ∈ tree.impls, ∃ d, (moduleDepths tree).lookup b.span = some d ∧
      ∀ d', StandsAt tree b d' ↔ d' = d) ∧
    (∃ out, applyEdits source (i.place tree).1 = .ok out ∧
      i.run source filename = (.ok (withModule i.thresholds out), (i.place tree).2)) ∧
    ∀ (id : Nat) (edit : Edit), (i.place tree).1[id]? = some edit →
      ∃ b ∈ tree.impls, ∃ (d : Nat) (s : Site),
      (moduleDepths tree).lookup b.span = some d ∧ StandsAt tree b d ∧
      (∃ m ∈ methodsOf b.items, ∃ body, m.fn.body = some body ∧ s.target ∈ targetsIn body) ∧
      edit.start = s.target.stmt.span.start ∧ edit.stop = s.target.stmt.span.stop ∧
      s.CallsFrom d id source edit.replacement := by
  refine ⟨mem_impls_iff_standsAt, impls_before h, ?_, ?_, ?_⟩
  · intro b hb
    obtain ⟨d, hstands⟩ := (mem_impls_iff_standsAt b).1 hb
    refine ⟨d, lookup_moduleDepths h hstands, fun d' => ⟨fun hd' => (hd'.unique h hstands rfl).2, ?_⟩⟩
    rintro rfl
    exact hstands
  · refine ⟨patched source 0 (patches tree), ?_, ?_⟩
    · rw [place_eq, edits_eq_map]
      exact applyEdits_patches (patches_inOrder h)
    · rw [run_of_parse h, place_eq, text_of_parse h]
  · intro id edit hedit
    rw [place_eq, edits_eq_zipIdx, text_of_parse h] at hedit
    simp only [List.getElem?_map, List.getElem?_zipIdx, Option.map_eq_some_iff] at hedit
    obtain ⟨_, ⟨s, hs, rfl⟩, rfl⟩ := hedit
    obtain ⟨b, hb, m, hm, body, hbody, htarget, hdepth⟩ := site_in_block (List.mem_of_getElem? hs)
    obtain ⟨d, hstands⟩ := (mem_impls_iff_standsAt b).1 hb
    have hlookup := lookup_moduleDepths h hstands
    rw [Depths.of, hlookup, Option.getD_some] at hdepth
    refine ⟨b, hb, d, s, hlookup, hstands, ⟨m, hm, body, hbody, htarget⟩, rfl, rfl, ?_⟩
    rw [← hdepth, Nat.zero_add]
    exact edit_callsFrom s id source

end

/-- Two modules around a block with one read, and a declared module beside them. -/
def nestedRead : String :=
  "mod a;mod c\x7bmod d\x7bimpl C\x7bpub fn f(&self)\x7bself.x.get(k);\x7d\x7d\x7d\x7d"

theorem probes_callFrom_nestedRead : ∃ (tree : SourceFile) (b : ImplBlock) (s : Site) (edit : Edit),
    parse nestedRead.toList "" = .ok tree ∧
    b ∈ tree.impls ∧ (moduleDepths tree).lookup b.span = some 2 ∧ StandsAt tree b 2 ∧
    ((Instrumentor.fresh .default).place tree).1[0]? = some edit ∧
    s.CallsFrom 2 0 nestedRead.toList edit.replacement := by
  have hcheck : parsesTo nestedRead (fun f => (moduleDepths f).map (·.2) == [2] &&
      ((Instrumentor.fresh .default).place f).1.length == 1) = true := by decide +kernel
  obtain ⟨tree, htree, hall⟩ := exists_of_parsesTo hcheck
  obtain ⟨hdepths, hlength⟩ := Bool.and_eq_true_iff.1 hall
  have hlt : 0 < ((Instrumentor.fresh .default).place tree).1.length := by
    rw [beq_iff_eq.1 hlength]
    exact Nat.one_pos
  have hedit := List.getElem?_eq_getElem hlt
  obtain ⟨-, -, -, -, hedits⟩ := probes_callFrom htree (.fresh .default)
  obtain ⟨b, hb, d, s, hlookup, hstands, -, -, -, hcalls⟩ := hedits 0 _ hedit
  have htwo : d = 2 := by
    obtain ⟨before, rest, heq, -⟩ := List.lookup_eq_some_iff.1 hlookup
    have hmem : d ∈ (moduleDepths tree).map (·.2) := by simp [heq]
    rw [beq_iff_eq.1 hdepths] at hmem
    exact List.mem_singleton.1 hmem
  subst htwo
  exact ⟨tree, b, s, _, htree, hb, hlookup, hstands, hedit, hcalls⟩

end InkGauge.Probe
