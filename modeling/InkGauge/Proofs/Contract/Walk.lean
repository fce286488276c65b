import InkGauge.Contract.EntryPoint

/-!
The walk through the items of a file.

It takes one item after the other off a stack, where a module makes room for its own items. So it
comes by the items of the file and of its inline modules at any depth, and by no others.
-/

namespace InkGauge.Contract

/-- The item stands in a list of items, inside so many inline modules. -/
inductive Nested : List Item → Nat → Item → Prop where
  | here {items : List Item} {i : Item} (h : i ∈ items) : Nested items 0 i
  | inside {items inner : List Item} {attrs : List Attribute} {visibility : String} {span : Span}
    {name : String} {depth : Nat} {i : Item}
    (hm : ⟨attrs, visibility, span, .mod name (some inner)⟩ ∈ items)
    (h : Nested inner depth i) : Nested items (depth + 1) i

namespace Nested

variable {is js : List Item} {depth : Nat} {i m : Item}

theorem mono (h : Nested is depth i) (hsub : ∀ j ∈ is, j ∈ js) : Nested js depth i := by
  cases h with
  | here h => exact .here (hsub _ h)
  | inside hm h => exact .inside (hsub _ hm) h

theorem of_append (h : Nested (is ++ js) depth i) : Nested is depth i ∨ Nested js depth i := by
  cases h with
  | here h => exact (List.mem_append.1 h).imp .here .here
  | inside hm h => exact (List.mem_append.1 hm).imp (.inside · h) (.inside · h)

theorem ne_nil (h : Nested is depth i) : is ≠ [] := by
  cases h with
  | here h => exact List.ne_nil_of_mem h
  | inside hm => exact List.ne_nil_of_mem hm

theorem of_inner (hm : m ∈ is) (h : Nested m.inner depth i) : Nested is (depth + 1) i := by
  obtain ⟨attrs, visibility, span, kind⟩ := m
  unfold Item.inner at h
  split at h
  · rename_i heq
    cases heq
    exact .inside hm h
  · exact absurd rfl h.ne_nil

end Nested

theorem walkFrom_nil : walkFrom [] = [] := by rw [walkFrom]

theorem walkFrom_cons (i : Item) (stack : List Item) :
    walkFrom (i :: stack) = i :: walkFrom (i.inner ++ stack) := by rw [walkFrom]

/-- What lies deeper in the stack waits until all above it has been walked through. -/
theorem walkFrom_append (is stack : List Item) :
    walkFrom (is ++ stack) = walkFrom is ++ walkFrom stack := by
  fun_induction walkFrom is with
  | case1 => rfl
  | case2 i is ih => rw [List.cons_append, walkFrom_cons, ← List.append_assoc, ih, List.cons_append]

/-- The item and everything in the modules below it, in source order. -/
def Item.walk (i : Item) : List Item := i :: walkFrom i.inner

theorem walkFrom_eq_flatMap (is : List Item) : walkFrom is = is.flatMap Item.walk := by
  induction is with
  | nil => exact walkFrom_nil
  | cons i is ih => rw [walkFrom_cons, walkFrom_append, ih, List.flatMap_cons, Item.walk,
      List.cons_append]

/-- A change to items that changes what is in a module in the same way changes nothing in the
walk. -/
theorem walkFrom_map {g : Item → Item} (hg : ∀ i, (g i).inner = i.inner.map g) (is : List Item) :
    walkFrom (is.map g) = (walkFrom is).map g := by
  fun_induction walkFrom is with
  | case1 => exact walkFrom_nil
  | case2 i is ih => rw [List.map_cons, walkFrom_cons, hg, ← List.map_append, ih, List.map_cons]

theorem nested_of_mem_walkFrom {i : Item} {stack : List Item} (h : i ∈ walkFrom stack) :
    ∃ depth, Nested stack depth i := by
  fun_induction walkFrom stack with
  | case1 => cases h
  | case2 m stack ih =>
    rcases List.mem_cons.1 h with rfl | h
    · exact ⟨0, .here List.mem_cons_self⟩
    · obtain ⟨depth, hnested⟩ := ih h
      rcases hnested.of_append with hinner | hstack
      · exact ⟨depth + 1, .of_inner List.mem_cons_self hinner⟩
      · exact ⟨depth, hstack.mono fun _ => List.mem_cons_of_mem m⟩

theorem mem_walkFrom_of_nested {items : List Item} {depth : Nat} {i : Item}
    (h : Nested items depth i) : i ∈ walkFrom items := by
  induction h with
  | here h =>
    rw [walkFrom_eq_flatMap]
    exact List.mem_flatMap_of_mem h List.mem_cons_self
  | inside hm _ ih =>
    rw [walkFrom_eq_flatMap]
    exact List.mem_flatMap_of_mem hm (List.mem_cons_of_mem _ ih)

theorem mem_walkFrom_iff {items : List Item} {i : Item} :
    i ∈ walkFrom items ↔ ∃ depth, Nested items depth i :=
  ⟨nested_of_mem_walkFrom, fun ⟨_, h⟩ => mem_walkFrom_of_nested h⟩

/-- The item was written as the block. -/
def ImplBlock.WrittenAs (b : ImplBlock) (i : Item) : Prop :=
  i.attrs = b.attrs ∧ i.span = b.span ∧ ∃ traitType, i.kind = .impl b.selfType traitType b.items

theorem implBlock?_eq_some_iff {i : Item} {b : ImplBlock} :
    i.implBlock? = some b ↔ b.WrittenAs i := by
  obtain ⟨attrs, selfType, items, span⟩ := b
  unfold Item.implBlock? ImplBlock.WrittenAs
  split
  · rename_i hkind
    simp only [hkind, Option.some.injEq, ImplBlock.mk.injEq, ItemKind.impl.injEq]
    constructor
    · rintro ⟨ha, hs, hi, hspan⟩
      exact ⟨ha, hspan, _, hs, rfl, hi⟩
    · rintro ⟨ha, hspan, _, hs, -, hi⟩
      exact ⟨ha, hs, hi, hspan⟩
  · rename_i hkind
    constructor
    · intro h
      cases h
    · rintro ⟨-, -, _, h⟩
      exact absurd h (hkind _ _ _)

/-- The impl blocks that are found are those of the file and of its inline modules. -/
theorem mem_impls_iff {f : SourceFile} {b : ImplBlock} :
    b ∈ f.impls ↔ ∃ depth i, Nested f.items depth i ∧ b.WrittenAs i := by
  simp only [SourceFile.impls, SourceFile.walk, List.mem_filterMap, mem_walkFrom_iff,
    implBlock?_eq_some_iff]
  constructor
  · rintro ⟨i, ⟨depth, hnested⟩, hb⟩
    exact ⟨depth, i, hnested, hb⟩
  · rintro ⟨depth, i, hnested, hb⟩
    exact ⟨i, ⟨depth, hnested⟩, hb⟩

end InkGauge.Contract
