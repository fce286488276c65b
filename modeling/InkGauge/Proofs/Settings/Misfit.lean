import InkGauge.Proofs.Number.Range
import InkGauge.Settings.Config

/-!
When reading a configuration ends in an error that names no file.

A field of integers cuts a double off to an integer, and a field of doubles takes the double nearest
to an integer. Infinities and what is not a number have no integer, and an integer can lie beyond
the doubles. Such a number is reached if everything that is read before it is in order, and reading
then ends with an arithmetic error. Every other failure is a cause that concerns the file.
-/

namespace InkGauge.Settings

open Number Analysis

/-- Some element is bad, and all the elements before it are good. -/
def FirstBad {β : Type} (good bad : β → Prop) (l : List β) : Prop :=
  ∃ before b after, l = before ++ b :: after ∧ (∀ x ∈ before, good x) ∧ bad b

/-- When a computation succeeds, and when it ends with one particular error. -/
structure Decides {ε α : Type} (e : ε) (x : Except ε α) (good bad : Prop) : Prop where
  ok : (∃ a, x = .ok a) ↔ good
  error : x = .error e ↔ bad

section

variable {ε α β : Type} {e : ε}

theorem firstBad_nil {good bad : β → Prop} : ¬FirstBad good bad [] := by
  rintro ⟨before, b, after, h, -⟩
  cases before <;> cases h

theorem firstBad_cons {good bad : β → Prop} {b : β} {l : List β} :
    FirstBad good bad (b :: l) ↔ bad b ∨ good b ∧ FirstBad good bad l := by
  constructor
  · rintro ⟨before, b', after, h, hbefore, hb'⟩
    cases before with
    | nil =>
      cases h
      exact .inl hb'
    | cons x before =>
      cases h
      obtain ⟨hx, hbefore⟩ := List.forall_mem_cons.1 hbefore
      exact .inr ⟨hx, before, b', after, rfl, hbefore, hb'⟩
  · rintro (hb | ⟨hb, before, b', after, rfl, hbefore, hb'⟩)
    · exact ⟨[], b, l, rfl, nofun, hb⟩
    · exact ⟨b :: before, b', after, rfl, List.forall_mem_cons.2 ⟨hb, hbefore⟩, hb'⟩

theorem Decides.of_ok {x : Except ε α} {a : α} (h : x = .ok a) : Decides e x True False := by
  subst h
  exact ⟨⟨fun _ => trivial, fun _ => ⟨a, rfl⟩⟩, nofun, nofun⟩

theorem Decides.of_error {x : Except ε α} {e' : ε} (h : x = .error e') :
    Decides e x False (e' = e) := by
  subst h
  refine ⟨⟨?_, nofun⟩, Except.error.inj, congrArg _⟩
  rintro ⟨a, h⟩
  cases h

theorem Decides.congr {x : Except ε α} {good bad good' bad' : Prop} (h : Decides e x good bad)
    (hgood : good ↔ good') (hbad : bad ↔ bad') : Decides e x good' bad' :=
  ⟨h.ok.trans hgood, h.error.trans hbad⟩

/-- The error comes from the first step, or from the second if the first succeeds. -/
theorem Decides.bind_error {x : Except ε α} {good bad bad' : Prop} (hx : Decides e x good bad)
    {f : α → Except ε β} (hf : ∀ a, f a = .error e ↔ bad') :
    x >>= f = .error e ↔ bad ∨ good ∧ bad' := by
  rw [← hx.ok, ← hx.error]
  cases x with
  | error e' =>
    change Except.error e' = Except.error e ↔ _
    simp
  | ok a =>
    constructor
    · intro h
      exact .inr ⟨⟨a, rfl⟩, (hf a).1 h⟩
    · rintro (h | ⟨-, h⟩)
      · cases h
      · exact (hf a).2 h

theorem Decides.bind {x : Except ε α} {good bad good' bad' : Prop} (hx : Decides e x good bad)
    {f : α → Except ε β} (hf : ∀ a, Decides e (f a) good' bad') :
    Decides e (x >>= f) (good ∧ good') (bad ∨ good ∧ bad') := by
  refine ⟨?_, hx.bind_error fun a => (hf a).error⟩
  rw [← hx.ok]
  cases x with
  | error e' =>
    constructor
    · rintro ⟨b, h⟩
      cases h
    · rintro ⟨⟨a, h⟩, -⟩
      cases h
  | ok a =>
    rw [← (hf a).ok]
    constructor
    · intro h
      exact ⟨⟨a, rfl⟩, h⟩
    · exact And.right

theorem Decides.foldlM {f : α → β → Except ε α} {good bad : β → Prop}
    (h : ∀ a b, Decides e (f a b) (good b) (bad b)) (l : List β) (a : α) :
    Decides e (l.foldlM f a) (∀ b ∈ l, good b) (FirstBad good bad l) := by
  induction l generalizing a with
  | nil => exact (Decides.of_ok rfl).congr (by simp) (by simp [firstBad_nil])
  | cons b l ih =>
    rw [List.foldlM_cons]
    exact ((h a b).bind ih).congr List.forall_mem_cons.symm firstBad_cons.symm

end

inductive NumberKind where
  | int
  | float

/-- Why a number cannot be put into a field of a kind. -/
def NumberKind.misfit? : NumberKind → Json → Option ArithError
  | .int, .float .nan => some .nanToInteger
  | .int, .float (.infinite _) => some .infinityToInteger
  | .float, .int n => if doubleLimit ≤ n.natAbs then some .integerTooLarge else none
  | _, _ => none

def Setting.kind {α : Type} (f : Setting α) : NumberKind :=
  match f.slot with
  | .int .. => .int
  | .float .. => .float

/-- The kinds of the fields by name. -/
abbrev Schema := String → Option NumberKind

def schemaOf {α : Type} (fields : List (Setting α)) : Schema := fun key =>
  (fields.find? (·.name = key)).map Setting.kind

namespace Schema

variable (s : Schema)

def misfit? (m : String × Json) : Option ArithError := (s m.1).bind (·.misfit? m.2)

/-- The member is a number, and one that its field can take. -/
def Takes (m : String × Json) : Prop := isNumber m.2 = true ∧ s.misfit? m = none

def Knows (members : List (String × Json)) : Prop := ∀ m ∈ members, (s m.1).isSome = true

/-- A section in which everything is in order. -/
def Accepts (data : Json) : Prop :=
  ∃ members, data = .obj members ∧ s.Knows members ∧ ∀ m ∈ members, s.Takes m

/-- A section in which a number without a place is reached. -/
def Breaks (data : Json) (e : ArithError) : Prop :=
  ∃ members, data = .obj members ∧ s.Knows members ∧
    FirstBad s.Takes (fun m => s.misfit? m = some e) members

end Schema

/-- The sections in the order in which they are read. -/
def sections : List (String × Schema) := [
  ("cost_model", schemaOf Cost.Model.fields),
  ("dry_nib", schemaOf DryNibConfig.fields),
  ("optimizations", schemaOf SuggestionConfig.fields),
  ("runtime", schemaOf Probe.Thresholds.fields)]

/-- A configuration in which a number without a place is reached. -/
def Escapes (data : Json) (e : ArithError) : Prop :=
  ∃ members, data = .obj members ∧ (∀ m ∈ members, m.1 ∈ topLevelKeys) ∧
    FirstBad (fun (name, s) => ∀ d ∈ Json.get? name members, Schema.Accepts s d)
      (fun (name, s) => ∃ d ∈ Json.get? name members, Schema.Breaks s d e) sections

section

variable {α : Type} (fields : List (Setting α)) (a : α)

theorem toInteger_of_isNumber {value : Json} (hvalue : isNumber value = true) :
    (∃ n, toInteger value = .ok n) ∧ NumberKind.int.misfit? value = none ∨
      ∃ e, toInteger value = .error (.arith e) ∧ NumberKind.int.misfit? value = some e := by
  cases value with
  | int n => exact .inl ⟨⟨n, rfl⟩, rfl⟩
  | float x =>
    cases x with
    | finite sign m exp => exact .inl ⟨⟨_, rfl⟩, rfl⟩
    | infinite sign => exact .inr ⟨_, rfl, rfl⟩
    | nan => exact .inr ⟨_, rfl, rfl⟩
  | null | bool _ | str _ | arr _ | obj _ => cases hvalue

theorem replaceByName_of_isNumber (key : String) {value : Json} (hvalue : isNumber value = true) :
    (∃ a', replaceByName fields a key value = .ok a') ∧
        (schemaOf fields).misfit? (key, value) = none ∨
      ∃ e, replaceByName fields a key value = .error (.arith e) ∧
        (schemaOf fields).misfit? (key, value) = some e := by
  unfold replaceByName Schema.misfit? schemaOf
  cases fields.find? (·.name = key) with
  | none => exact .inl ⟨⟨a, rfl⟩, rfl⟩
  | some f =>
    obtain ⟨fieldName, slot⟩ := f
    cases slot with
    | int get set =>
      rcases toInteger_of_isNumber hvalue with ⟨⟨n, hn⟩, hfit⟩ | ⟨e, he, hmisfit⟩
      · refine .inl ⟨⟨set n a, ?_⟩, hfit⟩
        change (toInteger value).map (set · a) = .ok (set n a)
        rw [hn]
        rfl
      · refine .inr ⟨e, ?_, hmisfit⟩
        change (toInteger value).map (set · a) = .error (.arith e)
        rw [he]
        rfl
    | float get set =>
      cases value with
      | int n =>
        rcases Binary64.ofInt_eq n with ⟨⟨x, hx⟩, hlt⟩ | ⟨hx, hle⟩
        · refine .inl ⟨⟨set x a, ?_⟩, if_neg (Nat.not_le.2 hlt)⟩
          change (Binary64.ofInt n).mapError CoerceError.arith >>= (fun x => pure (set x a)) = _
          rw [hx]
          rfl
        · refine .inr ⟨.integerTooLarge, ?_, if_pos hle⟩
          change (Binary64.ofInt n).mapError CoerceError.arith >>= (fun x => pure (set x a)) = _
          rw [hx]
          rfl
      | float x => exact .inl ⟨⟨set x a, rfl⟩, rfl⟩
      | null | bool _ | str _ | arr _ | obj _ => cases hvalue

theorem NumberKind.misfit?_of_le {n : Nat} (h : doubleLimit ≤ n) :
    NumberKind.float.misfit? (.int n) = some .integerTooLarge := if_pos h

theorem NumberKind.misfit?_eq_none (k : NumberKind) {value : Json} (h : isNumber value = false) :
    k.misfit? value = none := by
  cases value with
  | int n => cases h
  | float x => cases h
  | null | bool _ | str _ | arr _ | obj _ => cases k <;> rfl

theorem sectionMember_decides (path name : String) (e : ArithError) (m : String × Json) :
    Decides (.arith e) (sectionMember path name fields a m.1 m.2) ((schemaOf fields).Takes m)
      ((schemaOf fields).misfit? m = some e) := by
  obtain ⟨key, value⟩ := m
  unfold sectionMember Schema.Takes
  cases hvalue : isNumber value with
  | false =>
    have hmisfit : (schemaOf fields).misfit? (key, value) = none := by
      simp [Schema.misfit?, NumberKind.misfit?_eq_none _ hvalue]
    exact (Decides.of_error rfl).congr (by simp) (by simp [hmisfit])
  | true =>
    rcases replaceByName_of_isNumber fields a key hvalue with ⟨⟨a', ha'⟩, hfit⟩ | ⟨e', he', hmisfit⟩
    · rw [ha']
      exact (Decides.of_ok rfl).congr (by simp [hfit]) (by simp [hfit])
    · rw [he']
      exact (Decides.of_error rfl).congr (by simp [hmisfit]) (by simp [hmisfit])

theorem unknown_isEmpty_iff (members : List (String × Json)) :
    ((members.map (·.1)).filter (!(fields.map (·.name)).contains ·)).isEmpty = true ↔
      (schemaOf fields).Knows members := by
  simp [Schema.Knows, schemaOf]

theorem sectionOf_decides (path name : String) (e : ArithError) (data : Json) :
    Decides (.arith e) (sectionOf path name fields a data) ((schemaOf fields).Accepts data)
      ((schemaOf fields).Breaks data e) := by
  unfold sectionOf Schema.Accepts Schema.Breaks
  cases data with
  | obj members =>
    dsimp only
    by_cases hknown : (schemaOf fields).Knows members
    · rw [if_pos ((unknown_isEmpty_iff fields members).2 hknown)]
      have hmember := fun a m => sectionMember_decides fields a path name e m
      refine (Decides.foldlM hmember members a).congr ?_ ?_
      all_goals simp [hknown]
    · rw [if_neg (mt (unknown_isEmpty_iff fields members).1 hknown)]
      exact (Decides.of_error rfl).congr (by simp [hknown]) (by simp [hknown])
  | null | bool _ | int _ | float _ | str _ | arr _ =>
    exact (Decides.of_error rfl).congr (by simp) (by simp)

theorem section?_decides (path name : String) (e : ArithError) (members : List (String × Json)) :
    Decides (.arith e) (section? path name fields a members)
      (∀ d ∈ Json.get? name members, (schemaOf fields).Accepts d)
      (∃ d ∈ Json.get? name members, (schemaOf fields).Breaks d e) := by
  unfold section?
  cases Json.get? name members with
  | none => exact (Decides.of_ok rfl).congr (by simp) (by simp)
  | some d => exact (sectionOf_decides fields a path name e d).congr (by simp) (by simp)

end

theorem scalar?_ne_arith (path key : String) (fallback : Int) (members : List (String × Json))
    (e : ArithError) : scalar? path key fallback members ≠ .error (.arith e) := by
  unfold scalar?
  split <;> nofun

theorem bind_ne_error {ε α β : Type} {e : ε} {x : Except ε α} {f : α → Except ε β}
    (hx : x ≠ .error e) (hf : ∀ a, f a ≠ .error e) : x >>= f ≠ .error e := by
  cases x with
  | error e' => exact fun h => hx (by cases h; rfl)
  | ok a => exact hf a

theorem unknownKeys_isEmpty_iff (members : List (String × Json)) :
    ((members.map (·.1)).filter (!topLevelKeys.contains ·)).isEmpty = true ↔
      ∀ m ∈ members, m.1 ∈ topLevelKeys := by
  simp

/-- Only the sections can end the reading of a configuration so. -/
theorem configOf_eq_arith_iff (path : String) (data : Json) (e : ArithError) :
    configOf path data = .error (.arith e) ↔ Escapes data e := by
  unfold Escapes
  cases data with
  | obj members =>
    simp only [Json.obj.injEq, exists_eq_left', sections, firstBad_cons, firstBad_nil]
    rw [configOf]
    by_cases hkeys : ∀ m ∈ members, m.1 ∈ topLevelKeys
    · rw [(unknownKeys_isEmpty_iff members).2 hkeys, if_neg (by decide), and_iff_right hkeys]
      refine (section?_decides _ _ path _ e members).bind_error fun costModel => ?_
      refine (section?_decides _ _ path _ e members).bind_error fun dryNib => ?_
      refine (section?_decides _ _ path _ e members).bind_error fun optimizations => ?_
      refine (section?_decides _ _ path _ e members).bind_error fun runtime => ?_
      have hscalar := fun key fallback => scalar?_ne_arith path key fallback members e
      refine iff_false_intro (bind_ne_error (hscalar _ _) fun hotspotThreshold => ?_)
      refine bind_ne_error (hscalar _ _) fun inkPerGas => ?_
      dsimp only
      split <;> nofun
    · rw [if_pos (by simpa using mt (unknownKeys_isEmpty_iff members).1 hkeys)]
      exact iff_of_false nofun fun h => hkeys h.1
  | null | bool _ | int _ | float _ | str _ | arr _ =>
    simp [configOf, throw, throwThe, MonadExceptOf.throw]

/-- A result, a cause that concerns the file, or an arithmetic error. -/
def Concerns {α : Type} (path : String) (x : ConfigM α) : Prop :=
  (∃ a, x = .ok a) ∨ (∃ cause, x = .error (.config cause path)) ∨ ∃ e, x = .error (.arith e)

section

variable {α β : Type} {path : String}

theorem Concerns.ok (a : α) : Concerns path (.ok a) := .inl ⟨a, rfl⟩

theorem Concerns.config (cause : ConfigCause) :
    Concerns path (.error (.config cause path) : ConfigM α) := .inr (.inl ⟨cause, rfl⟩)

theorem Concerns.bind {x : ConfigM α} {f : α → ConfigM β} (hx : Concerns path x)
    (hf : ∀ a, Concerns path (f a)) : Concerns path (x >>= f) := by
  rcases hx with ⟨a, rfl⟩ | ⟨cause, rfl⟩ | ⟨e, rfl⟩
  · exact hf a
  · exact .config cause
  · exact .inr (.inr ⟨e, rfl⟩)

theorem Concerns.foldlM {f : α → β → ConfigM α} (h : ∀ a b, Concerns path (f a b)) (l : List β)
    (a : α) : Concerns path (l.foldlM f a) := by
  induction l generalizing a with
  | nil => exact .ok a
  | cons b l ih =>
    rw [List.foldlM_cons]
    exact (h a b).bind ih

theorem concerns_sectionMember (name : String) (fields : List (Setting α)) (a : α) (key : String)
    (value : Json) : Concerns path (sectionMember path name fields a key value) := by
  unfold sectionMember
  cases hvalue : isNumber value with
  | false => exact .config _
  | true =>
    rcases replaceByName_of_isNumber fields a key hvalue with ⟨⟨a', ha'⟩, -⟩ | ⟨e, he, -⟩
    · rw [ha']
      exact .ok a'
    · rw [he]
      exact .inr (.inr ⟨e, rfl⟩)

theorem concerns_section? (name : String) (fields : List (Setting α)) (defaults : α)
    (members : List (String × Json)) :
    Concerns path (section? path name fields defaults members) := by
  unfold section?
  split
  · unfold sectionOf
    split
    · dsimp only
      split
      · exact .foldlM (fun a (key, value) => concerns_sectionMember name fields a key value) _ _
      · exact .config _
    · exact .config _
  · exact .ok _

theorem concerns_scalar? (key : String) (fallback : Int) (members : List (String × Json)) :
    Concerns path (scalar? path key fallback members) := by
  unfold scalar?
  split
  · exact .ok _
  · exact .config _
  · exact .ok _

end

theorem concerns_configOf (path : String) (data : Json) : Concerns path (configOf path data) := by
  cases data with
  | obj members =>
    rw [configOf]
    split
    · exact .config _
    · refine (concerns_section? ..).bind fun costModel => ?_
      refine (concerns_section? ..).bind fun dryNib => ?_
      refine (concerns_section? ..).bind fun optimizations => ?_
      refine (concerns_section? ..).bind fun runtime => ?_
      refine (concerns_scalar? ..).bind fun hotspotThreshold => ?_
      refine (concerns_scalar? ..).bind fun inkPerGas => ?_
      dsimp only
      split
      · exact .ok _
      · exact .config _
  | null | bool _ | int _ | float _ | str _ | arr _ => exact .config _

/-- Reading gives a configuration or a cause that concerns the file, unless a number without a place
is reached; then it ends with the arithmetic error of that number. -/
theorem configOf_outcome (path : String) (data : Json) :
    (∀ e, configOf path data = .error (.arith e) ↔ Escapes data e) ∧
      ((∃ c, configOf path data = .ok c) ∨
        (∃ cause, configOf path data = .error (.config cause path)) ∨ ∃ e, Escapes data e) := by
  refine ⟨configOf_eq_arith_iff path data, ?_⟩
  rcases concerns_configOf path data with hok | hcause | ⟨e, he⟩
  · exact .inl hok
  · exact .inr (.inl hcause)
  · exact .inr (.inr ⟨e, (configOf_eq_arith_iff path data e).1 he⟩)

/-- An integer without a nearest double, which is reached before the number of the last section. -/
def sampleMisfit : Json :=
  .obj [
    ("runtime", .obj [("tolerance", .float .nan)]),
    ("cost_model", .obj [("event", .int 5)]),
    ("optimizations", .obj [
      ("cached_read_savings", .float (.ofDecimal false 25 (-1))),
      ("redundant_read_savings_pct", .int doubleLimit)])]

theorem configOf_outcome_sampleMisfit :
    Escapes sampleMisfit .integerTooLarge ∧
      configOf "ink.json" sampleMisfit = .error (.arith .integerTooLarge) := by
  have hescapes : Escapes sampleMisfit .integerTooLarge := by
    refine ⟨_, rfl, by decide, ?_⟩
    simp only [sections, firstBad_cons]
    refine .inr ⟨?_, .inr ⟨nofun, .inl ⟨_, rfl, _, rfl, ?_, ?_⟩⟩⟩
    · rintro _ ⟨⟩
      exact ⟨_, rfl, List.forall_mem_singleton.2 rfl, List.forall_mem_singleton.2 ⟨rfl, rfl⟩⟩
    · exact List.forall_mem_cons.2 ⟨rfl, List.forall_mem_singleton.2 rfl⟩
    · have hkind : schemaOf SuggestionConfig.fields "redundant_read_savings_pct" = some .float :=
        rfl
      rw [firstBad_cons, firstBad_cons, Schema.misfit?, Schema.misfit?, hkind]
      exact .inr ⟨⟨rfl, rfl⟩, .inl (NumberKind.misfit?_of_le (Nat.le_refl doubleLimit))⟩
  exact ⟨hescapes, ((configOf_outcome "ink.json" sampleMisfit).1 _).2 hescapes⟩

end InkGauge.Settings
