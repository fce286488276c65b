import InkGauge.Contract.Parse
import InkGauge.Proofs.Contract.Token
import InkGauge.Proofs.Peg.Total

/-!
The grammar of contracts always answers.

A token starts with a character of its own class. The rules that can match nothing are few, and
the others are ranked by what they try first, from the tokens up to the statements of a block. So
reading a contract never gives up, and the reply of a rule is the answer of its body.
-/

namespace InkGauge.Contract

open Text

/-- A text that starts with a character of the class. -/
def Opens (C : Char → Bool) (u : List Char) : Prop := ∃ c v, u = c :: v ∧ C c = true

theorem Opens.append {C : Char → Bool} {u : List Char} (h : Opens C u) (v : List Char) :
    Opens C (u ++ v) := by
  obtain ⟨c, w, rfl, hc⟩ := h
  exact ⟨c, w ++ v, rfl, hc⟩

namespace Token

/-- Tokens that can read nothing. -/
def idles : Token → Bool
  | .word w => w.isEmpty
  | _ => false

/-- Can the token start with the character? -/
def opens : Token → Char → Bool
  | .gap, c => isSpace c || c == '/'
  | .commentText, _ => true
  | .word w, c => w.head?.all (· == c)
  | .reserved, c | .name, c | .selfWord, c | .truth, c => isIdentStart c
  | .underscore, c => c == '_'
  | .lifetime, c => c == '\''
  | .number, c | .digits, c => c.isDigit
  | .character, c => c == '\'' || c == 'b'
  | .string, c => c == '"' || c == 'b'
  | .rawString, c => c == 'r' || c == 'b'
  | .loose, c => isLoose c

section

variable {C : Char → Bool}

theorem takes_char_opens : (Ways.char C).Takes (Opens C) := by
  refine (Ways.takes_char C).imp fun u hu => ?_
  obtain ⟨c, hc, rfl⟩ := hu
  exact ⟨c, [], rfl, hc⟩

theorem takes_text_opens {t : String} (h : t.toList.head?.any C = true) :
    (Ways.text t).Takes (Opens C) := by
  refine (Ways.takes_text t).imp fun u hu => ?_
  subst hu
  cases ht : t.toList with
  | nil => simp [ht] at h
  | cons c v => exact ⟨c, v, rfl, by simpa [ht] using h⟩

theorem takes_next_opens {p q : Ways} {Q : List Char → Prop} (hp : p.Takes (Opens C))
    (hq : q.Takes Q) : (p.next q).Takes (Opens C) :=
  hp.next hq fun _ v hu _ => hu.append v

theorem takes_prefixed_opens {t : String} {p : Char → Bool} (h : t.toList.head?.any C = true) :
    ((Ways.text t).next (Ways.run1 p)).Takes (Opens C) :=
  takes_next_opens (takes_text_opens h) (takes_any_next (Ways.takes_char p) (Ways.takes_run p))

theorem takes_decimalRun_opens : decimalRun.Takes (Opens Char.isDigit) :=
  takes_next_opens takes_char_opens (Ways.takes_run _)

theorem takes_numberWays_opens : numberWays.Takes (Opens Char.isDigit) := by
  have hfraction : ((Ways.text ".").next decimalRun).opt.Takes fun _ => True :=
    Ways.Takes.opt (takes_any_next (Ways.takes_text ".") takes_decimalRun) trivial
  have hexponent : exponentWays.opt.Takes fun _ => True :=
    Ways.Takes.opt (takes_exponentWays.imp fun _ _ => trivial) trivial
  have hsuffix : suffixWays.opt.Takes fun _ => True :=
    Ways.Takes.opt (takes_suffixWays.imp fun _ _ => trivial) trivial
  have hdecimal := takes_next_opens takes_decimalRun_opens (takes_any_next hfraction hexponent)
  refine takes_next_opens ?_ (takes_any_next hsuffix (Ways.takes_barred isIdentPart))
  exact (((takes_prefixed_opens (by decide)).or (takes_prefixed_opens (by decide))).or
    (takes_prefixed_opens (by decide))).or hdecimal

theorem takes_lifetimeWays_opens : lifetimeWays.Takes (Opens (· == '\'')) :=
  takes_next_opens (takes_text_opens (by decide))
    (takes_any_next (Ways.takes_char isIdentStart)
      (takes_any_next (Ways.takes_run isIdentPart) (Ways.takes_barred (· == '\''))))

theorem takes_characterWays_opens :
    characterWays.Takes (Opens fun c => c == '\'' || c == 'b') := by
  have hquote : ((Ways.text "'").next (characterBody.next (Ways.text "'"))).Takes
      (Opens fun c => c == '\'' || c == 'b') :=
    takes_next_opens (takes_text_opens (by decide))
      (takes_any_next takes_characterBody (Ways.takes_text "'"))
  intro s rest h
  obtain ⟨m, hm, hr⟩ := List.mem_flatMap.1 h
  rcases List.mem_append.1 hm with hb | hb
  · exact takes_next_opens (takes_text_opens (by decide)) hquote s rest
      (List.mem_flatMap.2 ⟨m, hb, hr⟩)
  · rw [List.mem_singleton.1 hb] at hr
    exact hquote s rest hr

end

theorem opens_of_ways {p : Ways} {C : Char → Bool} (h : p.Takes (Opens C)) {s : List Char}
    {n : Nat} (hn : p.length? s = some n) : n ≠ 0 ∧ Opens C s := by
  obtain ⟨u, rest, rfl, rfl, hu⟩ := h.length? hn
  refine ⟨?_, hu.append rest⟩
  obtain ⟨c, v, rfl, _⟩ := hu
  exact Nat.succ_ne_zero _

theorem opens_of_words {ws : List (List Char)} {C : Char → Bool}
    (hw : ws.all (fun w => w.head?.any C) = true) {s : List Char} {n : Nat}
    (h : wordLength? ws s = some n) : n ≠ 0 ∧ Opens C s := by
  obtain ⟨w, rest, rfl, rfl, hmem⟩ := cuts_wordLength h
  have hhead := List.all_eq_true.1 hw w hmem
  cases w with
  | nil => simp at hhead
  | cons c w => exact ⟨Nat.succ_ne_zero _, c, w ++ rest, rfl, by simpa using hhead⟩

theorem opens_of_ident {s : List Char} {n : Nat} (h : identLength s = some n) :
    n ≠ 0 ∧ Opens isIdentStart s := by
  cases s with
  | nil => cases h
  | cons c s =>
    rw [identLength] at h
    split at h
    · rename_i hc
      cases h
      exact ⟨Nat.succ_ne_zero _, c, s, rfl, hc⟩
    · cases h

theorem opens_of_name {s : List Char} {n : Nat} (h : nameLength? s = some n) :
    n ≠ 0 ∧ Opens isIdentStart s := by
  unfold nameLength? at h
  dsimp only at h
  split at h
  · rename_i rest
    rcases Option.or_eq_some_iff.1 h with h | ⟨_, h⟩
    · obtain ⟨m, _, rfl⟩ := Option.map_eq_some_iff.1 h
      exact ⟨Nat.succ_ne_zero _, 'r', '#' :: rest, rfl, by decide⟩
    · exact opens_of_ident h
  · split at h
    · split at h
      · cases h
      · exact opens_of_ident h
    · exact opens_of_ident h

theorem opens_of_byteMarked {length? : List Char → Option Nat} {d : Char}
    (hl : ∀ {s n}, length? s = some n → n ≠ 0 ∧ Opens (· == d) s) {s : List Char} {n : Nat}
    (h : byteMarked? length? s = some n) : n ≠ 0 ∧ Opens (fun c => c == d || c == 'b') s := by
  have hplain {s n} (h : length? s = some n) : n ≠ 0 ∧ Opens (fun c => c == d || c == 'b') s := by
    obtain ⟨hn, c, v, hs, hc⟩ := hl h
    exact ⟨hn, c, v, hs, by simp [hc]⟩
  unfold byteMarked? at h
  split at h
  · rename_i rest
    rcases Option.or_eq_some_iff.1 h with h | ⟨_, h⟩
    · obtain ⟨m, _, rfl⟩ := Option.map_eq_some_iff.1 h
      exact ⟨Nat.succ_ne_zero _, 'b', rest, rfl, by simp⟩
    · exact hplain h
  · exact hplain h

theorem opens_of_quoted {s : List Char} {n : Nat} (h : quoted? s = some n) :
    n ≠ 0 ∧ Opens (· == '"') s := by
  unfold quoted? at h
  split at h
  · obtain ⟨m, _, rfl⟩ := Option.map_eq_some_iff.1 h
    exact ⟨Nat.succ_ne_zero _, '"', _, rfl, by decide⟩
  · cases h

theorem opens_of_rawBody {s : List Char} {n : Nat} (h : rawBody? s = some n) :
    n ≠ 0 ∧ Opens (· == 'r') s := by
  unfold rawBody? at h
  split at h
  · dsimp only at h
    split at h
    · obtain ⟨m, _, rfl⟩ := Option.map_eq_some_iff.1 h
      exact ⟨by omega, 'r', _, rfl, by decide⟩
    · cases h
  · cases h

theorem opens_of_some? {s : List Char} {n m : Nat} {C : Char → Bool} (h : some? m = some n)
    (hnil : s = [] → m = 0) (hcons : ∀ c v, s = c :: v → m ≠ 0 → C c = true) :
    n ≠ 0 ∧ Opens C s := by
  rw [some?] at h
  split at h
  · cases h
  · rename_i hm
    cases h
    cases s with
    | nil => exact absurd (hnil rfl) hm
    | cons c v => exact ⟨hm, c, v, rfl, hcons c v rfl hm⟩

theorem opens_of_takeWhile {C : Char → Bool} {s : List Char} {n : Nat}
    (h : some? (s.takeWhile C).length = some n) : n ≠ 0 ∧ Opens C s := by
  refine opens_of_some? h (fun hs => by simp [hs]) fun c v hs hm => ?_
  subst hs
  by_contra hc
  simp [hc] at hm

theorem opens_of_gap {s : List Char} {n : Nat} (h : some? (gapLength false s) = some n) :
    n ≠ 0 ∧ Opens (fun c => isSpace c || c == '/') s := by
  refine opens_of_some? h (fun hs => by rw [hs]; rfl) fun c v hs hm => ?_
  subst hs
  unfold gapLength at hm
  split at hm
  · simp_all
  · simp_all
  · simp_all

/-- A token reads something and starts with a character of its class. -/
theorem scan_opens {t : Token} (ht : t.idles = false) {s : List Char} {n : Nat}
    (h : scan t s = some n) : n ≠ 0 ∧ Opens t.opens s := by
  cases t with
  | gap => exact opens_of_gap h
  | commentText =>
    exact opens_of_some? h (fun hs => by rw [hs]; rfl) fun _ _ _ _ => rfl
  | word w =>
    refine opens_of_words ?_ h
    cases w with
    | nil => cases ht
    | cons c w => simp [opens]
  | reserved => exact opens_of_words (by decide) h
  | name => exact opens_of_name h
  | underscore =>
    simp only [scan] at h
    split at h
    · split at h
      · cases h
      · cases h
        exact ⟨by decide, '_', _, rfl, by decide⟩
    · cases h
  | selfWord => exact opens_of_words (by decide) h
  | lifetime => exact opens_of_ways takes_lifetimeWays_opens h
  | truth => exact opens_of_words (by decide) h
  | number => exact opens_of_ways takes_numberWays_opens h
  | character => exact opens_of_ways takes_characterWays_opens h
  | string => exact opens_of_byteMarked opens_of_quoted h
  | rawString => exact opens_of_byteMarked opens_of_rawBody h
  | digits => exact opens_of_takeWhile h
  | loose => exact opens_of_takeWhile h

theorem moves_scan : Peg.Moves scan idles := by
  intro t s n ht h
  obtain ⟨hn, c, v, rfl, _⟩ := scan_opens ht h
  exact ⟨hn, List.cons_ne_nil c v⟩

end Token

namespace Grammar

/-- Rules that can match and read nothing. -/
def Rule.idles : Rule → Bool
  | .lex (.word w) => w.isEmpty
  | .lex .trivia | .item .file | .stmt .stmtSeq | .expr .structLitBody | .expr .armEnd => true
  | _ => false

def LexRule.rank : LexRule → Nat
  | .trivia | .literal | .abi | .ident | .visibility | .looseToken | .delimited => 1
  | .word [] | .pathIdent | .tree => 2
  | .simplePath => 3
  | _ => 0

def TypeRule.rank : TypeRule → Nat
  | .lifetimeParam | .constParam | .whereClause | .forLifetimes | .implTraitType | .dynType
  | .qualifiedPathType => 1
  | .typeParam | .fnPtrType | .assocBinding => 2
  | .genericParam | .typeSegment => 3
  | .pathType => 4
  | .bound | .typeNoBounds => 5
  | .bounds | .type => 6
  | .wherePred | .fnPtrParam | .genericArg => 7
  | _ => 0

def PatternRule.rank : PatternRule → Nat
  | .literalPattern | .fieldPattern | .identPattern => 2
  | .pathPattern => 5
  | .rangeBound | .structPattern | .tupleStructPattern => 6
  | .rangePattern => 7
  | .patternNoAlt => 8
  | .pattern => 9
  | _ => 0

def ItemRule.rank : ItemRule → Nat
  | .structFields | .tupleFields | .useGroup | .fnQual => 1
  | .stmtItemKind => 3
  | .stmtItem | .useTree | .macroItem => 4
  | .itemKind => 5
  | .item => 6
  | .file | .implTrait | .tupleField => 7
  | .typedParam => 9
  | .fnParam => 10
  | .fnParams => 11
  | _ => 2

/-- The levels of operators follow one another, so that each ranks above the next tighter one. -/
def ExprRule.rank : ExprRule → Nat
  | .postfixOp | .closure | .ifExpr | .elseBranch | .letCond | .matchExpr | .matchGuard
  | .uncheckedBlock | .asyncBlock | .label | .qualifiedPathExpr | .returnExpr | .breakExpr
  | .continueExpr => 1
  | .letChain | .loopExpr | .whileExpr | .forExpr | .blockExpr | .structField => 2
  | .blockLike | .structLitBody | .exprSegment => 3
  | .macroCall | .plainPathExpr => 4
  | .pathExpr => 5
  | .structLit => 6
  | .primary _ => 7
  | .postfixExpr _ => 8
  | .unaryExpr _ | .closureParam => 9
  | .castExpr _ | .matchArm => 10
  | .mulExpr _ => 11
  | .addExpr _ => 12
  | .shiftExpr _ => 13
  | .bitandExpr _ => 14
  | .bitxorExpr _ => 15
  | .bitorExpr _ => 16
  | .cmpExpr _ => 17
  | .andExpr _ => 18
  | .orExpr _ => 19
  | .rangeFull _ => 20
  | .rangeExpr _ => 21
  | .expr _ => 22
  | .cond | .exprList | .closureBody | .armBody | .arrayRepeat => 23
  | .arrayBody => 24
  | _ => 0

def StmtRule.rank : StmtRule → Nat
  | .letStmt | .letElse => 1
  | .blockStmt => 4
  | .exprStmt | .blockTail => 23
  | .stmt => 24
  | .stmtWs => 25
  | .stmtSeq => 26
  | _ => 0

def Rule.rank : Rule → Nat
  | .lex r => r.rank
  | .type r => r.rank
  | .pattern r => r.rank
  | .item r => r.rank
  | .stmt r => r.rank
  | .expr r => r.rank

theorem idles_body (r : Rule) (h : r.idles = false) :
    (body r).idles Token.idles Rule.idles = false := by
  cases r with
  | lex r =>
    cases r with
    | word w =>
      cases w with
      | nil => cases h
      | cons c w => rfl
    | _ => first | rfl | cases h
  | type r => cases r <;> rfl
  | pattern r => cases r <;> rfl
  | item r => cases r <;> first | rfl | cases h
  | stmt r => cases r <;> first | rfl | cases h
  | expr r =>
    cases r with
    | primary p => cases p <;> rfl
    | _ => first | rfl | cases h

theorem guarded_body (r : Rule) :
    (body r).guarded Token.idles Rule.idles (fun r' => r'.rank < r.rank) = true := by
  cases r with
  | lex r =>
    cases r with
    | word w => cases w <;> rfl
    | _ => rfl
  | type r => cases r <;> rfl
  | pattern r => cases r <;> rfl
  | item r => cases r <;> rfl
  | stmt r => cases r <;> rfl
  | expr r =>
    cases r with
    | primary p => cases p <;> rfl
    | _ => rfl

theorem rank_lt (r : Rule) : r.rank < grammar.height := by
  cases r <;> dsimp only [Rule.rank]
  case lex r =>
    unfold LexRule.rank
    split <;> decide
  case type r =>
    unfold TypeRule.rank
    split <;> decide
  case pattern r =>
    unfold PatternRule.rank
    split <;> decide
  case item r =>
    unfold ItemRule.rank
    split <;> decide
  case stmt r =>
    unfold StmtRule.rank
    split <;> decide
  case expr r =>
    unfold ExprRule.rank
    split <;> decide

end Grammar

/-- Reading a contract never gives up. -/
theorem grammar_total : grammar.Total Token.idles Grammar.Rule.idles Grammar.Rule.rank where
  moves := Token.moves_scan
  idle := Grammar.idles_body
  guarded := Grammar.guarded_body
  low := Grammar.rank_lt

end InkGauge.Contract
