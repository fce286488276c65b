import InkGauge.Proofs.Contract.Reparse

/-!
A function that binds an expression.

The text around the expression is fixed, so the reader's way through it is: a function without
parameters, a block, and a single `let` with the canonical text of the expression behind it.
-/

namespace InkGauge.Contract

open Text Grammar Token

variable {e : Expr}

/-- The text of a function that binds an expression to a variable. -/
def bindingText (e : Expr) : List Char := ("fn f() \x7b let v = " ++ e.render ++ "; \x7d").toList

theorem bindingText_eq (e : Expr) : bindingText e =
    "fn f() ".toList ++ ("\x7b let v = ".toList ++ e.chars ++ "; \x7d".toList) := by
  simp [bindingText, Expr.chars]

/-- The statement binds the expression, up to spans, and has no type and no other branch. -/
def Stmt.Binds (s : Stmt) (e : Expr) : Prop :=
  ∃ pattern a span, s = .letBind pattern none (some a) none [] span ∧ pattern.text = "v" ∧
    a.unplaced = e.unplaced

/-- A function of which the body binds the expression and does nothing else. -/
def Function.Binds (fn : Function) (e : Expr) : Prop :=
  fn.name = "f" ∧ fn.params = [] ∧ fn.result = none ∧
    ∃ s span, fn.body = some ⟨[s], none, span⟩ ∧ s.Binds e

theorem refuses_v {α : Type} {p : P α} (k : Nat)
    (h : p.fate segmentLook (grammar.fate segmentLook k) = .refused) (u : List Char) :
    grammar.Refuses p (['v', ' '] ++ u) :=
  refuses_word (w := ['v']) (by decide) (breaks_blank u) k h

theorem wordEnd_v (u : List Char) : WordEnd [' '] ('=' :: u) :=
  ⟨⟨.inr rfl, rfl⟩, breaks_blank _⟩

theorem reads_pathPattern_v (u : List Char) :
    grammar.Reads (pat .pathPattern) ['v', ' '] ('=' :: u) fun _ => True := by
  have hno : ¬[':', ':'] <+: '=' :: u := fun h => absurd (List.cons_prefix_cons.1 h).1 (by decide)
  have hsegments : ∀ w ∈ [['v']], isSegment w = true := by decide
  have hread := reads_path hsegments (wordEnd_v u) hno
  exact reads_pat (.act (hread.imp fun _ _ _ _ => trivial))

theorem reads_identPattern_v (u : List Char) :
    grammar.Reads (pat .identPattern) ['v', ' '] ('=' :: u) fun _ => True := by
  have href : grammar.Refuses (kw "ref") (['v', ' '] ++ '=' :: u) := refuses_v 1 (by decide) _
  have hmut : grammar.Refuses (kw "mut") (['v', ' '] ++ '=' :: u) := refuses_v 1 (by decide) _
  have hname : grammar.Reads (lex .ident) ['v', ' '] ('=' :: u) fun _ => True :=
    (reads_ident (w := ['v']) (by decide) (wordEnd_v u)).imp fun _ _ => trivial
  have hjoint : grammar.Refuses (bare "::") ('=' :: u) :=
    Peg.Grammar.refuses_text fun h => absurd (List.cons_prefix_cons.1 h).1 (by decide)
  have hat : grammar.Refuses (sym "@" *> pat .patternNoAlt) ('=' :: u) :=
    .seqRight (refuses_sym fun h => absurd (List.cons_prefix_cons.1 h).1 (by decide))
  have hwords := href.option.seqRight (u := []) hmut.option
  have hread := ((hwords.seqRight hname).seqRight (u := []) hjoint.absent).seqRight (u := [])
    hat.option
  exact reads_pat (.act (hread.imp fun _ _ _ _ => trivial))

theorem reads_patternNoAlt_v (u : List Char) :
    grammar.Reads (pat .patternNoAlt) ['v', ' '] ('=' :: u) fun _ => True := by
  have hpath := reads_pathPattern_v u
  have hsym {x : String} (hx : ¬x.toList <+: '=' :: u) : grammar.Refuses (sym x) ('=' :: u) :=
    refuses_sym hx
  have hrange : grammar.Refuses (pat .rangePattern) (['v', ' '] ++ '=' :: u) := by
    have hbound : grammar.Reads (pat .rangeBound) ['v', ' '] ('=' :: u) fun _ => True :=
      reads_pat (.orElse_right (refuses_v 4 (by decide) _) hpath)
    have hop : grammar.Refuses (pat .rangePatOp) ('=' :: u) := refuses_at 2 (by decide) u
    exact refuses_pat (.act (.seqRight (hbound.seqRight_refuses hop)))
  have hstruct : grammar.Refuses (pat .structPattern) (['v', ' '] ++ '=' :: u) :=
    refuses_pat (.seqRight (.seqRight (hpath.seqRight_refuses (hsym fun h =>
      absurd (List.cons_prefix_cons.1 h).1 (by decide)))))
  have htuple : grammar.Refuses (pat .tupleStructPattern) (['v', ' '] ++ '=' :: u) :=
    refuses_pat (.seqRight (.seqRight (hpath.seqRight_refuses (hsym fun h =>
      absurd (List.cons_prefix_cons.1 h).1 (by decide)))))
  have hread : grammar.Reads (pat .rangePattern <|> pat .refPattern <|> pat .tuplePattern
      <|> pat .slicePattern <|> pat .literalPattern <|> void (lex .underscore)
      <|> pat .restPattern <|> pat .structPattern <|> pat .tupleStructPattern
      <|> pat .identPattern <|> pat .pathPattern) ['v', ' '] ('=' :: u) fun _ => True := by
    refine .orElse_right hrange (.orElse_right (refuses_v 4 (by decide) _) ?_)
    refine .orElse_right (refuses_v 4 (by decide) _) ?_
    refine .orElse_right (refuses_v 4 (by decide) _) ?_
    refine .orElse_right (refuses_v 4 (by decide) _) ?_
    refine .orElse_right (refuses_v 4 (by decide) _) ?_
    refine .orElse_right (refuses_v 4 (by decide) _) ?_
    exact .orElse_right hstruct (.orElse_right htuple (.orElse (reads_identPattern_v u)))
  exact reads_pat (.act (hread.imp fun _ _ _ _ => trivial))

theorem reads_pattern_v (u : List Char) :
    grammar.Reads (pat .pattern) ['v', ' '] ('=' :: u) fun f => f.text = "v" := by
  have hbar : grammar.Refuses patternBar (['v', ' '] ++ '=' :: u) := refuses_v 1 (by decide) _
  have hmore : grammar.Refuses (patternBar *> pat .patternNoAlt) ('=' :: u) :=
    refuses_at 1 (by decide) u
  have hread := (hbar.option.seqRight (reads_patternNoAlt_v u)).seqRight (u := []) hmore.many
  refine reads_pat (.act (hread.imp fun _ _ x hx => ?_))
  change compactText x = "v"
  rw [compactText, hx]
  rfl

section Head

variable (u : List Char)

/-- The name of the function. -/
theorem reads_fnHead :
    grammar.Reads (many (itm .fnQual) *> kw "fn" *> lex .ident <* opt (typ .genericParams))
      "fn f".toList ('(' :: u) (· = "f") := by
  have hqual : grammar.Refuses (itm .fnQual) (['f', 'n', ' '] ++ (['f'] ++ ([] ++ '(' :: u))) :=
    refuses_at 3 (by decide) _
  have hfn : grammar.Reads (kw "fn") ['f', 'n', ' '] (['f'] ++ ([] ++ '(' :: u)) fun _ => True :=
    reads_kw (x := "fn") (g := [' ']) (by decide) ⟨⟨.inr rfl, rfl⟩, breaks_blank _⟩
  have hname : grammar.Reads (lex .ident) ['f'] ([] ++ '(' :: u) (· = "f") :=
    reads_ident (w := ['f']) (g := []) (by decide) (Stop.opening (by decide) u).wordEnd
  have hgeneric : grammar.Refuses (typ .genericParams) ('(' :: u) := refuses_at 2 (by decide) u
  exact ((hqual.many.seqRight hfn).seqRight hname).seqLeft hgeneric.option

/-- No parameters, no result and no condition. -/
theorem reads_fnParams :
    grammar.Reads (sym "(" *> opt (itm .fnParams) <* sym ")") "() ".toList ('\x7b' :: u)
      (· = none) := by
  have hopen : grammar.Reads (sym "(") ['('] ([] ++ ([')', ' '] ++ '\x7b' :: u)) fun _ => True :=
    reads_sym (g := []) "(" ⟨.inl rfl, rfl⟩
  have hnone : grammar.Refuses (itm .fnParams) ([')', ' '] ++ '\x7b' :: u) :=
    refuses_at 20 (by decide) _
  have hclose : grammar.Reads (sym ")") [')', ' '] ('\x7b' :: u) fun _ => True :=
    reads_sym (g := [' ']) ")" ⟨.inr rfl, rfl⟩
  exact (hopen.seqRight hnone.option).seqLeft hclose

theorem reads_fnResult :
    grammar.Reads (opt (typ .retType) <* opt (typ .whereClause)) [] ('\x7b' :: u) (· = none) := by
  have hresult : grammar.Refuses (typ .retType) ('\x7b' :: u) := refuses_at 2 (by decide) u
  have hwhere : grammar.Refuses (typ .whereClause) ('\x7b' :: u) := refuses_at 2 (by decide) u
  exact hresult.option.seqLeft (u := []) hwhere.option

end Head

/-- A text that the file rule reads whole is a contract. -/
theorem parse_of_reads {text : List Char} {Q : List Attribute × List Item → Prop} (filename : String)
    (h : grammar.Reads (itm .file) text [] Q) :
    ∃ x, parse text filename = .ok ⟨x.1, x.2, text, filename⟩ ∧ Q x := by
  obtain ⟨x, hreply, hQ⟩ := h (.start text) (List.append_nil text).symm
  have happly : (grammar.apply (.item .file) (.start text)).1 =
      .matched x ((Peg.Cursor.start text).advance text.length) :=
    (grammar_total.apply_eq _ _).trans hreply
  have hend : ((Peg.Cursor.start text).advance text.length).atEnd = true := by
    simp [Peg.Cursor.atEnd, Peg.Cursor.start]
  refine ⟨x, ?_, hQ⟩
  rw [parse, happly]
  simp only [hend, if_true]

section Body

variable (h : e.inLadder = true) (u : List Char)

include h

theorem reads_letInit :
    grammar.Reads (stm .letInit) (['=', ' '] ++ e.chars) (';' :: u) fun x =>
      x.1.unplaced = e.unplaced ∧ x.2 = none := by
  have he := readsBack h
  have hexpr := he.1 (.closing (c := ';') (by decide) u)
  have hsign := reads_sym (g := [' ']) (t := e.chars ++ [] ++ ';' :: u) "="
    ⟨.inr rfl, by rw [List.append_assoc]; exact he.fresh _⟩
  have helse : grammar.Refuses (stm .letElse) (';' :: u) := refuses_at 2 (by decide) u
  have hread := (hsign.seqRight hexpr).both (u := []) helse.option
  have hcut : "=".toList ++ [' '] ++ (e.chars ++ []) ++ [] = ['=', ' '] ++ e.chars := by simp
  rw [hcut] at hread
  exact reads_stm hread

theorem reads_letStmt :
    grammar.Reads (stm .letStmt) ("let v = ".toList ++ e.chars ++ [';']) u (·.Binds e) := by
  have hinit := ((reads_letInit h u).option (by simp)).seqLeft (Peg.Grammar.reads_text [';'] u)
  have htype : grammar.Refuses (typ .typeAnnot) (['=', ' '] ++ e.chars ++ [';'] ++ u) :=
    refuses_at 3 (by decide) _
  have hrest := (reads_pattern_v _).both (htype.option.both hinit)
  have hlet : grammar.Reads (kw "let") ['l', 'e', 't', ' ']
      (['v', ' '] ++ ([] ++ (['=', ' '] ++ e.chars ++ [';'])) ++ u) fun _ => True :=
    reads_kw (x := "let") (g := [' ']) (by decide) ⟨⟨.inr rfl, rfl⟩, breaks_blank _⟩
  have hattrs : grammar.Refuses (lex .outerAttr) (['l', 'e', 't', ' '] ++
      (['v', ' '] ++ ([] ++ (['=', ' '] ++ e.chars ++ [';'])) ++ u)) :=
    refuses_at 3 (by decide) _
  have hread := (hattrs.many.seqLeft hlet).both hrest
  have hcut : [] ++ ['l', 'e', 't', ' '] ++ (['v', ' '] ++ ([] ++ (['=', ' '] ++ e.chars ++ [';']))) =
      "let v = ".toList ++ e.chars ++ [';'] := by simp
  rw [hcut] at hread
  refine reads_stm (.act (hread.imp ?_))
  rintro ⟨_, pattern, _, _⟩ ⟨rfl, hpattern, rfl, ⟨a, _⟩, rfl, ha, rfl⟩ x _
  exact ⟨pattern, a, _, rfl, hpattern, ha⟩

theorem reads_stmtSeq :
    grammar.Reads (stm .stmtSeq) ("let v = ".toList ++ e.chars ++ [';'] ++ [' ']) ['\x7d'] fun x =>
      ∃ s, x = ([s], none) ∧ s.Binds e := by
  have hempty : grammar.Refuses (stm .emptyStmt)
      ("let v = ".toList ++ e.chars ++ [';'] ++ [' ', '\x7d']) := refuses_at 2 (by decide) _
  have hitem : grammar.Refuses
      (Peg.Expression.act (fun s i => Stmt.item i (spanOf s)) (itm .stmtItem))
      ("let v = ".toList ++ e.chars ++ [';'] ++ [' ', '\x7d']) := refuses_at 12 (by decide) _
  have hstmt : grammar.Reads (stm .stmt) ("let v = ".toList ++ e.chars ++ [';']) [' ', '\x7d']
      (·.Binds e) :=
    reads_stm (.orElse_right hempty (.orElse_right hitem (.orElse (reads_letStmt h _))))
  have hspaced : grammar.Reads (stm .stmtWs) ("let v = ".toList ++ e.chars ++ [';'] ++ [' '])
      ['\x7d'] (·.Binds e) :=
    reads_stm (hstmt.seqLeft (reads_trivia (g := [' ']) ⟨.inr rfl, rfl⟩))
  have hlast : grammar.Refuses (stm .stmtWs) ['\x7d'] := refuses_at 30 (by decide) []
  have htail : grammar.Refuses (stm .blockTail) ['\x7d'] := refuses_at 30 (by decide) []
  have hmany := (Peg.Grammar.ReadsMany.step (u := []) hspaced (by simp) (.stop (.inl hlast))).many
  have hread := hmany.both (u := []) htail.option
  rw [List.append_nil, List.append_nil] at hread
  refine reads_stm (hread.imp ?_)
  rintro ⟨_, _⟩ ⟨⟨s, _, rfl, hs, rfl⟩, rfl⟩
  exact ⟨s, rfl, hs⟩

theorem reads_block :
    grammar.Reads (stm .block) ("\x7b let v = ".toList ++ e.chars ++ "; \x7d".toList) [] fun b =>
      ∃ s span, b = ⟨[s], none, span⟩ ∧ s.Binds e := by
  have hinner : grammar.Refuses (lex .innerAttr)
      ("let v = ".toList ++ e.chars ++ [';'] ++ [' '] ++ ['\x7d']) := refuses_at 4 (by decide) _
  have hattrs : grammar.Reads innerAttrs []
      ("let v = ".toList ++ e.chars ++ [';'] ++ [' '] ++ ['\x7d']) fun _ => True :=
    .act (hinner.many.imp fun _ _ _ _ => trivial)
  have hopen : grammar.Reads (sym "\x7b") ['\x7b', ' ']
      ([] ++ ("let v = ".toList ++ e.chars ++ [';'] ++ [' '] ++ ['\x7d'])) fun _ => True :=
    reads_sym (g := [' ']) "\x7b" ⟨.inr rfl, rfl⟩
  have hclose : grammar.Reads (sym "\x7d") ['\x7d'] [] fun _ => True :=
    reads_sym (g := []) "\x7d" ⟨.inl rfl, rfl⟩
  have hread := ((hopen.seqRight hattrs).seqRight (reads_stmtSeq h)).seqLeft hclose
  have hcut : ['\x7b', ' '] ++ [] ++ ("let v = ".toList ++ e.chars ++ [';'] ++ [' ']) ++ ['\x7d'] =
      "\x7b let v = ".toList ++ e.chars ++ "; \x7d".toList := by simp
  rw [hcut] at hread
  refine reads_stm (.act (hread.imp ?_))
  rintro _ ⟨s, rfl, hs⟩ x _
  exact ⟨s, _, rfl, hs⟩

theorem reads_fnItem :
    grammar.Reads (itm .fnItem)
      ("fn f() ".toList ++ ("\x7b let v = ".toList ++ e.chars ++ "; \x7d".toList)) [] fun k =>
        ∃ fn, k = .function fn ∧ fn.Binds e := by
  have hblock : grammar.Reads (itm .fnBody)
      ("\x7b let v = ".toList ++ e.chars ++ "; \x7d".toList) [] fun b =>
        ∃ s span, b = some ⟨[s], none, span⟩ ∧ s.Binds e := by
    refine reads_itm (.orElse (((reads_block h).map some).imp ?_))
    rintro _ ⟨_, ⟨s, span, rfl, hs⟩, rfl⟩
    exact ⟨s, span, rfl, hs⟩
  have hread := ((((reads_fnHead _).map fun name params result body =>
    ItemKind.function ⟨name, Option.getD params [], result, body, ""⟩).seq (reads_fnParams _)).seq
      (u := []) (reads_fnResult _)).seq hblock
  refine reads_itm (hread.imp ?_)
  rintro _ ⟨_, _, ⟨_, _, ⟨_, _, ⟨_, rfl, rfl⟩, rfl, rfl⟩, rfl, rfl⟩, ⟨s, span, rfl, hs⟩, rfl⟩
  exact ⟨_, rfl, rfl, rfl, rfl, s, span, rfl, hs⟩

omit h in
/-- What the first letter of the text rules out is refused. -/
theorem refuses_bindingText {α : Type} {p : P α} (k : Nat)
    (hp : p.fate (lookAt 'f') (grammar.fate (lookAt 'f') k) = .refused) :
    grammar.Refuses p (bindingText e ++ []) := by
  rw [bindingText_eq]
  exact refuses_at k hp _

theorem reads_item :
    grammar.Reads (itm .item) (bindingText e) [] fun i =>
      ∃ fn, i.function? = some fn ∧ fn.Binds e := by
  have hattrs : grammar.Refuses (lex .outerAttr) (bindingText e ++ []) :=
    refuses_bindingText 4 (by decide)
  have hvis : grammar.Refuses (lex .visibility) (bindingText e ++ []) :=
    refuses_bindingText 3 (by decide)
  have hkind : grammar.Reads (itm .itemKind) (bindingText e) [] fun k =>
      ∃ fn, k = .function fn ∧ fn.Binds e := by
    rw [bindingText_eq]
    exact reads_itm (.orElse (reads_fnItem h))
  have hsigned : grammar.Reads
      (.act (fun s (visibility, kind) => (visibility.getD "", ItemKind.signed s kind))
        (.both (opt (lex .visibility)) (itm .itemKind))) (bindingText e) [] fun x =>
      ∃ fn, x.2 = .function fn ∧ fn.Binds e := by
    refine .act ((hvis.option.both hkind).imp ?_)
    rintro ⟨_, _⟩ ⟨rfl, fn, rfl, hfn⟩ x _
    exact ⟨_, rfl, hfn⟩
  refine reads_itm (.act ((hattrs.many.both hsigned).imp ?_))
  rintro ⟨_, _, _⟩ ⟨rfl, fn, rfl, hfn⟩ x _
  exact ⟨fn, rfl, hfn⟩

theorem reads_file :
    grammar.Reads (itm .file) (bindingText e) [] fun x =>
      x.1 = [] ∧ ∃ item fn, x.2 = [item] ∧ item.function? = some fn ∧ fn.Binds e := by
  have hinner : grammar.Refuses (lex .innerAttr) (bindingText e ++ []) :=
    refuses_bindingText 4 (by decide)
  have hfresh : noTrivia (bindingText e ++ []) = true := by
    rw [bindingText_eq]
    rfl
  have hne : bindingText e ≠ [] := by simp [bindingText_eq]
  have hitems := (Peg.Grammar.ReadsMany.step (u := []) (reads_item h) hne (.stop (.inr rfl))).many
  rw [List.append_nil] at hitems
  have hread := (reads_trivia (g := []) ⟨.inl rfl, hfresh⟩).seqRight (hinner.many.both hitems)
  refine reads_itm (hread.imp ?_)
  rintro ⟨_, _⟩ ⟨rfl, item, _, rfl, ⟨fn, hitem, hfn⟩, rfl⟩
  exact ⟨rfl, item, fn, rfl, hitem, hfn⟩

/-- Reading undoes writing: a function that binds the canonical text of an expression of the ladder
is read as one that binds the expression, up to spans. -/
theorem parse_bindingText (filename : String) :
    ∃ item fn, parse (bindingText e) filename = .ok ⟨[], [item], bindingText e, filename⟩ ∧
      item.function? = some fn ∧ fn.Binds e := by
  obtain ⟨⟨_, _⟩, hparse, rfl, item, fn, rfl, hitem, hfn⟩ := parse_of_reads filename (reads_file h)
  exact ⟨item, fn, hparse, hitem, hfn⟩

end Body

/-- An assignment with operators of several levels, signs and chains. -/
def sampleExpr : Expr :=
  let here : Span := ⟨0, 0, 0, 0⟩
  let x : Expr := .path ["x"] "x" here
  let total : Expr := .field (.path ["self"] "self" here) "total" here
  let entry : Expr := .index (.methodCall (.path ["a", "b"] "a::b" here) "get" ""
    [x, .assign x (.lit "1" here) here] here) (.binary .and x (.lit "true" here) here) here
  let sum : Expr := .binary (.arith .bitOr) (.unary .deref (.unary .neg (.attempt entry here) here) here)
    (.binary (.arith .shl) (.binary (.arith .sub) x x here) (.lit "7" here) here) here
  .binary (.compound .shr) total (.binary .le sum
    (.call (.paren total here) [.tuple [x] here, .array [] here] here) here) here

theorem parse_bindingText_sampleExpr :
    sampleExpr.inLadder = true ∧
      ∃ item fn, parse (bindingText sampleExpr) "a.rs" =
          .ok ⟨[], [item], bindingText sampleExpr, "a.rs"⟩ ∧
        item.function? = some fn ∧ fn.Binds sampleExpr :=
  have h : sampleExpr.inLadder = true := by decide
  ⟨h, parse_bindingText h "a.rs"⟩

end InkGauge.Contract
