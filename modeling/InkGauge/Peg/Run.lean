import InkGauge.Peg.Basic

/-!
`Grammar.attempt` tries one rule at one place. The results of the rules that a grammar chooses to
keep are remembered by rule and offset: a rule answers the same at the same place every time, so
remembering changes how long a run takes and nothing else.

A run also notes how far it got, for the report of a text that is not accepted: the first miss of
all, and from then on the farthest place where a whole rule was refused. Misses of the parts of a
rule do not count, misses inside a look-ahead do.
-/

namespace InkGauge.Peg

/-- The reply of one rule at some place. -/
structure Kept {R : Type} (V : R → Type) where
  rule : R
  reply : Reply (V rule)

/-- What a run carries along: the replies it keeps, by offset, and how far it got. -/
structure Session {R : Type} (V : R → Type) where
  kept : Array (List (Kept V))
  farthest : Option Nat

structure Grammar (T R : Type) (V : R → Type) where
  /-- How many characters a token takes from the start of a text. -/
  scan : T → List Char → Option Nat
  body : (r : R) → Expression T R V (V r)
  /-- Rules that several alternatives try at one place. -/
  keeps : R → Bool
  /-- No more than this many rules are ever open at one place. -/
  height : Nat

variable {T R : Type} {V : R → Type}

namespace Session

def empty (V : R → Type) (length : Nat) : Session V :=
  ⟨Array.replicate (length + 1) [], none⟩

/-- A part of a rule was refused at `k`: it counts only if nothing was refused before. -/
def missPart (σ : Session V) (k : Cursor) : Session V :=
  { σ with farthest := some (σ.farthest.getD k.offset) }

/-- A rule was refused at `k`. -/
def missRule (σ : Session V) (k : Cursor) : Session V :=
  { σ with farthest := some (max (σ.farthest.getD k.offset) k.offset) }

def find [DecidableEq R] (r : R) : List (Kept V) → Option (Reply (V r))
  | [] => none
  | e :: es => if h : e.rule = r then some (h ▸ e.reply) else find r es

def kept? [DecidableEq R] (σ : Session V) (r : R) (k : Cursor) : Option (Reply (V r)) :=
  (σ.kept[k.offset]?).bind (find r)

def keep (σ : Session V) (r : R) (k : Cursor) (reply : Reply (V r)) : Session V :=
  { σ with kept := σ.kept.modify k.offset (⟨r, reply⟩ :: ·) }

end Session

/-- Tries something within a session. -/
abbrev Attempt {R : Type} (V : R → Type) (α : Type) := Session V → Reply α × Session V

namespace Attempt

def matched {α : Type} (a : α) (k : Cursor) : Attempt V α := fun σ => (.matched a k, σ)

@[inline] def bind {α β : Type} (x : Attempt V α) (f : α → Cursor → Attempt V β) : Attempt V β :=
  fun σ =>
    match x σ with
    | (.matched a k, σ) => f a k σ
    | (.refused, σ) => (.refused, σ)
    | (.exhausted, σ) => (.exhausted, σ)

/-- What follows where `x` matches, and where it is refused. -/
@[inline] def cases {α β : Type} (x : Attempt V α) (f : α → Cursor → Attempt V β)
    (g : Attempt V β) : Attempt V β :=
  fun σ =>
    match x σ with
    | (.matched a k, σ) => f a k σ
    | (.refused, σ) => g σ
    | (.exhausted, σ) => (.exhausted, σ)

def missed {α : Type} (k : Cursor) : Attempt V α := fun σ => (.refused, σ.missPart k)

/-- Repeats `x` until the text ends, `x` is refused or `x` reads nothing; `found` holds the values
so far, the last in front. At most `n` rounds read something. -/
def repeated {α : Type} (x : Cursor → Attempt V α) : Nat → List α → Cursor → Attempt V (List α)
  | 0, found, k => matched found.reverse k
  | n + 1, found, k =>
    if k.atEnd then matched found.reverse k
    else cases (x k)
      (fun a k' =>
        if k'.offset = k.offset then matched (a :: found).reverse k'
        else repeated x n (a :: found) k')
      (matched found.reverse k)

end Attempt

def firstSymbol {α : Type} : List (Symbol α) → List Char → Option (Nat × α)
  | [], _ => none
  | x :: xs, s =>
    match x.take? s with
    | some _ => some (x.spelling.length, x.value)
    | none => firstSymbol xs s

/-- Tries an expression at a place, with `call` for the rules it refers to. -/
def Expression.run (scan : T → List Char → Option Nat) (call : (r : R) → Cursor → Attempt V (V r)) :
    {α : Type} → Expression T R V α → Cursor → Attempt V α
  | _, .text s, k =>
    if Text.startsWith s k.rest then .matched () (k.advance s.length) else .missed k
  | _, .symbol table, k =>
    match firstSymbol table k.rest with
    | some (n, a) => .matched a (k.advance n)
    | none => .missed k
  | _, .token t, k =>
    match scan t k.rest with
    | some n => .matched () (k.advance n)
    | none => .missed k
  | _, .rule r, k => call r k
  | _, .both p q, k =>
    .bind (run scan call p k) fun a k' => .bind (run scan call q k') fun b k'' =>
      .matched (a, b) k''
  | _, .either p q, k => .cases (run scan call p k) .matched (run scan call q k)
  | _, .option p, k =>
    if k.atEnd then .matched none k
    else .cases (run scan call p k) (fun a => .matched (some a)) (.matched none k)
  | _, .many p, k => .repeated (run scan call p) k.rest.length [] k
  | _, .many1 p, k =>
    if k.atEnd then .missed k
    else .bind (run scan call p k) fun a k' =>
      if k'.offset = k.offset then .matched [a] k'
      else .repeated (run scan call p) k'.rest.length [a] k'
  | _, .absent p, k => .cases (run scan call p k) (fun _ _ => .missed k) (.matched () k)
  | _, .ahead p, k => .bind (run scan call p k) fun _ _ => .matched () k
  | _, .act f p, k =>
    .bind (run scan call p k) fun a k' => .matched (f ⟨k, k'.offset⟩ a) k'

/-- Tries a rule at a place, with at most `depth` rules open at once. -/
def Grammar.attempt [DecidableEq R] (g : Grammar T R V) :
    Nat → (r : R) → Cursor → Attempt V (V r)
  | 0, _, _ => fun σ => (.exhausted, σ)
  | depth + 1, r, k => fun σ =>
    match if g.keeps r then σ.kept? r k else none with
    | some reply => (reply, σ)
    | none =>
      match (g.body r).run g.scan (g.attempt depth) k σ with
      | (.matched a k', σ) =>
        (.matched a k', if g.keeps r then σ.keep r k (.matched a k') else σ)
      | (.refused, σ) =>
        let σ := σ.missRule k
        (.refused, if g.keeps r then σ.keep r k .refused else σ)
      | (.exhausted, σ) => (.exhausted, σ)

/-- Tries a rule at a place of a text, and tells how far the run got. -/
def Grammar.apply [DecidableEq R] (g : Grammar T R V) (r : R) (k : Cursor) :
    Reply (V r) × Option Nat :=
  let depth := (k.rest.length + 1) * g.height
  let (reply, σ) := g.attempt depth r k (Session.empty V (k.offset + k.rest.length))
  (reply, σ.farthest)

end InkGauge.Peg
