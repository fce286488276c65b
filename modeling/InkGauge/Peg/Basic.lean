import InkGauge.Peg.Cursor
import InkGauge.Text.Search

/-!
An `Expression` is the right-hand side of a grammar rule, typed by the value that a match yields.
`T` names the kinds of token, `R` the rules, and `V r` is the type of the values of rule `r`.
Expressions are data: a grammar can be run, and its shape can be computed with.
-/

namespace InkGauge.Peg

/-- A fixed spelling that must not be continued by a character of `barred`. -/
structure Symbol (α : Type) where
  spelling : List Char
  barred : List Char
  value : α

/-- What is left after the symbol, if the text starts with it. -/
def Symbol.take? {α : Type} (x : Symbol α) (s : List Char) : Option (List Char) :=
  match Text.dropPrefix? x.spelling s with
  | some (c :: cs) => if x.barred.contains c then none else some (c :: cs)
  | r => r

inductive Expression (T R : Type) (V : R → Type) : Type → Type 1 where
  /-- A fixed text. -/
  | text (s : List Char) : Expression T R V Unit
  /-- The first of the symbols that the text starts with. -/
  | symbol {α : Type} (table : List (Symbol α)) : Expression T R V α
  | token (t : T) : Expression T R V Unit
  | rule (r : R) : Expression T R V (V r)
  | both {α β : Type} (p : Expression T R V α) (q : Expression T R V β) : Expression T R V (α × β)
  /-- `q` is tried only where `p` is refused. -/
  | either {α : Type} (p q : Expression T R V α) : Expression T R V α
  | option {α : Type} (p : Expression T R V α) : Expression T R V (Option α)
  | many {α : Type} (p : Expression T R V α) : Expression T R V (List α)
  | many1 {α : Type} (p : Expression T R V α) : Expression T R V (List α)
  /-- Matches, and reads nothing, where `p` is refused. -/
  | absent {α : Type} (p : Expression T R V α) : Expression T R V Unit
  /-- Matches, and reads nothing, where `p` matches. -/
  | ahead {α : Type} (p : Expression T R V α) : Expression T R V Unit
  /-- Makes a value from the value of `p` and the stretch of text it read. -/
  | act {α β : Type} (f : Slice → α → β) (p : Expression T R V α) : Expression T R V β

/-- What trying an expression at a place comes to. -/
inductive Reply (α : Type) where
  | matched (value : α) (rest : Cursor)
  | refused
  /-- More rules were open at once than the run allows. -/
  | exhausted

namespace Expression

variable {T R : Type} {V : R → Type}

instance : Functor (Expression T R V) where
  map f p := .act (fun _ => f) p

instance : Seq (Expression T R V) where
  seq p q := .act (fun _ x => x.1 x.2) (.both p (q ()))

instance : SeqLeft (Expression T R V) where
  seqLeft p q := .act (fun _ => Prod.fst) (.both p (q ()))

instance : SeqRight (Expression T R V) where
  seqRight p q := .act (fun _ => Prod.snd) (.both p (q ()))

instance {α : Type} : OrElse (Expression T R V α) where
  orElse p q := .either p (q ())

end Expression

end InkGauge.Peg
