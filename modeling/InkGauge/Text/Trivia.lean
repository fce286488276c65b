import InkGauge.Text.Blank

namespace InkGauge.Text

/-- What is left behind a block comment of which `depth` levels are open. Comments nest. Only the
mark that closes the last level ends the scan: where none is open, a closing mark counts below zero.
-/
def skipBlockComment (depth : Int) : List Char → List Char
  | '/' :: '*' :: s => skipBlockComment (depth + 1) s
  | '*' :: '/' :: s => if depth = 1 then s else skipBlockComment (depth - 1) s
  | _ :: s => skipBlockComment depth s
  | [] => []

/-- Where a scan stands: in code, in a line comment or in nested block comments. -/
inductive Zone where
  | code
  | line
  | block (depth : Int)

/-- Every comment as one space. The line feed behind a line comment stays. -/
def blankComments : Zone → List Char → List Char
  | .code, '/' :: '/' :: s => ' ' :: blankComments .line s
  | .code, '/' :: '*' :: s => ' ' :: blankComments (.block 1) s
  | .code, c :: s => c :: blankComments .code s
  | .line, c :: s => if c = '\n' then c :: blankComments .code s else blankComments .line s
  | .block d, '/' :: '*' :: s => blankComments (.block (d + 1)) s
  | .block d, '*' :: '/' :: s => blankComments (if d = 1 then .code else .block (d - 1)) s
  | .block d, _ :: s => blankComments (.block d) s
  | _, [] => []

/-- Without comments and without the blanks at either end. -/
def stripTrivia (s : List Char) : List Char := trim (blankComments .code s)

theorem blankComments_block (d : Int) (s : List Char) :
    blankComments (.block d) s = blankComments .code (skipBlockComment d s) := by
  fun_induction skipBlockComment d s with
  | case1 d s ih => rw [blankComments, ih]
  | case2 s => simp [blankComments]
  | case3 d s h ih => simp [blankComments, h, ih]
  | case4 d c s h₁ h₂ ih =>
    rw [blankComments]
    · exact ih
    · exact h₁
    · exact h₂
  | case5 d => simp [blankComments]

end InkGauge.Text
