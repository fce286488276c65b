import InkGauge.Text.Blank

/-!
Types, patterns, attributes and the arguments of macros are not taken apart. They are kept in one
spelling per sequence of tokens: `compact` has at most single spaces, none around the joints of a
path or a field access, none just inside round and square brackets and none before a comma or a
semicolon; `compactTokens` also closes up a call.
-/

namespace InkGauge.Text

/-- Every run of blanks as one space. -/
def collapse : List Char → List Char
  | [] => []
  | c :: cs =>
    if isBlank c then
      match cs with
      | [] => [' ']
      | d :: ds => if isBlank d then collapse (d :: ds) else ' ' :: collapse (d :: ds)
    else c :: collapse cs

/-- Can this character follow a joint without a space? -/
def joins (c : Char) : Bool :=
  c.isAlphanum || c == '_' || c == '<' || c == '*' || c == '{'

/-- Does the text start, perhaps after a space, with a character that a joint binds to? -/
def bindsNext : List Char → Bool
  | ' ' :: c :: _ => joins c
  | c :: _ => joins c
  | [] => false

/-- Does the text start with a joint, a `.` or `::`, that binds to what follows it? -/
def startsJoint : List Char → Bool
  | '.' :: s => bindsNext s
  | ':' :: ':' :: s => bindsNext s
  | _ => false

/-- Without the single spaces on either side of a joint. -/
def tightenJoints : List Char → List Char
  | [] => []
  | '.' :: ' ' :: c :: s =>
    if joins c then '.' :: tightenJoints (c :: s) else '.' :: tightenJoints (' ' :: c :: s)
  | ':' :: ':' :: ' ' :: c :: s =>
    if joins c then ':' :: ':' :: tightenJoints (c :: s)
    else ':' :: tightenJoints (':' :: ' ' :: c :: s)
  | c :: s => if c == ' ' && startsJoint s then tightenJoints s else c :: tightenJoints s

def isOpening (c : Char) : Bool := c == '(' || c == '['

def isClosing (c : Char) : Bool := c == ')' || c == ']' || c == ',' || c == ';'

/-- Without the blanks after an opening bracket; `inside` says that one was just read. -/
def tightenOpenings (inside : Bool) : List Char → List Char
  | [] => []
  | c :: s =>
    if inside && isBlank c then tightenOpenings true s
    else c :: tightenOpenings (isOpening c) s

/-- Puts a character in front, but no blank in front of a closing mark. -/
def consTight (c : Char) (s : List Char) : List Char :=
  if isBlank c && s.head?.any isClosing then s else c :: s

/-- Without the blanks before a closing bracket, comma or semicolon. -/
def tightenClosings (s : List Char) : List Char := s.foldr consTight []

/-- Text in canonical spacing. -/
def compact (s : List Char) : List Char :=
  tightenClosings (tightenOpenings false (tightenJoints (trim (collapse s))))

/-- Can this character end what a pair of round brackets calls? -/
def endsCallee (c : Char) : Bool :=
  c.isAlphanum || c == '_' || c == '!' || c == '>'

/-- Without the space between a callee and its opening bracket. -/
def tightenCalls : List Char → List Char
  | [] => []
  | c :: ' ' :: '(' :: s =>
    if endsCallee c then c :: tightenCalls ('(' :: s) else c :: tightenCalls (' ' :: '(' :: s)
  | c :: s => c :: tightenCalls s

/-- The tokens of a macro call in canonical spacing. -/
def compactTokens (s : List Char) : List Char := tightenCalls (compact s)

/-- Without any blank. -/
def squeeze (s : List Char) : List Char := s.filter (!isBlank ·)

end InkGauge.Text
