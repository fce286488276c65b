import InkGauge.Text.Digit
import InkGauge.Text.Quoted
import InkGauge.Text.Search

/-!
A word that starts with a dash names an option. Long options can be cut short as long as one option
fits, and take a value behind an equals sign. Short ones take it directly behind them, with or
without an equals sign, and those that take none can be run together. Two dashes alone make every
later word a plain one, and a negative number is plain anyway.
-/

namespace InkGauge.Command

open Text

/-- An option: its names, what it stands for, and whether a value goes with it. -/
structure Flag (κ : Type) where
  names : List String
  key : κ
  takesValue : Bool

/-- What is wrong with a command line. -/
inductive ArgFault where
  | ambiguous (word : String) (names : List String)
  | noValue (argument : String)
  | unusedValue (argument : String) (value : String)
  | badChoice (argument : String) (value : String) (choices : List String)
  | badInteger (argument : String) (value : String)
  | missing (argument : String)
  | unrecognized (words : List String)
  deriving DecidableEq

def ArgFault.message : ArgFault → String
  | .ambiguous word names =>
    "ambiguous option: " ++ word ++ " could match " ++ ", ".intercalate names
  | .noValue argument => "argument " ++ argument ++ ": expected one argument"
  | .unusedValue argument value =>
    "argument " ++ argument ++ ": ignored explicit argument " ++ quoted value.toList
  | .badChoice argument value choices =>
    "argument " ++ argument ++ ": invalid choice: " ++ quoted value.toList ++ " (choose from "
      ++ ", ".intercalate (choices.map fun c => quoted c.toList) ++ ")"
  | .badInteger argument value =>
    "argument " ++ argument ++ ": invalid int value: " ++ quoted value.toList
  | .missing argument => "the following arguments are required: " ++ argument
  | .unrecognized words => "unrecognized arguments: " ++ " ".intercalate words

/-- How an option is called in messages. -/
def Flag.title {κ : Type} (f : Flag κ) : String := "/".intercalate f.names

/-- An option as it is named by a word, and the text behind the name: that after an equals sign, or
after the letter of a short name. -/
structure Named (κ : Type) where
  flag : Flag κ
  name : String
  given : Option (List Char)

/-- What a word is. -/
inductive Word (κ : Type) where
  | plain (text : String)
  | separator
  | unknown (text : String)
  | option (text : String) (named : Named κ)

def Word.text {κ : Type} : Word κ → String
  | .plain text | .unknown text | .option text _ => text
  | .separator => "--"

/-- Every option by every name, in order. -/
def byName {κ : Type} (flags : List (Flag κ)) : List (String × Flag κ) :=
  flags.flatMap fun f => f.names.map (·, f)

def find? {κ : Type} (flags : List (Flag κ)) (name : String) : Option (Flag κ) :=
  ((byName flags).find? (·.1 = name)).map (·.2)

/-- The parts of a word before and after its first equals sign. -/
def splitValue (word : List Char) : List Char × Option (List Char) :=
  match splitAt? ['='] word with
  | some (name, value) => (name, some value)
  | none => (word, none)

/-- The options that a word can stand for, though it is none of their names. -/
def candidates {κ : Type} (flags : List (Flag κ)) : List Char → List (Named κ)
  | '-' :: '-' :: rest =>
    let (start, given) := splitValue ('-' :: '-' :: rest)
    (byName flags).filterMap fun (name, f) =>
      if startsWith start name.toList then some ⟨f, name, given⟩ else none
  | '-' :: c :: rest =>
    (byName flags).filterMap fun (name, f) =>
      if name.toList = ['-', c] then some ⟨f, name, some rest⟩ else none
  | _ => []

/-- Is the text digits, of which there must be some? -/
def isDigits (s : List Char) : Bool := !s.isEmpty && s.all isDecimal

/-- Is a word a negative number? A line feed may follow it. -/
def isNegative : List Char → Bool
  | '-' :: s =>
    let s := if s.getLast? = some '\n' then s.dropLast else s
    let whole := s.takeWhile isDecimal
    match s.drop whole.length with
    | [] => !whole.isEmpty
    | '.' :: places => isDigits places
    | _ => false
  | _ => false

/-- A word that is no name of an option but starts with a dash. -/
def guess {κ : Type} (flags : List (Flag κ)) (word : String) : Except ArgFault (Word κ) :=
  match candidates flags word.toList with
  | [named] => .ok (.option word named)
  | [] =>
    .ok (if isNegative word.toList || word.toList.contains ' ' then .plain word
      else .unknown word)
  | several => .error (.ambiguous word (several.map (·.name)))

def classify {κ : Type} (flags : List (Flag κ)) (word : String) : Except ArgFault (Word κ) :=
  match word.toList with
  | '-' :: c :: rest =>
    match find? flags word with
    | some f => .ok (.option word ⟨f, word, none⟩)
    | none =>
      match splitValue ('-' :: c :: rest) with
      | (name, some value) =>
        match find? flags (String.ofList name) with
        | some f => .ok (.option word ⟨f, String.ofList name, some value⟩)
        | none => guess flags word
      | _ => guess flags word
  | _ => .ok (.plain word)

/-- Tells apart the words of a command line. -/
def scan {κ : Type} (flags : List (Flag κ)) : List String → Except ArgFault (List (Word κ))
  | [] => .ok []
  | "--" :: rest => .ok (.separator :: rest.map .plain)
  | word :: rest => do
    let w ← classify flags word
    return w :: (← scan flags rest)

/-- An option as it is used: with a value, or, if it takes one and has none yet, waiting for it. -/
abbrev Use (κ : Type) := Flag κ × Option String

/-- An option and the text that stands behind its name in the same word: its value, or more options
of one letter. Nothing can follow a long name that takes no value. -/
def together {κ : Type} (flags : List (Flag κ)) (f : Flag κ) (long : Bool) :
    List Char → Except ArgFault (List (Use κ))
  | [] => if f.takesValue then .ok [(f, some "")] else .error (.unusedValue f.title "")
  | c :: rest =>
    if f.takesValue then .ok [(f, some (String.ofList (c :: rest)))]
    else
      match if long then none else find? flags (String.ofList ['-', c]) with
      | none => .error (.unusedValue f.title (String.ofList (c :: rest)))
      | some g =>
        if rest.isEmpty then .ok [(f, none), (g, none)]
        else (together flags g false rest).map ((f, none) :: ·)

/-- The options that a word names. -/
def Named.uses {κ : Type} (n : Named κ) (flags : List (Flag κ)) : Except ArgFault (List (Use κ)) :=
  match n.given with
  | none => .ok [(n.flag, none)]
  | some text => together flags n.flag (startsWith ['-', '-'] n.name.toList) text

/-- The option that still needs a value, if the last one does. -/
def needsValue? {κ : Type} (uses : List (Use κ)) : Option (Flag κ) :=
  match uses.getLast? with
  | some (f, none) => if f.takesValue then some f else none
  | _ => none

/-- Options with their values, in order. -/
def keyed {κ : Type} (uses : List (Use κ)) : List (κ × Option String) :=
  uses.map fun (f, value) => (f.key, value)

/-- Gives the last option its value. -/
def withValue {κ : Type} (uses : List (Use κ)) (value : String) :
    List (κ × Option String) :=
  keyed uses.dropLast ++ (uses.getLast?.map fun (f, _) => (f.key, some value)).toList

end InkGauge.Command
