import InkGauge.Contract.Printer
import InkGauge.Text.Search
import InkGauge.Text.Spacing
import InkGauge.Text.Word

/-!
The entry points of a contract: the methods that can be called from outside.

A method of an impl block is one unless its name is a lifecycle name or it has no body, if
it or its block carries an entry marker; or if it takes `self`, its name starts with no underscore,
and it is `pub` or the file shows signs of a contract that a macro generated. Those signs are taken
from the whole file before any method is looked at, so the order of the items does not matter.
-/

namespace InkGauge.Contract

open Text

def entryMarkers : List String := ["external", "public"]

/-- Methods that belong to the life of a contract and not to its interface. -/
def lifecycleNames : List String :=
  ["new", "constructor", "default", "load", "storage_load", "user_entrypoint", "entrypoint",
    "route", "dispatch", "mark_used", "deny_value", "pay_for_memory_grow"]

def dispatcherNames : List String := ["route", "dispatch", "user_entrypoint", "call_router"]

def overrideMarkers : List String := ["assert_overrides", "__stylus_assert_overrides"]

/-- An impl block: what it carries, what it is for, its members, and where it stands. -/
structure ImplBlock where
  attrs : List Attribute
  selfType : Fragment
  items : List Item
  span : Span

/-- The item as an impl block, if it is one. -/
def Item.implBlock? (i : Item) : Option ImplBlock :=
  match i.kind with
  | .impl selfType _ items => some ⟨i.attrs, selfType, items, i.span⟩
  | _ => none

/-- The impl blocks of the file and of its inline modules, in source order. -/
def SourceFile.impls (f : SourceFile) : List ImplBlock := f.walk.filterMap Item.implBlock?

/-- A method, with the item it was written as. -/
structure Method where
  item : Item
  fn : Function

def methodsOf (items : List Item) : List Method :=
  items.filterMap fun i => i.function?.map (⟨i, ·⟩)

structure EntryPoint where
  method : Method
  block : ImplBlock

def EntryPoint.name (e : EntryPoint) : String := e.method.fn.name

def EntryPoint.implType (e : EntryPoint) : String := e.block.selfType.text

/-- Signs of a contract that a macro generated. -/
structure Signals where
  selectorConstants : Nat
  dispatchers : List String
  overrides : Bool

def Signals.generated (s : Signals) : Bool :=
  2 ≤ s.selectorConstants || !s.dispatchers.isEmpty || s.overrides

def isHexDigit (c : Char) : Bool :=
  c.isDigit || ('a' ≤ c && c ≤ 'f') || ('A' ≤ c && c ≤ 'F')

/-- Is the text a four-byte number in hexadecimal digits? -/
def isSelectorValue (s : List Char) : Bool :=
  match s with
  | '0' :: 'x' :: ds =>
    (ds.take 8).length == 8 && (ds.take 8).all isHexDigit
      && (ds.drop 8 == [] || ds.drop 8 == "u32".toList)
  | _ => false

/-- A constant that names a selector, or has the type or the value of one. -/
def isSelectorConstant (name : String) (type : Fragment) (value : Option Expr) : Bool :=
  name.has "SELECTOR" || squeeze type.text.toList == "[u8;4]".toList
    || match value with
      | some e => isSelectorValue (e.render.toList.filter (· != '_'))
      | none => false

/-- Does a constant whose name holds `SELECTOR` start here? -/
def startsSelector (s : List Char) : Bool :=
  match dropPrefix? "const".toList s with
  | some rest =>
    rest.head?.any isBlank && occursIn "SELECTOR".toList ((trimLeft rest).takeWhile isAlnum)
  | none => false

/-- How many constants in a text have a name with `SELECTOR`; `inWord` says that the text goes on
inside a word. -/
def countSelectors (inWord : Bool) : List Char → Nat
  | [] => 0
  | c :: s =>
    (if !inWord && startsSelector (c :: s) then 1 else 0) + countSelectors (isAlnum c) s

/-- The items of the file, its inline modules, and the members of impl blocks and traits. -/
def SourceFile.allItems (f : SourceFile) : List Item :=
  f.walk.flatMap fun i =>
    match i.kind with
    | .impl _ _ items => i :: items
    | .trait _ items => i :: items
    | _ => [i]

def Item.selectorCount (i : Item) : Nat :=
  match i.kind with
  | .const name type value false => if isSelectorConstant name type value then 1 else 0
  | .invoke _ tokens => countSelectors false tokens.toList
  | _ => 0

def Item.dispatcher? (i : Item) : Option String :=
  (i.function?.map (·.name)).filter dispatcherNames.contains

def Item.isSelectorMethod (i : Item) : Bool :=
  i.function?.isSome && i.attrs.any (·.name = "selector")

def SourceFile.signals (f : SourceFile) : Signals where
  selectorConstants := f.allItems.foldr (fun i rest => i.selectorCount + rest) 0
  dispatchers := f.allItems.filterMap Item.dispatcher?
  overrides :=
    overrideMarkers.any (fun m => occursIn m.toList f.text)
      || f.allItems.any Item.isSelectorMethod

def hasMarker (attrs : List Attribute) : Bool := attrs.any fun a => entryMarkers.contains a.name

def isEntryPoint (signals : Signals) (block : ImplBlock) (m : Method) : Bool :=
  !lifecycleNames.contains m.fn.name && m.fn.body.isSome
    && (hasMarker block.attrs || hasMarker m.item.attrs
      || (!m.fn.name.opens "_" && m.fn.hasSelf
        && (m.item.visibility == "pub" || signals.generated)))

/-- What a search for entry points found. -/
structure Discovery where
  /-- Every method that was looked at, and whether it is an entry point. -/
  candidates : List (EntryPoint × Bool)
  signals : Signals
  implCount : Nat

def Discovery.entryPoints (d : Discovery) : List EntryPoint :=
  (d.candidates.filter (·.2)).map (·.1)

/-- The entry points of a contract, in source order. -/
def SourceFile.discover (f : SourceFile) : Discovery :=
  let signals := f.signals
  let blocks := f.impls
  { candidates := blocks.flatMap fun block => (methodsOf block.items).map fun m =>
      (⟨m, block⟩, isEntryPoint signals block m)
    signals := signals
    implCount := blocks.length }

end InkGauge.Contract
