import InkGauge.Cost.Operation
import InkGauge.Text.Search

/-!
What the canonical text of a piece of code says about its cost.

`tagsOf` lists every kind of operation the text shows signs of. `probeClass?` names the one kind
that a runtime probe is labelled with.
-/

namespace InkGauge.Cost

/-- A kind of operation, with its category and its severity. -/
structure Tag where
  operation : String
  category : Category
  severity : Severity
  deriving DecidableEq

def hasAny (text : String) (patterns : List String) : Bool := patterns.any text.has

/-- How often a text that does not overlap itself stands in another. -/
def occurrences (text needle : String) : Nat :=
  go needle.toList text.toList
where
  go (p : List Char) : List Char → Nat
    | [] => 0
    | c :: s => (if Text.startsWith p (c :: s) then 1 else 0) + go p s

def readCalls : List String := [".get(", ".getter()", ".at(", ".value()", ".len()"]
def writeCalls : List String := [".insert(", ".set(", ".push("]
def embeddedWriteCalls : List String := [".insert(", ".set("]
def embeddedReadCalls : List String := [".get(", ".getter("]
def compoundWrites : List String := ["+=", "-="]

def senderPatterns : List String := ["msg::sender()", "msg.sender()", ".msg_sender()"]
def originPatterns : List String := ["tx::origin()", ".tx_origin()"]
def valuePatterns : List String := ["msg::value()", "msg.value()", ".msg_value()"]

def blockPatterns : List String :=
  ["block::number()", "block.number()", "block::timestamp()", "block.timestamp()",
    "block::basefee()", "block.basefee()", "block::chainid()", "block.chainid()",
    "block::coinbase()", "block.coinbase()", "block::gas_limit()", "block.gas_limit()",
    ".block_number()", ".block_timestamp()"]

def eventPatterns : List String := ["evm::log(", ".emit(", "log(self.vm()", ".raw_log("]

def callPatterns : List String :=
  [".call(", "CallBuilder", "Call::new", "RawCall::new", ".static_call(", ".delegate_call("]

def cryptoPatterns : List String := ["keccak256", "sha256", "ecdsa", "ecrecover"]

/-- The read of storage that the text shows: a lookup, or a bare field. -/
def storageRead? (text : String) : Option String :=
  if !text.has "self." then none
  else if hasAny text readCalls then
    some (if 2 ≤ occurrences text ".get(" then "nested get()" else "get()")
  else if text.opens "self." && !text.has "(" && !text.has "=" then some "direct"
  else none

/-- The write to storage that the text shows. -/
def storageWrite? (text : String) : Option String :=
  if !text.has "self." then none
  else if hasAny text writeCalls then
    some (if hasAny text embeddedWriteCalls && hasAny text embeddedReadCalls
      then "write() + embedded_read" else "write()")
  else if hasAny text compoundWrites then some "compound_write"
  else none

/-- The kinds of operation that the text shows signs of. -/
def tagsOf (text : String) : List Tag :=
  let seen (patterns : List String) (tag : Tag) : List Tag :=
    if hasAny text patterns then [tag] else []
  (storageRead? text).toList.map
      (fun kind => ⟨"storage_read (" ++ kind ++ ")", .storageRead, .high⟩)
    ++ (storageWrite? text).toList.map
      (fun kind => ⟨"storage_write (" ++ kind ++ ")", .storageWrite, .high⟩)
    ++ seen senderPatterns ⟨"msg::sender()", .evmContext, .low⟩
    ++ seen originPatterns ⟨"tx::origin()", .evmContext, .low⟩
    ++ seen valuePatterns ⟨"msg::value()", .evmContext, .low⟩
    ++ seen blockPatterns ⟨"block_info", .evmContext, .low⟩
    ++ seen eventPatterns ⟨"event_emit", .event, .medium⟩
    ++ seen callPatterns ⟨"external_call", .externalCall, .high⟩
    ++ seen cryptoPatterns ⟨"crypto_hash", .crypto, .medium⟩

/-- The label of a runtime probe. -/
inductive ProbeClass where
  | storageRead | storageWrite | eventEmit | msgSender | msgValue | blockInfo | externalCall
  | cryptoHash
  deriving DecidableEq

namespace ProbeClass

def name : ProbeClass → String
  | .storageRead => "storage_read"
  | .storageWrite => "storage_write"
  | .eventEmit => "event_emit"
  | .msgSender => "msg_sender"
  | .msgValue => "msg_value"
  | .blockInfo => "block_info"
  | .externalCall => "external_call"
  | .cryptoHash => "crypto_hash"

def patterns : ProbeClass → List String
  | .storageRead => [".get(", ".at("]
  | .storageWrite => [".insert(", ".set("]
  | .eventEmit => eventPatterns
  | .msgSender => senderPatterns ++ originPatterns
  | .msgValue => valuePatterns
  | .blockInfo => blockPatterns
  | .externalCall => callPatterns
  | .cryptoHash => cryptoPatterns

/-- Calls into the host and hashes, which are costly whatever they act on. -/
def costly : List ProbeClass :=
  [.eventEmit, .msgSender, .msgValue, .blockInfo, .externalCall, .cryptoHash]

end ProbeClass

/-- The first class whose patterns the text shows. -/
def probeClass? (text : String) : Option ProbeClass :=
  (.storageRead :: .storageWrite :: ProbeClass.costly).find? (hasAny text ·.patterns)

/-- Does the text access storage, or call something costly? -/
def isProbeCandidate (text : String) : Bool :=
  (text.has "self." && (hasAny text [".get(", ".insert(", ".set("] || !text.has "("))
    || ProbeClass.costly.any (hasAny text ·.patterns)

end InkGauge.Cost
