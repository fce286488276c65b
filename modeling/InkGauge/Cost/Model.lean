import InkGauge.Cost.Operation
import InkGauge.Settings.Setting
import InkGauge.Text.Search

namespace InkGauge.Cost

open Settings

structure Model where
  storageRead : Int
  nestedStorageRead : Int
  storageWrite : Int
  embeddedReadWrite : Int
  identity : Int
  value : Int
  blockInfo : Int
  evmDefault : Int
  event : Int
  externalCall : Int
  crypto : Int
  assignment : Int
  controlFlow : Int
  fallback : Int
  deriving DecidableEq

namespace Model

def default : Model where
  storageRead := 1200000
  nestedStorageRead := 2000000
  storageWrite := 1500000
  embeddedReadWrite := 2400000
  identity := 200000
  value := 250000
  blockInfo := 300000
  evmDefault := 350000
  event := 350000
  externalCall := 2500000
  crypto := 500000
  assignment := 80000
  controlFlow := 50000
  fallback := 50000

def fields : List (Setting Model) :=
  [intSetting "storage_read" storageRead fun n m => { m with storageRead := n },
    intSetting "nested_storage_read" nestedStorageRead fun n m => { m with nestedStorageRead := n },
    intSetting "storage_write" storageWrite fun n m => { m with storageWrite := n },
    intSetting "embedded_read_write" embeddedReadWrite fun n m => { m with embeddedReadWrite := n },
    intSetting "identity" identity fun n m => { m with identity := n },
    intSetting "value" value fun n m => { m with value := n },
    intSetting "block_info" blockInfo fun n m => { m with blockInfo := n },
    intSetting "evm_default" evmDefault fun n m => { m with evmDefault := n },
    intSetting "event" event fun n m => { m with event := n },
    intSetting "external_call" externalCall fun n m => { m with externalCall := n },
    intSetting "crypto" crypto fun n m => { m with crypto := n },
    intSetting "assignment" assignment fun n m => { m with assignment := n },
    intSetting "control_flow" controlFlow fun n m => { m with controlFlow := n },
    intSetting "default" fallback fun n m => { m with fallback := n }]

/-- The estimate for an operation of a category. -/
def cost (m : Model) (operation : String) : Category → Int
  | .storageRead => if operation.has "nested" then m.nestedStorageRead else m.storageRead
  | .storageWrite =>
    if operation.has "embedded_read" then m.embeddedReadWrite else m.storageWrite
  | .evmContext =>
    if operation.has "msg::sender" || operation.has "tx::origin" then m.identity
    else if operation.has "msg::value" then m.value
    else if operation.has "block" then m.blockInfo
    else m.evmDefault
  | .event => m.event
  | .externalCall => m.externalCall
  | .crypto => m.crypto
  | .assignment => m.assignment
  | .controlFlow => m.controlFlow
  | .other _ => m.fallback

end Model

end InkGauge.Cost
