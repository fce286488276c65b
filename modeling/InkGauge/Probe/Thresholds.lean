import InkGauge.Settings.Setting
import InkGauge.Text.Search

namespace InkGauge.Probe

open Settings

structure Thresholds where
  storageRead : Int
  storageWrite : Int
  msgSender : Int
  fallback : Int
  tolerance : Int
  perByte : Int
  sizedMinTolerance : Int
  sizedToleranceDivisor : Int
  deriving DecidableEq

namespace Thresholds

def default : Thresholds where
  storageRead := 650000
  storageWrite := 900000
  msgSender := 80000
  fallback := 50000
  tolerance := 200000
  perByte := 30
  sizedMinTolerance := 250000
  sizedToleranceDivisor := 4

def fields : List (Setting Thresholds) :=
  [intSetting "storage_read" storageRead fun n t => { t with storageRead := n },
    intSetting "storage_write" storageWrite fun n t => { t with storageWrite := n },
    intSetting "msg_sender" msgSender fun n t => { t with msgSender := n },
    intSetting "default" fallback fun n t => { t with fallback := n },
    intSetting "tolerance" tolerance fun n t => { t with tolerance := n },
    intSetting "per_byte" perByte fun n t => { t with perByte := n },
    intSetting "sized_min_tolerance" sizedMinTolerance fun n t => { t with sizedMinTolerance := n },
    intSetting "sized_tolerance_divisor" sizedToleranceDivisor
      fun n t => { t with sizedToleranceDivisor := n }]

/-- The expected cost of an operation, going by its label. -/
def expectedBase (t : Thresholds) (operation : String) : Int :=
  if operation.has "storage_read" then t.storageRead
  else if operation.has "storage_write" then t.storageWrite
  else if operation.has "msg_sender" then t.msgSender
  else t.fallback

end Thresholds

end InkGauge.Probe
