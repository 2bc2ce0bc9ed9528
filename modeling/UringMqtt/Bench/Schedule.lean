import UringMqtt.Bench.Recorder
import Mathlib.Algebra.Order.Floor.Div
import Mathlib.GroupTheory.GroupAction.Ring

/-! The generator's configuration and the slots of an open-loop run, `bench/src/gen.rs`.
Slot `j` of the run is due `j / rate` seconds after the origin, rounded down to a
nanosecond, and belongs to connection `j % connections`. -/

namespace UringMqtt.Bench
open Lib

inductive Mode
  | throughput
  | latency (rate : UInt64)
  | connections
deriving DecidableEq

structure GenConfig where
  mode : Mode
  qos : UInt8
  connections : UInt32
  qos1Window : UInt32
  originNs : UInt64
  window : Window
  drainGraceNs : Nat
  /-- The window's two ends are 64-bit. -/
  window_fits : window.startNs ≤ u64Max ∧ window.endNs ≤ u64Max
deriving DecidableEq

def latencyHistogramBins : Nat := 27 * 1024

def latencyBinsBudget : Nat := 32 * 1024 * 1024

def connectionsMax : Nat := latencyBinsBudget / latencyHistogramBins

def slotGridEndLeadNs : Nat := 10000000

def saturatingMul128 (one two : Nat) : Nat := min (one * two) (2 ^ 128 - 1)

def slotGridEndNs (window : Window) : Nat := max (window.endNs - slotGridEndLeadNs) window.startNs

def scheduledSlots (rate originNs : Nat) (window : Window) : Nat :=
  saturatingMul128 (slotGridEndNs window - originNs) rate ⌈/⌉ oneSecondNs

/-- The slots before the grid end and those of them in the window. `none` is a failed
conversion or an underflow. -/
def slotCounts (rate originNs : Nat) (window : Window) : Option (Nat × Nat) :=
  let scheduled := saturatingMul128 (slotGridEndNs window - originNs) rate ⌈/⌉ oneSecondNs
  let startScheduled := saturatingMul128 (window.startNs - originNs) rate ⌈/⌉ oneSecondNs
  if scheduled > u64Max then none
  else if startScheduled > u64Max then none
  else if startScheduled > scheduled then none
  else some (scheduled, scheduled - startScheduled)

/-- When a connection's own slot is due. `none` is a division by zero or an offset that
does not fit in 64 bits. -/
def slotDueNs (connId slotK connections rate originNs : Nat) : Option Nat :=
  let j := connId + slotK * connections
  let offsetNs := saturatingMul128 j 1000000000 / rate
  if rate = 0 then none
  else if offsetNs > u64Max then none
  else some (saturatingAdd originNs offsetNs)

def ownSlotCount (connId connections jBound : Nat) : Nat := (jBound - connId) ⌈/⌉ connections

namespace GenConfig

def windowDueJCount (self : GenConfig) (rate : Nat) : Nat := scheduledSlots rate self.originNs.toNat self.window

def validateRate (self : GenConfig) : Except String Unit :=
  match self.mode with
  | .latency rate =>
    let scheduled := scheduledSlots rate.toNat self.originNs.toNat self.window
    if rate = 0 then .error "latency rate must be at least 1"
    else if scheduled > u64Max then
      .error s!"latency rate {rate} schedules {scheduled} slots over this window, more than a u64 can hold"
    else .ok ()
  | .throughput | .connections => .ok ()

def validate (self : GenConfig) : Except String Unit :=
  if self.qos > 1 then .error s!"qos must be 0 or 1, got {self.qos}"
  else if self.connections = 0 ∨ self.connections.toNat > connectionsMax then
    .error s!"connections must be between 1 and {connectionsMax}, got {self.connections}"
  else if self.qos = 1 ∧ ¬(1 ≤ self.qos1Window.toNat ∧ self.qos1Window.toNat ≤ 65535) then
    .error s!"qos1_window must be between 1 and 65535, got {self.qos1Window}"
  else match self.validateRate with
    | .error reason => .error reason
    | .ok () =>
      if self.window.startNs ≥ self.window.endNs then .error "window start must be before window end"
      else if self.window.startNs < self.originNs.toNat then
        .error s!"window start {self.window.startNs} must be at or after the origin {self.originNs}"
      else if self.drainGraceNs > u64Max then
        .error s!"drain grace {self.drainGraceNs / oneSecondNs}s is more nanoseconds than a u64 can hold"
      else .ok ()

end GenConfig
end UringMqtt.Bench
