import UringMqtt.Broker.Handshake
import Mathlib.Order.Bounds.Basic

/-! The keep-alive a client is held to is the one it was told, and the idle deadline is
one and a half times that. Durations are in milliseconds. -/

namespace UringMqtt.Proofs.KeepAlive
open Lib

/-- What a v5 client that asks for `k` seconds is told and held to, under a ceiling of `c`
seconds. -/
structure Honest (k c : Nat) (announced : Option Nat) (keepAliveSecs idle : Nat) : Prop where
  negotiated : keepAliveSecs = announced.getD k
  enforced : idle = 1500 * announced.getD k
  announces : announced.isSome = true ↔ 2 * c < 3 * k
  asked : announced.getD k ≤ k
  positive : 1 ≤ announced.getD k
  within : 2 ≤ c → idle ≤ 1000 * c
  largest : 2 ≤ c → IsGreatest {n | n ≤ k ∧ 3 * n ≤ 2 * c} (announced.getD k)
  floored : c < 2 → announced.isSome = true → announced.getD k = 1
  unclamped : announced.isSome = true → c * 2 / 3 ≤ 65535
  inRange : negotiateKeepAliveChecked k c = some (keepAliveSecs, idle, announced)

theorem graceChecked_some {secs : Nat} (small : secs ≤ 65535) : graceChecked secs = some (1500 * secs) := by
  rw [graceChecked, Nat.mul_comm 1500]
  exact Checked.mul_some (by simp only [keepAliveGraceMillisPerSec]; omega)

private theorem honest_kept {k c : Nat} (asked : 1 ≤ k) (small : k ≤ 65535) (fits : 3 * k ≤ 2 * c) :
    Honest k c none k (1500 * k) where
  negotiated := rfl
  enforced := rfl
  announces := by simpa using fits
  asked := Nat.le_refl k
  positive := asked
  within _ := by omega
  largest _ := ⟨⟨Nat.le_refl k, fits⟩, fun _ bounded => bounded.1⟩
  floored _ absent := by cases absent
  unclamped absent := by cases absent
  inRange := by
    rw [negotiateKeepAliveChecked, if_neg (by omega), graceChecked_some small, Option.bind_some,
      if_pos (by simp only [millisOfSecs]; omega)]

private theorem honest_capped {k c : Nat} (asked : 1 ≤ k) (small : k ≤ 65535) (capped : c ≤ maxTimeoutSecs) (above : 2 * c < 3 * k) :
    Honest k c (some (max (c * 2 / 3) 1)) (max (c * 2 / 3) 1) (1500 * max (c * 2 / 3) 1) where
  negotiated := rfl
  enforced := rfl
  announces := by simpa using above
  asked := by
    simp only [Option.getD_some]
    omega
  positive := Nat.le_max_right _ _
  within _ := by omega
  largest _ := by
    simp only [Option.getD_some]
    refine ⟨⟨by omega, by omega⟩, fun n ⟨_, fits⟩ => ?_⟩
    omega
  floored _ _ := by
    simp only [Option.getD_some]
    omega
  unclamped _ := by omega
  inRange := by
    simp only [maxTimeoutSecs] at capped
    have doubled : Checked.mul 64 c 2 = some (c * 2) := Checked.mul_some (by omega)
    have fitting : min (max (c * 2 / 3) 1) 65535 % 2 ^ 16 = max (c * 2 / 3) 1 := by omega
    rw [negotiateKeepAliveChecked, if_neg (by omega), graceChecked_some small, Option.bind_some,
      if_neg (by simp only [millisOfSecs]; omega), doubled, Option.bind_some]
    simp only [fitting, graceChecked_some (show max (c * 2 / 3) 1 ≤ 65535 by omega), Option.map_some]

private theorem negotiate_honest {k c : Nat} (asked : 1 ≤ k) (small : k ≤ 65535) (capped : c ≤ maxTimeoutSecs) :
    Honest k c (negotiateKeepAlive k c).2.2 (negotiateKeepAlive k c).1 (negotiateKeepAlive k c).2.1 := by
  have nonzero : k ≠ 0 := by omega
  by_cases fits : 3 * k ≤ 2 * c
  · have grace : 1500 * k ≤ millisOfSecs c := by
      simp only [millisOfSecs]
      omega
    rw [negotiateKeepAlive, if_neg nonzero]
    simp only [keepAliveGraceMillisPerSec, Nat.mul_comm k, if_pos grace]
    exact honest_kept asked small fits
  · have grace : ¬ 1500 * k ≤ millisOfSecs c := by
      simp only [millisOfSecs]
      omega
    have unclamped : min (max (c * 2 / 3) 1) 65535 = max (c * 2 / 3) 1 := by omega
    rw [negotiateKeepAlive, if_neg nonzero]
    simp only [keepAliveGraceMillisPerSec, Nat.mul_comm _ 1500, if_neg grace, unclamped]
    exact honest_capped asked small capped (by omega)

def announcedIn : MqttPacket → Option Nat
  | .v5 (.connectAck ack) => ack.serverKeepaliveSec
  | _ => none

section
variable {rmqtt : Rmqtt} {peerAddr : String} {bound : MaxInboundPacketSize} {secs : Nat} {connack : MqttPacket}
  {clientId : Option String} {keepAliveSecs idleTimeout : Nat} {maxPacketSize : Option NonZeroU32}

private theorem accepted_v5 {connect : V5.Connect}
    (accepted : evaluateConnect rmqtt (.v5 (.connect connect)) secs peerAddr bound =
      .accept connack clientId keepAliveSecs idleTimeout maxPacketSize) :
    negotiateKeepAlive connect.keepAlive.toNat (min secs maxTimeoutSecs) =
      (keepAliveSecs, idleTimeout, announcedIn connack) := by
  unfold evaluateConnect refuseV5 at accepted
  dsimp only at accepted
  repeat' split at accepted
  all_goals cases accepted
  all_goals rfl

private theorem accepted_v3 {connect : V3.Connect}
    (accepted : evaluateConnect rmqtt (.v3 (.connect connect)) secs peerAddr bound =
      .accept connack clientId keepAliveSecs idleTimeout maxPacketSize) :
    idleTimeout = if connect.keepAlive = 0 then millisOfSecs (min secs maxTimeoutSecs)
      else min (connect.keepAlive.toNat * keepAliveGraceMillisPerSec) (millisOfSecs (min secs maxTimeoutSecs)) := by
  unfold evaluateConnect at accepted
  dsimp only at accepted
  repeat' split at accepted
  all_goals cases accepted
  all_goals simp_all

end

/-- Every accepted CONNECT, under any configured timeout. -/
theorem keep_alive_honest (rmqtt : Rmqtt) (idleTimeoutSecs : UInt64) (peerAddr : String) (bound : MaxInboundPacketSize)
    (connack : MqttPacket) (clientId : Option String) (keepAliveSecs idleTimeout : Nat) (maxPacketSize : Option NonZeroU32) :
    let c := min idleTimeoutSecs.toNat 31536000
    (∀ connect : V5.Connect, evaluateConnect rmqtt (.v5 (.connect connect)) idleTimeoutSecs.toNat peerAddr bound =
        .accept connack clientId keepAliveSecs idleTimeout maxPacketSize →
      (connect.keepAlive ≠ 0 → Honest connect.keepAlive.toNat c (announcedIn connack) keepAliveSecs idleTimeout) ∧
      (connect.keepAlive = 0 → idleTimeout = 1000 * c)) ∧
    ∀ connect : V3.Connect, evaluateConnect rmqtt (.v3 (.connect connect)) idleTimeoutSecs.toNat peerAddr bound =
        .accept connack clientId keepAliveSecs idleTimeout maxPacketSize →
      (connect.keepAlive ≠ 0 → idleTimeout = min (1500 * connect.keepAlive.toNat) (1000 * c) ∧
        graceChecked connect.keepAlive.toNat = some (1500 * connect.keepAlive.toNat)) ∧
      (connect.keepAlive = 0 → idleTimeout = 1000 * c) := by
  intro c
  have capped : c ≤ maxTimeoutSecs := Nat.min_le_right _ _
  refine ⟨fun connect accepted => ⟨fun asked => ?_, fun zero => ?_⟩, fun connect accepted => ⟨fun asked => ?_, fun zero => ?_⟩⟩
  · have small := connect.keepAlive.toNat_lt
    have positive : connect.keepAlive.toNat ≠ 0 := fun value => asked (UInt16.toNat_inj.mp value)
    have honest := negotiate_honest (show 1 ≤ connect.keepAlive.toNat by omega) (by omega) capped
    have same : negotiateKeepAlive connect.keepAlive.toNat c = _ := accepted_v5 accepted
    rwa [same] at honest
  · have same : negotiateKeepAlive connect.keepAlive.toNat c = _ := accepted_v5 accepted
    rw [zero] at same
    have idle : millisOfSecs c = idleTimeout := congrArg (fun outcome => outcome.2.1) same
    rw [← idle, millisOfSecs, Nat.mul_comm]
  · have small := connect.keepAlive.toNat_lt
    rw [accepted_v3 accepted, if_neg asked]
    exact ⟨by simp only [keepAliveGraceMillisPerSec, millisOfSecs, Nat.mul_comm _ 1500, Nat.mul_comm _ 1000]; rfl,
      graceChecked_some (by omega)⟩
  · rw [accepted_v3 accepted, if_pos zero]
    exact Nat.mul_comm _ _

def silentCodec : Rmqtt := .plain (fun _ _ _ => .error .malformedPacket) (fun src => (.ok none, src)) (fun _ _ => none)

def longKeepAlive : V5.Connect := ⟨"dev5", 400, none, none⟩

theorem keep_alive_honest_capped :
    ∃ connack clientId keepAliveSecs idleTimeout maxPacketSize,
      evaluateConnect silentCodec (.v5 (.connect longKeepAlive)) 300 "peer" .default =
        .accept connack clientId keepAliveSecs idleTimeout maxPacketSize ∧
      announcedIn connack = some 200 ∧ Honest 400 300 (announcedIn connack) keepAliveSecs idleTimeout := by
  refine ⟨_, _, _, _, _, rfl, rfl, ?_⟩
  exact ((keep_alive_honest silentCodec 300 "peer" .default _ _ _ _ _).1 longKeepAlive rfl).1 (by decide)

end UringMqtt.Proofs.KeepAlive
