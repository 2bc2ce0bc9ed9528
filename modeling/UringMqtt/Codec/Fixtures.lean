import UringMqtt.Codec.Version

/-! The packets of the broker's own tests as they stand on the wire, and a codec that
answers on them as rmqtt-codec does. It probes the version of any CONNECT; of packets and
replies it knows those listed here, and refuses every other. -/

namespace UringMqtt.Fixtures
open Lib

def v3ConnectTest : Bytes :=
  [0x10, 0x10, 0x00, 0x04, 0x4D, 0x51, 0x54, 0x54, 0x04, 0x02, 0x00, 0x3C, 0x00, 0x04, 0x74, 0x65, 0x73, 0x74]

def v3ConnectLevel6 : Bytes := v3ConnectTest.set 8 0x06

def v3ConnectPersistent : Bytes := v3ConnectTest.set 9 0x00

/-- A client that takes packets of 15 bytes, which is the length of the CONNACK. -/
def v5ConnectTight : Bytes :=
  [0x10, 0x16, 0x00, 0x04, 0x4D, 0x51, 0x54, 0x54, 0x05, 0x02, 0x00, 0x3C, 0x05, 0x27, 0x00, 0x00, 0x00, 0x0F, 0x00, 0x04,
    0x74, 0x65, 0x73, 0x74]

def v5ConnackDefault : Bytes :=
  [0x20, 0x0D, 0x00, 0x00, 0x0A, 0x11, 0x00, 0x00, 0x00, 0x00, 0x27, 0x00, 0x02, 0x00, 0x00]

def publishQos1T : Bytes := [0x32, 0x09, 0x00, 0x01, 0x74, 0x00, 0x01, 0x09, 0xC4, 0x03, 0xF5]

def pingreq : Bytes := [0xC0, 0x00]

def disconnect : Bytes := [0xE0, 0x00]

private theorem one_nonzero : (1 : UInt16) ≠ 0 := by decide

def idOne : NonZeroU16 := ⟨1, one_nonzero⟩

def limit15 : NonZeroU32 := ⟨15, by decide⟩

def connectTest : MqttPacket := .v3 (.connect ⟨"test", true, 60⟩)

def connectTight : MqttPacket := .v5 (.connect ⟨"test", 60, none, some limit15⟩)

def publishT : CodecPublish := ⟨false, false, .atLeastOnce, "t", some idOne, [0x09, 0xC4, 0x03, 0xF5], none⟩

def packets : List (Bytes × MqttPacket) :=
  [(v3ConnectTest, connectTest), (v3ConnectPersistent, .v3 (.connect ⟨"test", false, 60⟩)), (v5ConnectTight, connectTight),
    (publishQos1T, .v3 (.publish publishT)), (pingreq, .v3 .pingRequest), (pingreq, .v5 .pingRequest),
    (disconnect, .v3 .disconnect)]

def replies : List (MqttPacket × Bytes) :=
  [(.v3 (.connectAck ⟨.connectionAccepted, false⟩), [0x20, 0x02, 0x00, 0x00]),
    (.v3 (.connectAck ⟨.unacceptableProtocolVersion, false⟩), [0x20, 0x02, 0x00, 0x01]),
    (.v5 (.connectAck ⟨.success, .exactlyOnce, true, true, true, true, some 0, some 131072, none, none⟩), v5ConnackDefault),
    (.v3 (.publishAck idOne), [0x40, 0x02, 0x00, 0x01]), (.v3 .pingResponse, [0xD0, 0x00]), (.v5 .pingResponse, [0xD0, 0x00])]

/-- Every frame of the table has a Remaining Length of one byte. -/
def decodePacket (version : ProtocolVersion) (first : UInt8) (body : Bytes) : Except DecodeError MqttPacket :=
  match packets.find? fun entry => entry.1 = first :: body.length.toUInt8 :: body ∧ entry.2.variant = some version with
  | some entry => .ok entry.2
  | none => .error .malformedPacket

def encode (version : ProtocolVersion) (packet : MqttPacket) : Option Bytes :=
  (replies.find? fun entry => entry.1 = packet ∧ packet.variant = some version).map Prod.snd

/-! ### The version probe -/

/-- The protocol behind the fixed header of a CONNECT. -/
def judgeLevel : Bytes → Except DecodeError (Option ProtocolVersion)
  | hi :: lo :: after =>
    match after.drop (hi.toNat * 256 + lo.toNat) with
    | level :: _ =>
      let name := after.take (hi.toNat * 256 + lo.toNat)
      if name ≠ protocolNameMqtt ∧ name ≠ protocolNameMqisdp then .error .invalidProtocol
      else if level = 3 ∨ level = 4 then .ok (some .mqtt3)
      else if level = 5 then .ok (some .mqtt5)
      else .error .invalidProtocol
    | [] => .ok none
  | _ => .ok none

def decodeVersion (src : Bytes) : Except DecodeError (Option ProtocolVersion) × Bytes :=
  (match src with
  | [] => .ok none
  | first :: rest =>
    match Varint.read maxVarintBytes rest with
    | .incomplete => .ok none
    | .overlong => .error .invalidLength
    | .number width _ => if first = 0x10 then judgeLevel (rest.drop width) else .error .unsupportedPacketType, src)

variable {behind : Bytes}

private theorem judgeLevel_append (judged : judgeLevel behind ≠ .ok none) (more : Bytes) :
    judgeLevel (behind ++ more) = judgeLevel behind := by
  rcases behind with _ | ⟨hi, _ | ⟨lo, after⟩⟩
  · exact absurd rfl judged
  · exact absurd rfl judged
  · cases level : after.drop (hi.toNat * 256 + lo.toNat) with
    | nil => simp [judgeLevel, level] at judged
    | cons byte rest =>
      have long : hi.toNat * 256 + lo.toNat ≤ after.length := by
        have size := congrArg List.length level
        simp only [List.length_drop, List.length_cons] at size
        omega
      simp only [judgeLevel, List.cons_append, List.drop_append_of_le_length long, List.take_append_of_le_length long, level]

theorem judgeLevel_error {error : DecodeError} (judged : judgeLevel behind = .error error) :
    error = .invalidProtocol ∧ ∃ hi lo after, behind = hi :: lo :: after ∧ hi.toNat * 256 + lo.toNat < after.length := by
  rcases behind with _ | ⟨hi, _ | ⟨lo, after⟩⟩
  · cases judged
  · cases judged
  · cases level : after.drop (hi.toNat * 256 + lo.toNat) with
    | nil => simp [judgeLevel, level] at judged
    | cons byte rest =>
      have size := congrArg List.length level
      simp only [List.length_drop, List.length_cons] at size
      refine ⟨?_, hi, lo, after, rfl, by omega⟩
      simp only [judgeLevel, level] at judged
      repeat' split at judged
      all_goals cases judged
      all_goals rfl

/-! ### The codec -/

def codec : Rmqtt := .plain decodePacket decodeVersion encode

theorem codec_lawful : codec.LawfulFraming := Rmqtt.plain_lawful _ _ _

theorem codec_encodes {version : ProtocolVersion} {packet : MqttPacket} {bytes : Bytes}
    (encoded : codec.encode version packet = some bytes) : bytes ≠ [] := by
  obtain ⟨entry, found, rfl⟩ := Option.map_eq_some_iff.mp encoded
  have all : ∀ entry ∈ replies, entry.2 ≠ [] := by decide +kernel
  exact all entry (List.mem_of_find?_eq_some found)

theorem codec_decodesOwnVariant : codec.DecodesOwnVariant := by
  intro version first body packet decoded
  change decodePacket version first body = .ok packet at decoded
  unfold decodePacket at decoded
  split at decoded
  next entry found =>
    cases decoded
    have matched := List.find?_some found
    simp only [decide_eq_true_eq] at matched
    exact matched.2
  next => cases decoded

theorem codec_lawfulProbe : codec.LawfulProbe where
  looks _ := rfl
  stable src more answered := by
    cases src with
    | nil => exact absurd rfl answered
    | cons first rest =>
      change (decodeVersion _).1 ≠ _ at answered
      change (decodeVersion _).1 = (decodeVersion _).1
      cases found : Varint.read maxVarintBytes rest with
      | incomplete => simp [decodeVersion, found] at answered
      | overlong => simp [decodeVersion, found, Varint.read_overlong_append more found]
      | number width value =>
        have inside := (Varint.read_number found).2.2.1
        simp only [decodeVersion, found, List.cons_append, Varint.read_number_append more found,
          List.drop_append_of_le_length inside] at answered ⊢
        split
        next connect =>
          rw [if_pos connect] at answered
          exact judgeLevel_append answered more
        next => rfl
  level src error answered about := by
    cases src with
    | nil => cases answered
    | cons first rest =>
      change (decodeVersion _).1 = _ at answered
      cases found : Varint.read maxVarintBytes rest with
      | incomplete => simp [decodeVersion, found] at answered
      | overlong =>
        simp only [decodeVersion, found] at answered
        cases answered
        rcases about with same | same <;> cases same
      | number width value =>
        simp only [decodeVersion, found] at answered
        split at answered
        next =>
          obtain ⟨_, hi, lo, after, behind, buffered⟩ := judgeLevel_error answered
          have inside := (Varint.read_number found).2.2.1
          have cut : rest = rest.take width ++ (hi :: lo :: after) := by rw [← behind, List.take_append_drop]
          have size := congrArg List.length cut
          simp only [List.length_append, List.length_take, List.length_cons] at size
          refine ⟨1 + width, value, hi, lo, by simp [fixedHeader_cons, found], slice_eq_some.mpr
            ⟨first :: rest.take width, after, ?_, ?_, rfl⟩, ?_⟩
          · rw [List.cons_append]
            exact congrArg (first :: ·) cut
          · rw [List.length_cons, List.length_take]
            omega
          · simp only [List.length_cons, protocolNameLenBytes]
            omega
        next =>
          cases answered
          rcases about with same | same <;> cases same

end UringMqtt.Fixtures
