import UringMqtt.Codec.Decoder

/-! Framing is exact and does not depend on how the stream is cut into reads.
The wrapper learns whether it stands at a frame start only from bytes that
disappear; the invariant ties that flag to the codec's own position. -/

namespace UringMqtt.Proofs.Framing
open Lib

section
variable (rmqtt : Rmqtt) (version : ProtocolVersion) (bound : MaxInboundPacketSize)

/-- The rest of a parse from a position in the stream: at a frame start, or
behind a header whose body is still to come. -/
def resume (state : DecodeState) (stream : Bytes) : List Item × Ending :=
  match state with
  | .frameHeader => Reference.parse rmqtt version bound stream
  | .frame first value =>
    if stream.length < value then ([], .error .truncatedPacket)
    else match rmqtt.decodePacket version first (stream.take value) with
      | .error e => ([], .error (.decode e))
      | .ok packet =>
        let (items, ending) := Reference.parse rmqtt version bound (stream.drop value)
        ((packet, value) :: items, ending)

/-- The wrapper's flag tells the codec's position, and a body it waits for has
at least one byte. -/
structure Synced (decoder : MqttDecoder rmqtt) : Prop where
  version : rmqtt.version decoder.inner = version
  maxSize : rmqtt.maxSize decoder.inner = bound.remainingLengthLimit
  bound : decoder.maxInboundPacketSize = bound
  flag : decoder.atFrameStart = true ↔ rmqtt.state decoder.inner = .frameHeader
  body : ∀ first value, rmqtt.state decoder.inner = .frame first value → 0 < value

variable {rmqtt version bound}

theorem Synced.new (lawful : rmqtt.LawfulFraming) : Synced rmqtt version bound (.new rmqtt version bound) where
  version := lawful.new_version ..
  maxSize := lawful.new_maxSize ..
  bound := rfl
  flag := by simp [MqttDecoder.new, lawful.new_state]
  body := by simp [MqttDecoder.new, lawful.new_state]

variable {decoder : MqttDecoder rmqtt} {first : UInt8} {rest src : Bytes} {width value : Nat}

private theorem Synced.moved {after : rmqtt.Codec} {state : DecodeState} {flag : Bool}
    (synced : Synced rmqtt version bound decoder) (moved : rmqtt.Moved decoder.inner after state)
    (same : flag = true ↔ state = .frameHeader) (body : ∀ first value, state = .frame first value → 0 < value) :
    Synced rmqtt version bound { decoder with inner := after, atFrameStart := flag } where
  version := moved.version.trans synced.version
  maxSize := moved.maxSize.trans synced.maxSize
  bound := synced.bound
  flag := by rw [moved.state]; exact same
  body := by rw [moved.state]; exact body

variable (rmqtt version bound decoder src) in
/-- Everything one call of `decode` can do, for every continuation of the stream. -/
inductive Call :
    Except IoError (Option Item) × MqttDecoder rmqtt × Bytes → Prop where
  | packet (item : Item) (after : MqttDecoder rmqtt) (rest : Bytes)
      (synced : Synced rmqtt version bound after)
      (start : rmqtt.state after.inner = .frameHeader)
      (consumed : rest.length < src.length)
      (parsed : ∀ more, resume rmqtt version bound (rmqtt.state decoder.inner) (src ++ more) =
        (item :: (Reference.parse rmqtt version bound (rest ++ more)).1,
          (Reference.parse rmqtt version bound (rest ++ more)).2))
      (sourced : ∃ first body, rmqtt.decodePacket version first body = .ok item.1) :
      Call (.ok (some item), after, rest)
  | insufficient (after : MqttDecoder rmqtt) (rest : Bytes)
      (synced : Synced rmqtt version bound after)
      (parsed : ∀ more, resume rmqtt version bound (rmqtt.state decoder.inner) (src ++ more) =
        resume rmqtt version bound (rmqtt.state after.inner) (rest ++ more))
      (starved : resume rmqtt version bound (rmqtt.state after.inner) rest =
        ([], if rest.isEmpty && after.atFrameStart then .clean else .error .truncatedPacket)) :
      Call (.ok none, after, rest)
  | error (e : IoError) (after : MqttDecoder rmqtt) (rest : Bytes)
      (parsed : ∀ more, resume rmqtt version bound (rmqtt.state decoder.inner) (src ++ more) = ([], .error e)) :
      Call (.error e, after, rest)

private theorem parse_nil : Reference.parse rmqtt version bound [] = ([], .clean) := by
  rw [Reference.parse]

private theorem parse_header (found : Varint.read maxVarintBytes rest = .number width value)
    (allowed : Reference.headerError bound first width value = none) :
    Reference.parse rmqtt version bound (first :: rest) =
      resume rmqtt version bound (.frame first value) (rest.drop width) := by
  have inside := (Varint.read_number found).2.2.1
  rw [Reference.parse]
  simp only [found, allowed, resume, List.length_drop, List.drop_drop]
  by_cases short : rest.length < width + value
  · have missing : rest.length - width < value := by omega
    simp [short, missing]
  · have present : ¬ rest.length - width < value := by omega
    cases rmqtt.decodePacket version first ((rest.drop width).take value) <;> simp only [short, present, if_false]

private theorem header_checks (bound : MaxInboundPacketSize) (first : UInt8)
    (found : Varint.read maxVarintBytes rest = .number width value) :
    Reference.headerError bound first width value =
      if bound.rejectsFixedHeader (first :: rest) then some .maxSizeExceeded
      else if rejectsMalformedFixedHeader (first :: rest) then some .malformedPacket
      else none := by
  have header : fixedHeader (first :: rest) = some (1 + width, value) := by simp [fixedHeader_cons, found]
  simp only [Reference.headerError, MaxInboundPacketSize.rejectsFixedHeader, packetLen, header,
    rejectsMalformedFixedHeader, varintLen_eq]
  simp

theorem parse_over {stream : Bytes} (exceeds : bound.rejectsFixedHeader stream = true) :
    Reference.parse rmqtt version bound stream = ([], .error (.decode .maxSizeExceeded)) := by
  cases header : fixedHeader stream with
  | none => simp [MaxInboundPacketSize.rejectsFixedHeader, packetLen, header] at exceeds
  | some found =>
    obtain ⟨first, rest, width, rfl, _, read⟩ := fixedHeader_eq_some.mp header
    rw [Reference.parse]
    simp only [read, header_checks bound first read, exceeds, if_true]

theorem parse_length_le (stream : Bytes) : (Reference.parse rmqtt version bound stream).1.length ≤ stream.length := by
  fun_induction Reference.parse rmqtt version bound stream with
  | case7 first rest width value read allowed present packet decoded items ending parsed ih =>
    rw [parsed] at ih
    simp only [List.length_cons, List.length_drop] at ih ⊢
    omega
  | _ => exact Nat.zero_le _

private theorem no_header_checks (bound : MaxInboundPacketSize) (src : Bytes) (incomplete : fixedHeader src = none) :
    bound.rejectsFixedHeader src = false ∧ rejectsMalformedFixedHeader src = false := by
  simp [MaxInboundPacketSize.rejectsFixedHeader, packetLen, rejectsMalformedFixedHeader, incomplete]

private theorem decode_unchecked (size : (decoder.atFrameStart && decoder.maxInboundPacketSize.rejectsFixedHeader src) = false)
    (shape : (decoder.atFrameStart && rejectsMalformedFixedHeader src) = false) :
    decoder.decode src = match rmqtt.decode decoder.inner src with
      | (.ok (some packet), inner, rest) => (.ok (some packet), { decoder with inner, atFrameStart := true }, rest)
      | (.ok none, inner, rest) =>
        if rest.length < src.length then (.ok none, { decoder with inner, atFrameStart := false }, rest)
        else (.ok none, { decoder with inner }, rest)
      | (.error e, inner, rest) => (.error (.decode e), { decoder with inner }, rest) := by
  unfold MqttDecoder.decode
  rcases rmqtt.decode decoder.inner src with ⟨_ | _ | _, inner, rest⟩ <;>
    simp only [size, shape, Bool.false_eq_true, if_false]

variable (lawful : rmqtt.LawfulFraming)
include lawful

section
variable (synced : Synced rmqtt version bound decoder)
include synced

private theorem decode_frame (state : rmqtt.state decoder.inner = .frame first value) (src : Bytes) :
    Call rmqtt version bound decoder src (decoder.decode src) := by
  have down : decoder.atFrameStart = false := by
    rw [Bool.eq_false_iff]
    intro up
    rw [synced.flag.mp up] at state
    cases state
  have positive := synced.body first value state
  rw [decode_unchecked (by simp [down]) (by simp [down])]
  by_cases short : src.length < value
  · rw [lawful.frame_waits decoder.inner first value src state short]
    simp only [Nat.lt_irrefl, if_false]
    refine .insufficient _ _ synced (fun _ => rfl) ?_
    simp [state, resume, short, down]
  · have whole := lawful.frame_whole decoder.inner first value src state (by omega)
    rw [synced.version] at whole
    have reach (more : Bytes) : resume rmqtt version bound (rmqtt.state decoder.inner) (src ++ more) =
        match rmqtt.decodePacket version first (src.take value) with
        | .error e => ([], .error (.decode e))
        | .ok packet => ((packet, value) :: (Reference.parse rmqtt version bound (src.drop value ++ more)).1,
            (Reference.parse rmqtt version bound (src.drop value ++ more)).2) := by
      have present : ¬ (src ++ more).length < value := by simp; omega
      rw [state, resume, if_neg present, List.take_append_of_le_length (by omega),
        List.drop_append_of_le_length (by omega)]
    cases decoded : rmqtt.decodePacket version first (src.take value) with
    | error e =>
      simp only [decoded] at whole reach
      generalize rmqtt.decode decoder.inner src = answer at whole ⊢
      obtain ⟨result, after, rest⟩ := answer
      subst whole
      exact .error _ _ _ reach
    | ok packet =>
      simp only [decoded] at whole reach
      obtain ⟨after, moved, called⟩ := whole
      rw [called]
      refine .packet _ _ _ (synced.moved moved (by simp) (by simp)) moved.state ?_ reach ⟨first, _, decoded⟩
      simp only [List.length_drop]
      omega

private theorem decode_header (state : rmqtt.state decoder.inner = .frameHeader)
    (found : Varint.read maxVarintBytes rest = .number width value)
    (allowed : Reference.headerError bound first width value = none)
    (passes : bound.rejectsFixedHeader (first :: rest) = false ∧ rejectsMalformedFixedHeader (first :: rest) = false) :
    Call rmqtt version bound decoder (first :: rest) (decoder.decode (first :: rest)) := by
  have inside := (Varint.read_number found).2.2.1
  have header : fixedHeader (first :: rest) = some (1 + width, value) := by simp [fixedHeader_cons, found]
  obtain ⟨_, _, _, encodable, minimal⟩ := fixedHeader_bounds header
  have fits : 1 + width + value ≤ bound.bytes := by
    have notOver := passes.1
    simpa [MaxInboundPacketSize.rejectsFixedHeader, packetLen, header] using notOver
  have admitted : value ≤ rmqtt.maxSize decoder.inner := by
    rw [synced.maxSize]
    exact bound.le_remainingLengthLimit minimal encodable fits
  have reach (more : Bytes) : resume rmqtt version bound (rmqtt.state decoder.inner) (first :: rest ++ more) =
      resume rmqtt version bound (.frame first value) (rest.drop width ++ more) := by
    rw [state, List.cons_append, resume, parse_header (Varint.read_number_append more found) allowed,
      List.drop_append_of_le_length inside]
  rw [decode_unchecked (by simp [synced.bound, passes.1]) (by simp [passes.2])]
  by_cases short : rest.length < width + value
  · obtain ⟨after, moved, called⟩ := lawful.header_waits decoder.inner first rest width value state found admitted short
    have consumed : (rest.drop width).length < (first :: rest).length := by
      simp only [List.length_drop, List.length_cons]
      omega
    have remaining : (rest.drop width).length < value := by
      simp only [List.length_drop]
      omega
    rw [called]
    simp only [consumed, if_true]
    refine .insufficient _ _ (synced.moved moved (by simp) ?_) ?_ ?_
    · intro _ _ same
      cases same
      omega
    · intro more
      rw [reach more, moved.state]
    · simp only [moved.state, resume, if_pos remaining, Bool.and_false, Bool.false_eq_true, if_false]
  · have whole := lawful.header_whole decoder.inner first rest width value state found admitted (by omega)
    rw [synced.version] at whole
    have present (more : Bytes) : ¬ (rest.drop width ++ more).length < value := by
      simp only [List.length_append, List.length_drop]
      omega
    have enough : value ≤ (rest.drop width).length := by
      simp only [List.length_drop]
      omega
    have body (more : Bytes) : resume rmqtt version bound (.frame first value) (rest.drop width ++ more) =
        match rmqtt.decodePacket version first ((rest.drop width).take value) with
        | .error e => ([], .error (.decode e))
        | .ok packet => ((packet, value) :: (Reference.parse rmqtt version bound (rest.drop (width + value) ++ more)).1,
            (Reference.parse rmqtt version bound (rest.drop (width + value) ++ more)).2) := by
      rw [resume, if_neg (present more), List.take_append_of_le_length enough,
        List.drop_append_of_le_length enough, List.drop_drop]
    cases decoded : rmqtt.decodePacket version first ((rest.drop width).take value) with
    | error e =>
      simp only [decoded] at whole body
      generalize rmqtt.decode decoder.inner (first :: rest) = answer at whole ⊢
      obtain ⟨result, after, left⟩ := answer
      subst whole
      exact .error _ _ _ (fun more => (reach more).trans (body more))
    | ok packet =>
      simp only [decoded] at whole body
      obtain ⟨after, moved, called⟩ := whole
      rw [called]
      refine .packet _ _ _ (synced.moved moved (by simp) (by simp)) moved.state ?_
        (fun more => (reach more).trans (body more)) ⟨first, _, decoded⟩
      simp only [List.length_drop, List.length_cons]
      omega

theorem decode_call (src : Bytes) :
    Call rmqtt version bound decoder src (decoder.decode src) := by
  cases state : rmqtt.state decoder.inner with
  | frame first value => exact decode_frame lawful synced state src
  | frameHeader =>
    have up : decoder.atFrameStart = true := synced.flag.mpr state
    cases src with
    | nil =>
      have passes := no_header_checks bound [] fixedHeader_nil
      rw [decode_unchecked (by simp [synced.bound, passes.1]) (by simp [passes.2]),
        lawful.header_empty decoder.inner state]
      simp only [Nat.lt_irrefl, if_false]
      refine .insufficient _ _ synced (fun _ => rfl) ?_
      simp [state, resume, parse_nil, up]
    | cons first rest =>
      cases found : Varint.read maxVarintBytes rest with
      | incomplete =>
        have passes := no_header_checks bound (first :: rest) (by simp [fixedHeader_cons, found])
        rw [decode_unchecked (by simp [synced.bound, passes.1]) (by simp [passes.2]),
          lawful.header_incomplete decoder.inner first rest state found]
        simp only [Nat.lt_irrefl, if_false]
        refine .insufficient _ _ synced (fun _ => rfl) ?_
        rw [state, resume, Reference.parse]
        simp [found]
      | overlong =>
        have passes := no_header_checks bound (first :: rest) (by simp [fixedHeader_cons, found])
        have called := lawful.header_overlong decoder.inner first rest state found
        rw [decode_unchecked (by simp [synced.bound, passes.1]) (by simp [passes.2])]
        generalize rmqtt.decode decoder.inner (first :: rest) = answer at called ⊢
        obtain ⟨result, after, left⟩ := answer
        subst called
        refine .error _ _ _ ?_
        intro more
        rw [state, resume, List.cons_append, Reference.parse]
        simp [Varint.read_overlong_append more found]
      | number width value =>
        have checks := header_checks bound first found
        have reject (e : DecodeError) (offends : Reference.headerError bound first width value = some e) (more : Bytes) :
            resume rmqtt version bound (rmqtt.state decoder.inner) (first :: rest ++ more) = ([], .error (.decode e)) := by
          rw [state, resume, List.cons_append, Reference.parse]
          simp [Varint.read_number_append more found, offends]
        by_cases exceeds : bound.rejectsFixedHeader (first :: rest) = true
        · simp only [exceeds, if_true] at checks
          simp only [MqttDecoder.decode, synced.bound, up, exceeds, Bool.and_true, if_true]
          exact .error _ _ _ (reject _ checks)
        · have under : bound.rejectsFixedHeader (first :: rest) = false := by simpa using exceeds
          by_cases malformed : rejectsMalformedFixedHeader (first :: rest) = true
          · simp only [under, malformed, Bool.false_eq_true, if_false, if_true] at checks
            simp only [MqttDecoder.decode, synced.bound, up, under, malformed, Bool.and_true, Bool.and_false,
              Bool.false_eq_true, if_false, if_true]
            exact .error _ _ _ (reject _ checks)
          · have wellFormed : rejectsMalformedFixedHeader (first :: rest) = false := by simpa using malformed
            simp only [under, wellFormed, Bool.false_eq_true, if_false] at checks
            exact decode_header lawful synced state found checks ⟨under, wellFormed⟩

theorem decode_complete (start : rmqtt.state decoder.inner = .frameHeader)
    (complete : holdsCompletePacket src = true) : (decoder.decode src).1 ≠ .ok none := by
  intro waits
  have call := decode_call lawful synced src
  obtain ⟨headerLen, value, header, inside⟩ := (holdsCompletePacket_iff src).mp complete
  obtain ⟨first, rest, width, rfl, rfl, found⟩ := fixedHeader_eq_some.mp header
  generalize decoder.decode (first :: rest) = answer at waits call
  cases call with
  | packet => cases waits
  | error => cases waits
  | insufficient after left synced parsed starved =>
    -- The reference decides the frame: an item, or the decoder's own error.
    have same := parsed []
    rw [List.append_nil, List.append_nil, starved, start, resume] at same
    cases rejected : Reference.headerError bound first width value with
    | some e =>
      rw [Reference.parse] at same
      simp only [found, rejected, Prod.mk.injEq, true_and] at same
      split at same <;> cases same
    | none =>
      have present : ¬ (rest.drop width).length < value := by
        simp only [List.length_drop, List.length_cons] at inside ⊢
        omega
      rw [parse_header found rejected, resume, if_neg present] at same
      cases decoded : rmqtt.decodePacket version first ((rest.drop width).take value) with
      | error e =>
        simp only [decoded, Prod.mk.injEq, true_and] at same
        split at same <;> cases same
      | ok packet => simp [decoded] at same

end

private theorem drain_parses (calls : Nat) (decoder : MqttDecoder rmqtt) (buffer : Bytes)
    (synced : Synced rmqtt version bound decoder) (enough : buffer.length < calls) :
    match Stream.drain calls decoder buffer with
    | (items, .ended ending) => ∀ more,
        resume rmqtt version bound (rmqtt.state decoder.inner) (buffer ++ more) = (items, ending)
    | (items, .insufficient after rest) =>
        Synced rmqtt version bound after ∧
        resume rmqtt version bound (rmqtt.state after.inner) rest =
          ([], if rest.isEmpty && after.atFrameStart then .clean else .error .truncatedPacket) ∧
        ∀ more, resume rmqtt version bound (rmqtt.state decoder.inner) (buffer ++ more) =
          (items ++ (resume rmqtt version bound (rmqtt.state after.inner) (rest ++ more)).1,
            (resume rmqtt version bound (rmqtt.state after.inner) (rest ++ more)).2) := by
  induction calls generalizing decoder buffer with
  | zero => omega
  | succ calls ih =>
    have call := decode_call lawful synced buffer
    rw [Stream.drain]
    generalize decoder.decode buffer = answer at call ⊢
    cases call with
    | error e after rest parsed => exact parsed
    | insufficient after rest synced parsed starved => exact ⟨synced, starved, fun more => by simp [parsed more]⟩
    | packet item after rest synced start consumed parsed =>
      have continued := ih after rest synced (by omega)
      simp only
      cases drained : (Stream.drain calls after rest) with
      | mk items outcome =>
        rw [drained, start] at continued
        cases outcome with
        | ended ending =>
          intro more
          have reached : Reference.parse rmqtt version bound (rest ++ more) = (items, ending) := continued more
          rw [parsed more, reached]
        | insufficient last left =>
          obtain ⟨lastSynced, starved, reached⟩ := continued
          refine ⟨lastSynced, starved, fun more => ?_⟩
          have reached : Reference.parse rmqtt version bound (rest ++ more) = _ := reached more
          rw [parsed more, reached]
          rfl

private theorem drainEof_starved (calls : Nat) (decoder : MqttDecoder rmqtt) (buffer : Bytes)
    (synced : Synced rmqtt version bound decoder) (enough : buffer.length < calls) :
    Stream.drainEof calls decoder buffer = resume rmqtt version bound (rmqtt.state decoder.inner) buffer := by
  induction calls generalizing decoder buffer with
  | zero => omega
  | succ calls ih =>
    have call := decode_call lawful synced buffer
    rw [Stream.drainEof, MqttDecoder.decodeEof]
    generalize decoder.decode buffer = answer at call ⊢
    cases call with
    | error e after rest parsed => simpa using (parsed []).symm
    | insufficient after rest synced parsed starved =>
      have reached := parsed []
      simp only [List.append_nil] at reached
      rw [reached, starved]
      by_cases boundary : (rest.isEmpty && after.atFrameStart) = true <;> simp [boundary]
    | packet item after rest synced start consumed parsed =>
      have continued := ih after rest synced (by omega)
      have reached := parsed []
      simp only [List.append_nil] at reached
      rw [start] at continued
      rw [reached]
      simp only [continued]
      rfl

/-- Feeding reads one by one parses the buffered bytes and everything after them
in one piece, whatever the reads are. -/
private theorem feed_resume (decoder : MqttDecoder rmqtt) (buffer : Bytes) (reads : List Bytes)
    (synced : Synced rmqtt version bound decoder) :
    Stream.feed decoder buffer reads =
      resume rmqtt version bound (rmqtt.state decoder.inner) (buffer ++ reads.flatten) := by
  induction reads generalizing decoder buffer with
  | nil => simpa [Stream.feed] using drainEof_starved lawful _ decoder buffer synced (Nat.lt_succ_self _)
  | cons read reads ih =>
    have drained := drain_parses lawful _ decoder (buffer ++ read) synced (Nat.lt_succ_self _)
    rw [Stream.feed, List.flatten_cons, ← List.append_assoc]
    cases outcome : Stream.drain ((buffer ++ read).length + 1) decoder (buffer ++ read) with
    | mk items result =>
      rw [outcome] at drained
      cases result with
      | ended ending => exact (drained reads.flatten).symm
      | insufficient after rest =>
        obtain ⟨afterSynced, _, parsed⟩ := drained
        rw [parsed reads.flatten]
        simp only [ih after rest afterSynced]

private theorem feed_eq_parse (reads : List Bytes) :
    Stream.feed (.new rmqtt version bound) [] reads = Reference.parse rmqtt version bound reads.flatten := by
  have synced : Synced rmqtt version bound (.new rmqtt version bound) := Synced.new lawful
  have fed := feed_resume lawful (.new rmqtt version bound) [] reads synced
  have start : rmqtt.state (MqttDecoder.new rmqtt version bound).inner = .frameHeader := lawful.new_state ..
  rw [fed, start]
  rfl

end

/-! ### What the parse accepts and how it ends -/

/-- One whole frame: a type byte, a Remaining Length complete in at most four
bytes, and exactly the body it declares. -/
structure Frame (bytes : Bytes) (first : UInt8) (len body : Bytes) : Prop where
  layout : bytes = first :: (len ++ body)
  length : Varint.read maxVarintBytes len = .number len.length body.length

/-- A frame the broker accepts, and the item it yields. -/
structure Accepted (rmqtt : Rmqtt) (version : ProtocolVersion) (bound : MaxInboundPacketSize)
    (bytes : Bytes) (item : Item) : Prop where
  frame : ∃ first len body, Frame bytes first len body ∧
    1 + len.length + body.length ≤ bound.bytes ∧
    len.length = Varint.width body.length ∧
    ¬ (first = pingreqFirstByte ∧ body ≠ []) ∧
    rmqtt.decodePacket version first body = .ok item.1 ∧ item.2 = body.length

/-- The rejection a fixed header earns on its own, the size bound first. -/
inductive OffendingHeader (bound : MaxInboundPacketSize) : Bytes → DecodeError → Prop where
  | overlong (first : UInt8) (rest : Bytes) (long : Varint.read maxVarintBytes rest = .overlong) :
      OffendingHeader bound (first :: rest) .invalidLength
  | size (first : UInt8) (rest : Bytes) (width value : Nat)
      (found : Varint.read maxVarintBytes rest = .number width value)
      (exceeds : bound.bytes < 1 + width + value) :
      OffendingHeader bound (first :: rest) .maxSizeExceeded
  | malformed (first : UInt8) (rest : Bytes) (width value : Nat)
      (found : Varint.read maxVarintBytes rest = .number width value)
      (under : 1 + width + value ≤ bound.bytes)
      (bad : (first = pingreqFirstByte ∧ value ≠ 0) ∨ Varint.width value < width) :
      OffendingHeader bound (first :: rest) .malformedPacket

/-- What the bytes behind the accepted frames must be for each ending: none, a
proper prefix of a frame with no offending header, or an offending frame. -/
def Ends (rmqtt : Rmqtt) (version : ProtocolVersion) (bound : MaxInboundPacketSize) (rest : Bytes) : Ending → Prop
  | .clean => rest = []
  | .error .truncatedPacket =>
    rest ≠ [] ∧ (∃ missing first len body, missing ≠ [] ∧ Frame (rest ++ missing) first len body) ∧
      ∀ e, ¬ OffendingHeader bound rest e
  | .error (.decode e) =>
    OffendingHeader bound rest e ∨
      (∀ e, ¬ OffendingHeader bound rest e) ∧
        ∃ first len body tail, Frame (first :: (len ++ body)) first len body ∧
          rest = first :: (len ++ body) ++ tail ∧ rmqtt.decodePacket version first body = .error e
  | _ => False

section
variable {rmqtt : Rmqtt} {version : ProtocolVersion} {bound : MaxInboundPacketSize}

variable {first : UInt8} {width value : Nat} {rest bytes len : Bytes} {e : DecodeError} {ending : Ending}

private theorem headerError_none_iff :
    Reference.headerError bound first width value = none ↔
      1 + width + value ≤ bound.bytes ∧ ¬ (first = pingreqFirstByte ∧ value ≠ 0) ∧ width ≤ Varint.width value := by
  unfold Reference.headerError
  split
  · simp
    omega
  · split
    · simp
      tauto
    next bad =>
      simp only [not_or, Nat.not_lt] at bad
      exact ⟨fun _ => ⟨by omega, bad.1, bad.2⟩, fun _ => rfl⟩

private theorem offending_of_headerError (found : Varint.read maxVarintBytes rest = .number width value)
    (offends : Reference.headerError bound first width value = some e) : OffendingHeader bound (first :: rest) e := by
  unfold Reference.headerError at offends
  split at offends
  next exceeds =>
    cases offends
    exact .size first rest width value found exceeds
  next under =>
    split at offends
    next bad =>
      cases offends
      exact .malformed first rest width value found (by omega) bad
    next => cases offends

private theorem not_offending (found : Varint.read maxVarintBytes rest = .number width value)
    (allowed : Reference.headerError bound first width value = none) (e : DecodeError) :
    ¬ OffendingHeader bound (first :: rest) e := by
  obtain ⟨fits, ping, minimal⟩ := headerError_none_iff.mp allowed
  intro offends
  cases offends with
  | overlong _ _ long => rw [found] at long; cases long
  | size _ _ _ _ same exceeds => rw [found] at same; cases same; omega
  | malformed _ _ _ _ same under bad =>
    rw [found] at same
    cases same
    rcases bad with bad | bad
    · exact ping bad
    · omega

private theorem parse_offending (offends : OffendingHeader bound rest e) :
    Reference.parse rmqtt version bound rest = ([], .error (.decode e)) := by
  cases offends with
  | overlong first rest long => rw [Reference.parse]; simp [long]
  | size first rest width value found exceeds => rw [Reference.parse]; simp [found, Reference.headerError, exceeds]
  | malformed first rest width value found under bad =>
    have fits : ¬ bound.bytes < 1 + width + value := by omega
    rw [Reference.parse]
    simp only [found, Reference.headerError, if_neg fits, if_pos bad]

private theorem Frame.read {body : Bytes} (frame : Frame bytes first len body)
    (tail : Bytes) : Varint.read maxVarintBytes (len ++ (body ++ tail)) = .number len.length body.length :=
  Varint.read_number_append _ frame.length

private theorem parse_frame {body : Bytes} (frame : Frame bytes first len body)
    (tail : Bytes) (allowed : Reference.headerError bound first len.length body.length = none) :
    Reference.parse rmqtt version bound (bytes ++ tail) =
      match rmqtt.decodePacket version first body with
      | .error e => ([], .error (.decode e))
      | .ok packet => ((packet, body.length) :: (Reference.parse rmqtt version bound tail).1,
          (Reference.parse rmqtt version bound tail).2) := by
  have layout : bytes ++ tail = first :: (len ++ (body ++ tail)) := by simp [frame.layout]
  have present : ¬ (body ++ tail).length < body.length := by simp
  rw [layout, parse_header (frame.read tail) allowed, List.drop_left, resume, if_neg present, List.take_left,
    List.drop_left]

theorem parse_accepted {item : Item} (accepted : Accepted rmqtt version bound bytes item) (tail : Bytes) :
    Reference.parse rmqtt version bound (bytes ++ tail) =
      (item :: (Reference.parse rmqtt version bound tail).1, (Reference.parse rmqtt version bound tail).2) := by
  obtain ⟨first, len, body, frame, fits, minimal, ping, decoded, same⟩ := accepted.frame
  have allowed : Reference.headerError bound first len.length body.length = none := by
    refine headerError_none_iff.mpr ⟨fits, ?_, by omega⟩
    simpa [List.length_eq_zero_iff] using ping
  rw [parse_frame frame tail allowed, decoded, ← same]

private theorem allowed_of_harmless (found : Varint.read maxVarintBytes rest = .number width value)
    (harmless : ∀ e, ¬ OffendingHeader bound (first :: rest) e) :
    Reference.headerError bound first width value = none := by
  cases checked : Reference.headerError bound first width value with
  | none => rfl
  | some e => exact absurd (offending_of_headerError found checked) (harmless e)

private theorem parse_unfinished {missing : Bytes} {body : Bytes} (nonempty : rest ≠ [])
    (more : missing ≠ []) (frame : Frame (rest ++ missing) first len body)
    (harmless : ∀ e, ¬ OffendingHeader bound rest e) :
    Reference.parse rmqtt version bound rest = ([], .error .truncatedPacket) := by
  cases rest with
  | nil => exact absurd rfl nonempty
  | cons start rest =>
    have layout := frame.layout
    rw [List.cons_append, List.cons.injEq] at layout
    obtain ⟨rfl, layout⟩ := layout
    have whole : Varint.read maxVarintBytes (rest ++ missing) = .number len.length body.length := by
      rw [layout]
      exact Varint.read_number_append _ frame.length
    rw [Reference.parse]
    cases found : Varint.read maxVarintBytes rest with
    | incomplete => rfl
    | overlong => exact absurd (.overlong start rest found) (harmless _)
    | number width value =>
      have same := Varint.read_number_append missing found
      rw [whole] at same
      cases same
      have short : rest.length < len.length + body.length := by
        have lengths := congrArg List.length layout
        have positive := List.length_pos_iff.mpr more
        simp only [List.length_append] at lengths
        omega
      simp only [allowed_of_harmless found harmless, if_pos short]

private theorem parse_ends (ends : Ends rmqtt version bound rest ending) :
    Reference.parse rmqtt version bound rest = ([], ending) := by
  rcases ending with _ | error | _
  · have empty : rest = [] := ends
    rw [empty, parse_nil]
  · cases error with
    | truncatedPacket =>
      obtain ⟨nonempty, ⟨_, _, _, _, more, frame⟩, harmless⟩ := ends
      exact parse_unfinished nonempty more frame harmless
    | decode e =>
      rcases ends with offends | ⟨harmless, first, len, body, tail, frame, rfl, failed⟩
      · exact parse_offending offends
      · have allowed : Reference.headerError bound first len.length body.length = none := by
          refine allowed_of_harmless (frame.read tail) ?_
          simpa using harmless
        rw [parse_frame frame tail allowed, failed]
    | _ => exact ends.elim
  · exact ends.elim

private theorem parse_splits (stream : Bytes) :
    ∃ frames rest, List.Forall₂ (Accepted rmqtt version bound) frames (Reference.parse rmqtt version bound stream).1 ∧
      stream = frames.flatten ++ rest ∧ Ends rmqtt version bound rest (Reference.parse rmqtt version bound stream).2 := by
  induction total : stream.length using Nat.strongRecOn generalizing stream with
  | ind total ih =>
    -- A stream whose first frame is not accepted is its own remainder.
    have stays (ending : Ending) (parsed : Reference.parse rmqtt version bound stream = ([], ending))
        (ends : Ends rmqtt version bound stream ending) :
        ∃ frames rest, List.Forall₂ (Accepted rmqtt version bound) frames (Reference.parse rmqtt version bound stream).1 ∧
          stream = frames.flatten ++ rest ∧
          Ends rmqtt version bound rest (Reference.parse rmqtt version bound stream).2 :=
      ⟨[], stream, by rw [parsed]; exact .nil, rfl, by rw [parsed]; exact ends⟩
    cases stream with
    | nil => exact stays .clean parse_nil rfl
    | cons first rest =>
      cases found : Varint.read maxVarintBytes rest with
      | incomplete =>
        obtain ⟨value, completed⟩ := Varint.read_incomplete_completes found
        refine stays (.error .truncatedPacket) (by rw [Reference.parse]; simp [found]) ⟨by simp, ?_, ?_⟩
        · refine ⟨0 :: List.replicate value 0, first, rest ++ [0], List.replicate value 0, by simp, by simp, ?_⟩
          simpa using completed
        · intro e offends
          cases offends with
          | overlong _ _ long => rw [found] at long; cases long
          | size _ _ _ _ same => rw [found] at same; cases same
          | malformed _ _ _ _ same => rw [found] at same; cases same
      | overlong =>
        exact stays (.error (.decode .invalidLength)) (parse_offending (.overlong first rest found))
          (Or.inl (.overlong first rest found))
      | number width value =>
        have inside := (Varint.read_number found).2.2.1
        cases checked : Reference.headerError bound first width value with
        | some e =>
          have offends := offending_of_headerError found checked
          exact stays (.error (.decode e)) (parse_offending offends) (Or.inl offends)
        | none =>
          have harmless : ∀ e, ¬ OffendingHeader bound (first :: rest) e := not_offending found checked
          have header : Varint.read maxVarintBytes (rest.take width) = .number (rest.take width).length value := by
            rw [List.length_take, Nat.min_eq_left inside]
            exact Varint.read_take found
          by_cases short : rest.length < width + value
          · -- The body is cut off: any missing bytes complete the frame.
            refine stays (.error .truncatedPacket) (by rw [Reference.parse]; simp [found, checked, short])
              ⟨by simp, ?_, harmless⟩
            refine ⟨List.replicate (width + value - rest.length) 0, first, rest.take width,
              rest.drop width ++ List.replicate (width + value - rest.length) 0, ?_, ?_, ?_⟩
            · simp
              omega
            · rw [← List.append_assoc, List.take_append_drop, List.cons_append]
            · rw [header]
              simp only [List.length_append, List.length_drop, List.length_replicate, Varint.Reading.number.injEq, true_and]
              omega
          · have size : ((rest.drop width).take value).length = value := by
              simp only [List.length_take, List.length_drop]
              omega
            have frame : Frame (first :: (rest.take width ++ (rest.drop width).take value)) first (rest.take width)
                ((rest.drop width).take value) := ⟨rfl, by rw [header, size]⟩
            have layout : first :: rest = first :: (rest.take width ++ (rest.drop width).take value) ++
                rest.drop (width + value) := by
              rw [List.cons_append, List.append_assoc, ← List.drop_drop, List.take_append_drop, List.take_append_drop]
            cases decoded : rmqtt.decodePacket version first ((rest.drop width).take value) with
            | error e =>
              refine stays (.error (.decode e)) (by rw [Reference.parse]; simp [found, checked, short, decoded])
                (Or.inr ⟨harmless, ?_⟩)
              exact ⟨first, _, _, rest.drop (width + value), frame, layout, decoded⟩
            | ok packet =>
              have parsed : Reference.parse rmqtt version bound (first :: rest) =
                  ((packet, value) :: (Reference.parse rmqtt version bound (rest.drop (width + value))).1,
                    (Reference.parse rmqtt version bound (rest.drop (width + value))).2) := by
                conv_lhs => rw [Reference.parse]
                simp [found, checked, short, decoded]
              obtain ⟨fits, ping, minimal⟩ := headerError_none_iff.mp checked
              have least := Varint.width_le_of_read found
              obtain ⟨frames, tail, accepted, split, ends⟩ :=
                ih (rest.drop (width + value)).length (by simp at total ⊢; omega) _ rfl
              rw [parsed]
              refine ⟨(first :: (rest.take width ++ (rest.drop width).take value)) :: frames, tail,
                .cons ⟨first, _, _, frame, ?_, ?_, ?_, decoded, size.symm⟩ accepted, ?_, ends⟩
              · rw [size, List.length_take]
                omega
              · rw [size, List.length_take]
                omega
              · rintro ⟨same, nonempty⟩
                exact ping ⟨same, by rw [← size]; exact (List.length_pos_iff.mpr nonempty).ne'⟩
              · rw [layout, List.flatten_cons, List.append_assoc, ← split]

private theorem splits_parse {frames : List Bytes} {items : List Item}
    (accepted : List.Forall₂ (Accepted rmqtt version bound) frames items)
    (ends : Ends rmqtt version bound rest ending) :
    Reference.parse rmqtt version bound (frames.flatten ++ rest) = (items, ending) := by
  induction accepted with
  | nil => simpa using parse_ends ends
  | cons first _ ih => rw [List.flatten_cons, List.append_assoc, parse_accepted first, ih]

/-- For every stream and every way of cutting it into reads, the decoder emits
the packets and reaches the ending of the one-shot parser: accepted frames in
order, then a clean end, a truncated frame or the first offending one. -/
theorem feed_exact (rmqtt : Rmqtt) (lawful : rmqtt.LawfulFraming) (version : ProtocolVersion)
    (bound : MaxInboundPacketSize) (stream : Bytes) (reads : List Bytes) (cut : reads.flatten = stream) :
    Stream.feed (.new rmqtt version bound) [] reads = Reference.parse rmqtt version bound stream ∧
    ∀ items ending, Stream.feed (.new rmqtt version bound) [] reads = (items, ending) ↔
      ∃ frames rest, List.Forall₂ (Accepted rmqtt version bound) frames items ∧
        stream = frames.flatten ++ rest ∧ Ends rmqtt version bound rest ending := by
  have fed : Stream.feed (.new rmqtt version bound) [] reads = Reference.parse rmqtt version bound stream := by
    rw [feed_eq_parse lawful, cut]
  refine ⟨fed, fun items ending => ?_⟩
  rw [fed]
  constructor
  · intro parsed
    have splits := @parse_splits rmqtt version bound stream
    rwa [parsed] at splits
  · rintro ⟨frames, rest, accepted, rfl, ends⟩
    exact splits_parse accepted ends

end

def headerOnlyPackets : ProtocolVersion → UInt8 → Bytes → Except DecodeError MqttPacket
  | .mqtt3, 0xC0, [] => .ok (.v3 .pingRequest)
  | .mqtt3, 0xE0, [] => .ok (.v3 .disconnect)
  | _, _, _ => .error .malformedPacket

theorem feed_exact_split_ping :
    Stream.feed (.new (.plain headerOnlyPackets (fun src => (.ok none, src)) (fun _ _ => none)) .mqtt3 .default) []
      [[0xC0], [0x00, 0xE0]] = ([(.v3 .pingRequest, 0)], .error .truncatedPacket) := by
  rw [(feed_exact (.plain headerOnlyPackets (fun src => (.ok none, src)) (fun _ _ => none))
    (Rmqtt.plain_lawful _ _ _) .mqtt3 .default [0xC0, 0x00, 0xE0] [[0xC0], [0x00, 0xE0]] rfl).1]
  decide +kernel

end UringMqtt.Proofs.Framing
