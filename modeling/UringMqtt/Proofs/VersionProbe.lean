import UringMqtt.Proofs.SessionSteps

/-! Reading the protocol version off the first packet. The probe answers from
whatever part of the stream is buffered; a probe that takes nothing leaves the whole
stream to the decoder behind it. -/

namespace UringMqtt.Proofs.VersionProbe
open Lib SessionSteps

variable {rmqtt : Rmqtt} {sync : LocalSync} (env : Nat → Moment)

variable (bound : MaxInboundPacketSize) (before : World rmqtt sync) in
/-- Everything `next_version` can do. What it makes of the stream is known of a
probe that takes nothing from it. -/
inductive Probing :
    EStateM.Result Stop (World rmqtt sync) (Next ProtocolVersion) → Prop
  | found (version : ProtocolVersion) (after : World rmqtt sync) (log : List Observation)
      (waited : Waited before after log) (unread : rmqtt.ProbeLooks → after.unread = before.unread)
      (probed : rmqtt.ProbeLooks →
        ∃ seen, seen <+: before.unread ∧ ((VersionDecoder.mk bound).decode rmqtt seen).1 = .ok (some version)) :
      Probing (.ok (.done (some (.ok version))) after)
  | rejected (error : DecodeError) (after : World rmqtt sync) (log : List Observation) (waited : Waited before after log)
      (probed : rmqtt.ProbeLooks →
        ∃ seen, seen <+: before.unread ∧ ((VersionDecoder.mk bound).decode rmqtt seen).1 = .error (.decode error)) :
      Probing (.ok (.done (some (.error (.decode error)))) after)
  | unfinished (after : World rmqtt sync) (log : List Observation) (waited : Waited before after log)
      (probed : rmqtt.ProbeLooks →
        ((VersionDecoder.mk bound).decode rmqtt before.unread).1 = .ok none ∧ before.unread ≠ []) :
      Probing (.ok (.done (some (.error .bytesRemaining))) after)
  | failed (kind : Nat) (after : World rmqtt sync) (log : List Observation) (waited : Waited before after log)
      (cause : ∃ moment, (env moment).arrival = .failed kind) :
      Probing (.ok (.done (some (.error (.transport kind)))) after)
  | ended (after : World rmqtt sync) (log : List Observation) (waited : Waited before after log)
      (probed : rmqtt.ProbeLooks →
        ((VersionDecoder.mk bound).decode rmqtt before.unread).1 = .ok none ∧ before.unread = []) :
      Probing (.ok (.done none) after)
  | expired (after : World rmqtt sync) (log : List Observation) (waited : Waited before after log)
      (cause : ∃ moment, (env moment).arrival = .expired) : Probing (.ok .timedOut (after.log [.readExpired]))
  | pending (after : World rmqtt sync) (log : List Observation) (waited : Waited before after log)
      (cause : ∃ moment, (env moment).arrival = .never) : Probing (.error .pending after)

variable {bound : MaxInboundPacketSize} {result : EStateM.Result Stop (World rmqtt sync) (Next ProtocolVersion)}
  {world : World rmqtt sync} {src : Bytes} {headerLen remainingLength : Nat}

private theorem Probing.after_wait {before middle : World rmqtt sync} {log : List Observation} (waited : Waited before middle log)
    (same : rmqtt.ProbeLooks → middle.unread = before.unread)
    (rest : Probing env bound middle result) :
    Probing env bound before result := by
  cases rest with
  | found version after later tail unread probed =>
    refine .found version after _ (waited.trans tail) (fun looks => (unread looks).trans (same looks)) fun looks => ?_
    rw [← same looks]
    exact probed looks
  | rejected error after later tail probed =>
    refine .rejected error after _ (waited.trans tail) fun looks => ?_
    rw [← same looks]
    exact probed looks
  | unfinished after later tail probed =>
    refine .unfinished after _ (waited.trans tail) fun looks => ?_
    rw [← same looks]
    exact probed looks
  | failed kind after later tail cause => exact .failed kind after _ (waited.trans tail) cause
  | ended after later tail probed =>
    refine .ended after _ (waited.trans tail) fun looks => ?_
    rw [← same looks]
    exact probed looks
  | expired after later tail cause => exact .expired after _ (waited.trans tail) cause
  | pending after later tail cause => exact .pending after _ (waited.trans tail) cause

private inductive Look : Except IoError (Option ProtocolVersion) × Bytes → Prop
  | version (version : ProtocolVersion) (rest : Bytes) : Look (.ok (some version), rest)
  | insufficient (rest : Bytes) : Look (.ok none, rest)
  | error (error : DecodeError) (rest : Bytes) : Look (.error (.decode error), rest)

private theorem decode_look (bound : MaxInboundPacketSize) (src : Bytes) :
    Look ((VersionDecoder.mk bound).decode rmqtt src) := by
  unfold VersionDecoder.decode
  split
  · exact .error _ _
  · rcases rmqtt.decodeVersion src with ⟨error | _ | version, rest⟩
    · cases error <;> first | exact .error _ _ | (dsimp only; split <;> exact .error _ _)
    · exact .insufficient rest
    · exact .version version rest

private theorem decode_rest (looks : rmqtt.ProbeLooks) (bound : MaxInboundPacketSize) (src : Bytes) :
    ((VersionDecoder.mk bound).decode rmqtt src).2 = src := by
  have whole := looks src
  unfold VersionDecoder.decode
  split
  · rfl
  · rcases found : rmqtt.decodeVersion src with ⟨error | version, rest⟩
    · rw [found] at whole
      cases error <;> first | exact whole | (dsimp only; split <;> exact whole)
    · rw [found] at whole
      exact whole

private theorem waited_looked (world : World rmqtt sync) (rest : Bytes) :
    Waited world { world with readBuffer := rest } [] :=
  ⟨⟨rfl, rfl, rfl, rfl, rfl, rfl, rfl⟩, ⟨[], rfl⟩, (List.append_nil _).symm, by simp⟩

private theorem decodeVersion_apply (bound : MaxInboundPacketSize) (world : World rmqtt sync) :
    decodeVersion bound world =
      .ok ((VersionDecoder.mk bound).decode rmqtt world.readBuffer).1
        { world with readBuffer := ((VersionDecoder.mk bound).decode rmqtt world.readBuffer).2 } := rfl

private theorem decodeVersionEof_apply (bound : MaxInboundPacketSize) (world : World rmqtt sync) :
    decodeVersionEof bound world =
      .ok ((VersionDecoder.mk bound).decodeEof rmqtt world.readBuffer).1
        { world with readBuffer := ((VersionDecoder.mk bound).decodeEof rmqtt world.readBuffer).2 } := rfl

private theorem look_probing {answer : Except IoError (Option ProtocolVersion)} {rest : Bytes}
    (called : (VersionDecoder.mk bound).decode rmqtt world.readBuffer = (answer, rest))
    (decided : ∀ version, answer = .ok (some version) →
      result = .ok (.done (some (.ok version))) { world with readBuffer := rest })
    (offended : ∀ error, answer = .error error → result = .ok (.done (some (.error error))) { world with readBuffer := rest })
    (more : answer = .ok none → (rmqtt.ProbeLooks → rest = world.readBuffer) → Probing env bound world result) :
    Probing env bound world result := by
  have look := @decode_look rmqtt bound world.readBuffer
  have whole (looks : rmqtt.ProbeLooks) : rest = world.readBuffer := by
    rw [← decode_rest looks bound world.readBuffer, called]
  have part : world.readBuffer <+: world.unread := List.prefix_append _ _
  rw [called] at look
  cases look with
  | version version =>
    rw [decided version rfl]
    refine .found version _ [] (waited_looked world rest) (fun looks => ?_) fun looks => ⟨world.readBuffer, part, by rw [called]⟩
    rw [whole looks]
  | error error =>
    rw [offended _ rfl]
    exact .rejected error _ [] (waited_looked world rest) fun looks => ⟨world.readBuffer, part, by rw [called]⟩
  | insufficient => exact more rfl whole

private theorem eof_probing (drained : world.incoming = [])
    (asked : rmqtt.ProbeLooks → ((VersionDecoder.mk bound).decode rmqtt world.readBuffer).1 = .ok none) :
    Probing env bound world
      (match (VersionDecoder.mk bound).decodeEof rmqtt world.readBuffer with
      | (.ok (some version), rest) => .ok (.done (some (.ok version))) { world with readBuffer := rest }
      | (.error error, rest) => .ok (.done (some (.error error))) { world with readBuffer := rest }
      | (.ok none, rest) => .ok (.done none) { world with readBuffer := rest }) := by
  have unread : world.unread = world.readBuffer := by
    rw [World.unread, drained, List.map_nil, List.flatten_nil, List.append_nil]
  rcases called : (VersionDecoder.mk bound).decode rmqtt world.readBuffer with ⟨answer, rest⟩
  refine look_probing env called ?_ ?_ ?_
  · rintro version rfl
    simp only [VersionDecoder.decodeEof, called]
  · rintro error rfl
    simp only [VersionDecoder.decodeEof, called]
  · rintro rfl whole
    cases rest with
    | nil =>
      simp only [VersionDecoder.decodeEof, called, List.isEmpty_nil, if_true]
      refine .ended _ [] (waited_looked world []) fun looks => ?_
      rw [unread]
      exact ⟨asked looks, (whole looks).symm⟩
    | cons byte rest =>
      simp only [VersionDecoder.decodeEof, called, List.isEmpty_cons, Bool.false_eq_true, if_false]
      refine .unfinished _ [] (waited_looked world (byte :: rest)) fun looks => ?_
      rw [unread]
      refine ⟨asked looks, ?_⟩
      rw [← whole looks]
      exact List.cons_ne_nil byte rest

private theorem next_probing (calls : Nat) (world : World rmqtt sync) (enough : world.incoming.length < calls) :
    Probing env bound world (next env (decodeVersion bound) (decodeVersionEof bound) calls world) := by
  induction calls generalizing world with
  | zero => omega
  | succ calls ih =>
    simp only [next, Run.bind_apply, decodeVersion_apply]
    rcases called : (VersionDecoder.mk bound).decode rmqtt world.readBuffer with ⟨answer, rest⟩
    refine look_probing env called ?_ ?_ ?_
    · rintro version rfl
      rfl
    · rintro error rfl
      rfl
    · rintro rfl whole
      simp only [Run.bind_apply, Run.get_apply, observe_apply, suspend_apply]
      set asleep : World rmqtt sync := World.suspended env (World.log
        { world with readBuffer := rest } [.awaitRead world.unflushed world.writeBuffer]) with sleeping
      have waited : Waited world asleep [.awaitRead world.unflushed world.writeBuffer] :=
        ⟨⟨rfl, rfl, rfl, rfl, rfl, rfl, rfl⟩, ⟨(env world.asked).others, rfl⟩, rfl, by simp⟩
      have same (looks : rmqtt.ProbeLooks) : asleep.unread = world.unread := by
        change rest ++ (world.incoming.map Subtype.val).flatten = world.unread
        rw [whole looks]
        rfl
      rw [show (World.log { world with readBuffer := rest } [.awaitRead world.unflushed world.writeBuffer]).asked =
        world.asked from rfl]
      cases arrival : (env world.asked).arrival with
      | failed kind => exact .failed kind _ _ waited ⟨_, arrival⟩
      | expired => exact .expired asleep _ waited ⟨_, arrival⟩
      | never => exact .pending _ _ waited ⟨_, arrival⟩
      | ready =>
        cases arrived : world.incoming with
        | cons chunk incoming =>
          simp only [Run.bind_apply, Run.modify_apply]
          set read : World rmqtt sync := { asleep with incoming, readBuffer := asleep.readBuffer ++ chunk.val }
          obtain ⟨took, unread⟩ : Waited asleep read [] ∧ read.unread = asleep.unread := Waited.reads asleep arrived
          rw [arrived, List.length_cons] at enough
          exact (ih read (by change incoming.length < calls; omega)).after_wait env (waited.trans took)
            fun looks => unread.trans (same looks)
        | nil =>
          refine Probing.after_wait env waited same ?_
          have drained : asleep.incoming = [] := arrived
          have asked (looks : rmqtt.ProbeLooks) :
              ((VersionDecoder.mk bound).decode rmqtt asleep.readBuffer).1 = .ok none := by
            change ((VersionDecoder.mk bound).decode rmqtt rest).1 = .ok none
            rw [whole looks, called]
          have ends := eof_probing env drained asked
          simp only [Run.bind_apply, decodeVersionEof_apply]
          rcases eof : (VersionDecoder.mk bound).decodeEof rmqtt asleep.readBuffer with ⟨_ | _ | _, rest⟩ <;>
            simpa only [eof, Run.pure_apply] using ends

theorem nextVersion_probing (bound : MaxInboundPacketSize) (world : World rmqtt sync) :
    Probing env bound world (nextVersion env bound world) := by
  simp only [nextVersion, Run.bind_apply, Run.get_apply]
  exact next_probing env _ world (Nat.lt_succ_self _)

/-! ### How much of the stream the probe saw -/

private theorem slice_append {part : Bytes} {start finish : Nat} (found : slice src start finish = some part) (more : Bytes) :
    slice (src ++ more) start finish = some part := by
  unfold slice at found ⊢
  split at found
  next inside =>
    have within : start ≤ finish ∧ finish ≤ (src ++ more).length := by
      rw [List.length_append]
      omega
    rw [if_pos within, ← found, List.drop_append_of_le_length (by omega), List.take_append_of_le_length]
    rw [List.length_drop]
    omega
  next => cases found

theorem rejectsFixedHeader_append (bound : MaxInboundPacketSize)
    (found : fixedHeader src = some (headerLen, remainingLength)) (more : Bytes) :
    bound.rejectsFixedHeader (src ++ more) = bound.rejectsFixedHeader src := by
  rw [MaxInboundPacketSize.rejectsFixedHeader, MaxInboundPacketSize.rejectsFixedHeader, packetLen, packetLen,
    fixedHeader_append more found, found]

theorem rejectsMalformedFixedHeader_append (found : fixedHeader src = some (headerLen, remainingLength)) (more : Bytes) :
    rejectsMalformedFixedHeader (src ++ more) = rejectsMalformedFixedHeader src := by
  have front : (src ++ more).head? = src.head? := by
    cases src with
    | nil => cases found
    | cons => rfl
  rw [rejectsMalformedFixedHeader, rejectsMalformedFixedHeader, fixedHeader_append more found, found, front]

private theorem namesAKnownProtocol_append {hi lo : UInt8} (header : fixedHeader src = some (headerLen, remainingLength))
    (prefixed : slice src headerLen (headerLen + protocolNameLenBytes) = some [hi, lo])
    (buffered : headerLen + protocolNameLenBytes + (hi.toNat * 256 + lo.toNat) < src.length) (more : Bytes) :
    namesAKnownProtocol (src ++ more) = namesAKnownProtocol src := by
  have name : slice src (headerLen + protocolNameLenBytes)
      (headerLen + protocolNameLenBytes + (hi.toNat * 256 + lo.toNat)) = some
        ((src.drop (headerLen + protocolNameLenBytes)).take
          (headerLen + protocolNameLenBytes + (hi.toNat * 256 + lo.toNat) - (headerLen + protocolNameLenBytes))) := by
    rw [slice, if_pos]
    omega
  unfold namesAKnownProtocol
  rw [fixedHeader_append more header, header, rejectsMalformedFixedHeader_append header]
  dsimp only
  rw [slice_append prefixed, prefixed]
  dsimp only
  rw [slice_append name, name]

theorem rejectsFixedHeader_mono (bound : MaxInboundPacketSize) (rejected : bound.rejectsFixedHeader src = true)
    (more : Bytes) : bound.rejectsFixedHeader (src ++ more) = true := by
  cases header : fixedHeader src with
  | none => simp [MaxInboundPacketSize.rejectsFixedHeader, packetLen, header] at rejected
  | some found => rw [rejectsFixedHeader_append bound header, rejected]

section
variable (lawful : rmqtt.LawfulProbe) (bound : MaxInboundPacketSize) {src : Bytes}
include lawful

theorem decode_append (more : Bytes) (within : bound.rejectsFixedHeader (src ++ more) = false)
    (answered : ((VersionDecoder.mk bound).decode rmqtt src).1 ≠ .ok none) :
    ((VersionDecoder.mk bound).decode rmqtt (src ++ more)).1 = ((VersionDecoder.mk bound).decode rmqtt src).1 := by
  have early : bound.rejectsFixedHeader src = false := by
    rw [← Bool.not_eq_true]
    intro rejected
    rw [rejectsFixedHeader_mono bound rejected] at within
    cases within
  have whole := lawful.looks src
  have longer := lawful.looks (src ++ more)
  have stable := lawful.stable src more
  have level := lawful.level src
  simp only [VersionDecoder.decode, early, within, Bool.false_eq_true, if_false] at answered ⊢
  rcases found : rmqtt.decodeVersion src with ⟨answer, rest⟩
  rcases later : rmqtt.decodeVersion (src ++ more) with ⟨answer', rest'⟩
  rw [found] at whole stable level answered
  rw [later] at longer stable
  obtain rfl : rest = src := whole
  obtain rfl : rest' = rest ++ more := longer
  have decided : answer ≠ .ok none := by
    rintro rfl
    exact answered rfl
  obtain rfl : answer' = answer := stable decided
  rcases answer' with error | version
  · cases error with
    | invalidProtocol =>
      obtain ⟨headerLen, remainingLength, hi, lo, header, prefixed, buffered⟩ := level _ rfl (.inl rfl)
      dsimp only
      rw [namesAKnownProtocol_append header prefixed buffered]
      split <;> rfl
    | _ => rfl
  · rfl

theorem decode_over (more : Bytes) (exceeds : bound.rejectsFixedHeader (src ++ more) = true) :
    ((VersionDecoder.mk bound).decode rmqtt src).1 ≠ .error (.decode .unsupportedProtocolLevel) := by
  intro answered
  have level := lawful.level src
  unfold VersionDecoder.decode at answered
  split at answered
  · cases answered
  next early =>
    rcases found : rmqtt.decodeVersion src with ⟨error | version, rest⟩
    · rw [found] at level answered
      -- The header is all there, so the part was over the bound as well.
      have refused (about : error = .invalidProtocol ∨ error = .unsupportedProtocolLevel) : False := by
        obtain ⟨headerLen, remainingLength, hi, lo, header, _⟩ := level error rfl about
        exact early ((rejectsFixedHeader_append bound header more).symm.trans exceeds)
      cases error with
      | invalidProtocol => exact refused (.inl rfl)
      | unsupportedProtocolLevel => exact refused (.inr rfl)
      | _ => cases answered
    · rw [found] at answered
      cases answered

end

end UringMqtt.Proofs.VersionProbe
