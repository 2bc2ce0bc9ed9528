import UringMqtt.Bench.Guard
import UringMqtt.Bench.Matrix
import UringMqtt.Proofs.CpuGrammar
import UringMqtt.Proofs.StemNames

/-! How a run ends its children. The polls of the guard last until its deadline, whatever the
clock does; what it says of a child it could not end is read back by a resumed session. -/

namespace UringMqtt.Bench
open Lib Program

/-! ### What an error names -/

private theorem splitOnce_behind {first : Char} {separator before rest : List Char} (absent : first ∉ before) :
    splitOnce (first :: separator) (before ++ (first :: separator ++ rest)) = some (before, rest) := by
  induction before with
  | nil => simp [splitOnce]
  | cons head before ih =>
    have apart : first ≠ head := by grind
    simpa [splitOnce, apart] using ih (by grind)

theorem parseU64_toDigits {value : Nat} (small : value ≤ u64Max) : parseU64 (Nat.toDigits 10 value) = some value := by
  have all (char) (member : char ∈ Nat.toDigits 10 value) := Nat.isDigit_of_mem_toDigits (by decide) (by decide) member
  have read : decimal (Nat.toDigits 10 value) = value := by
    rw [← decimal_eq_foldl]
    conv_rhs => rw [← Nat.ofDigitChars_ten_toDigits (n := value), Nat.ofDigitChars]
    simp [Nat.mul_comm]
  have numeral := Numeral.plain Nat.toDigits_ne_nil all
  rw [read] at numeral
  exact parseU64_eq_some.mpr ⟨numeral, small⟩

private theorem startText_reads (ticks : Option UInt64) :
    ')' ∉ (startText ticks).toList ∧ (if (startText ticks).toList = "?".toList then some none
      else (parseU64 (startText ticks).toList).map some) = some (ticks.map (·.toNat)) := by
  cases ticks with
  | none => decide
  | some ticks =>
    have small : ticks.toNat ≤ u64Max := by grind [u64Max, ticks.toNat_lt]
    have digits : Nat.toDigits 10 ticks.toNat ≠ ['?'] := by
      intro same
      exact @not_mem_toDigits ticks.toNat '?' rfl (by simp [same])
    simp [startText, not_mem_toDigits, digits, parseU64_toDigits small]

namespace GuardedChild
variable {child : GuardedChild} {host after : ChildHost} {error : String}

/-- The error names this child, with its start time where that could be read. -/
def Tells (host : ChildHost) (child : GuardedChild) (error : String) : Prop :=
  ∃ (ticks : Option UInt64) (what : String), (∀ known ∈ ticks, known = host.start child) ∧
    error = cleanupError child (startText ticks) what

private theorem Tells.identity (tells : Tells host child error) : ∃ ticks : Option UInt64, (∀ known ∈ ticks, known = host.start child) ∧
    survivorIdentity (cleanupSurvivorPrefix ++ error) = some (child.child.1, ticks.map (·.toNat)) := by
  obtain ⟨ticks, what, known, rfl⟩ := tells
  refine ⟨ticks, known, ?_⟩
  have opening (rest : List Char) : ∃ before, splitOnce " pid ".toList
      (cleanupSurvivorPrefix.toList ++ (child.label.text.toList ++ (" cleanup: pid ".toList ++ rest))) = some (before, rest) := by
    cases child.label <;> simp [splitOnce, cleanupSurvivorPrefix, ChildLabel.text]
  have number (value : Nat) : (toString value).toList = Nat.toDigits 10 value := Nat.toList_repr
  have text (value : String) : toString value = value := rfl
  have start := startText_reads ticks
  have pid : ' ' ∉ (toString child.child.1).toList ∧ parseU64 (toString child.child.1).toList = some child.child.1.toNat := by
    have small : child.child.1.toNat ≤ u64Max := by grind [u64Max, child.child.2.2]
    exact number child.child.1.toNat ▸ ⟨not_mem_toDigits rfl, parseU64_toDigits small⟩
  have below : child.child.1.toNat < 2 ^ 32 := child.child.1.toNat_lt
  rw [survivorIdentity, cleanupError]
  simp only [text, String.toList_append, List.append_assoc]
  generalize (startText ticks).toList = shown at start
  generalize (toString child.child.1).toList = digits at pid
  obtain ⟨before, opened⟩ := opening (digits ++ (" (start ".toList ++ (shown ++ (") ".toList ++ what.toList))))
  have named : splitOnce " (start ".toList (digits ++ (" (start ".toList ++ (shown ++ (") ".toList ++ what.toList)))) =
      some (digits, shown ++ (") ".toList ++ what.toList)) := splitOnce_behind pid.1
  have timed : splitOnce ")".toList (shown ++ (") ".toList ++ what.toList)) = some (shown, ' ' :: what.toList) :=
    splitOnce_behind start.1
  simp only [opened, named, timed, Option.bind_eq_bind, Option.bind_some, pid.2, below, if_true, UInt32.ofNat_toNat]
  grind

theorem Tells.append (tells : Tells host child error) (one two : String) :
    Tells host child (toString error ++ toString one ++ toString two) := by
  obtain ⟨ticks, what, known, rfl⟩ := tells
  refine ⟨ticks, what ++ one ++ two, known, ?_⟩
  simp only [cleanupError, toString, String.append_assoc]

/-! ### Ending a child -/

def pid (child : GuardedChild) : Int := child.child.1.toNat

/-- Only a child that is not reaped is signalled. -/
def OnlyUnreaped (children : List GuardedChild) (before : ChildHost) (op : ChildCall) (_ : op.Answer) (_ : ChildHost) : Prop :=
  ∀ target, op = .kill target → ∃ child ∈ children, before.reaped child = false ∧ child.pid = target

private theorem OnlyUnreaped.mono {fewer more : List GuardedChild} (among : fewer ⊆ more) (before : ChildHost) (op : ChildCall)
    (answer : op.Answer) (after : ChildHost) (only : OnlyUnreaped fewer before op answer after) :
    OnlyUnreaped more before op answer after := by
  intro target same
  obtain ⟨child, member, running⟩ := only target same
  exact ⟨child, among member, running⟩

/-- What ending a child does: it is reaped, or an error tells of it. -/
structure Ends (child : GuardedChild) (sent : List Int) (left : List GuardedChild) (host after : ChildHost) (error : Option String) :
    Prop where
  signals : after.signals = host.signals ++ sent
  others : ∀ other, other ≠ child → after.reaped other = host.reaped other
  start : after.start = host.start
  reaped : after.reaped child = error.isNone
  tells : ∀ text ∈ error, Tells host child text
  reapers : after.reapers = host.reapers ++ left

theorem Ends.gone (time : Nat) :
    Ends child [] [] host { host with clock := time, reaped := Function.update host.reaped child true } none :=
  ⟨by simp, fun _ apart => Function.update_of_ne apart .., rfl, Function.update_self .., by rintro _ ⟨⟩, by simp⟩

theorem Ends.stays (tells : Tells host child error) (running : host.reaped child = false) (time : Nat) :
    Ends child [] [] host { host with clock := time } (some error) :=
  ⟨by simp, fun _ _ => rfl, rfl, running, by rintro _ ⟨⟩; exact tells, by simp⟩

theorem tryWait_cases {answer : Except String Bool} (answered : ChildHost.respond (.tryWait child) answer host = some after) :
    answer = .ok true ∧ after = { host with reaped := Function.update host.reaped child true } ∨
      answer ≠ .ok true ∧ host.reaped child = false ∧ after = host := by
  rcases answer with _ | _ | _ <;> grind [ChildHost.respond]

/-- However slowly the clock is polled, the polls last until the deadline. -/
private theorem awaitExit_ends {ticks : Option UInt64} {deadline fuel clock : Nat} (known : ∀ known ∈ ticks, known = host.start child)
    (running : host.reaped child = false) (some_ : 0 < fuel) (enough : deadline ≤ clock + waitPollMs * 10 ^ 6 * (fuel - 1)) :
    Holds ChildHost.respond (OnlyUnreaped [child]) (Ends child [] [] host) (fun _ _ => False)
      (awaitExit child (startText ticks) deadline fuel) { host with clock := clock } := by
  induction fuel generalizing clock with
  | zero => cases some_
  | succ fuel ih =>
    refine .perform_bind fun answer after answered => ⟨by rintro _ ⟨⟩, ?_⟩
    rcases tryWait_cases answered with ⟨rfl, rfl⟩ | ⟨alive, -, rfl⟩
    · exact .gone _
    rcases answer with failed | _ | _
    · exact .stays ⟨ticks, _, known, rfl⟩ running _
    · refine .perform_bind fun now after answered => ⟨by rintro _ ⟨⟩, ?_⟩
      obtain ⟨later, ⟨⟩⟩ := Option.ite_none_right_eq_some.mp answered
      dsimp only
      split
      · exact .stays ⟨ticks, _, known, rfl⟩ running _
      · refine .perform_bind fun woken after answered => ⟨by rintro _ ⟨⟩, ?_⟩
        obtain ⟨slept, ⟨⟩⟩ := Option.ite_none_right_eq_some.mp answered
        dsimp only [waitPollMs] at enough later slept
        exact ih (by omega) (by dsimp only [waitPollMs]; omega)
    · exact absurd rfl alive

private theorem refusedKill_sends (running : host.reaped child = false) {post : ChildHost → Option String → Prop}
    (sent : ∀ refused, post { host with signals := host.signals ++ [child.pid] } refused) :
    Holds ChildHost.respond (OnlyUnreaped [child]) post (fun _ _ => False) (refusedKill child.child) host := by
  have target : rawPid child.child = some child.pid := if_pos child.child.2.2
  rw [refusedKill, target]
  refine .perform_bind fun answer after answered => ⟨?_, ?_⟩
  · rintro _ ⟨⟩
    exact ⟨child, List.mem_singleton_self _, running, rfl⟩
  · obtain rfl := Option.some.inj answered
    cases answer <;> exact sent _

private theorem killWithinBound_ends : Holds ChildHost.respond (OnlyUnreaped [child])
    (fun after error => ∃ sent, sent.Sublist [child.pid] ∧ Ends child sent [] host after error) (fun _ _ => False)
    (killWithinBound child) host := by
  refine .perform_bind fun answer after answered => ⟨by rintro _ ⟨⟩, ?_⟩
  rcases tryWait_cases answered with ⟨rfl, rfl⟩ | ⟨alive, running, rfl⟩
  · exact ⟨[], List.nil_sublist _, .gone _⟩
  rcases answer with failed | _ | _
  · exact ⟨[], List.nil_sublist _, .stays ⟨none, _, by rintro _ ⟨⟩, rfl⟩ running _⟩
  · refine .perform_bind fun ticks after answered => ⟨by rintro _ ⟨⟩, ?_⟩
    obtain ⟨read, ⟨⟩⟩ := Option.ite_none_right_eq_some.mp answered
    have known : ∀ known ∈ ticks, known = after.start child := by
      cases ticks <;> simp_all
    refine .bind (refusedKill_sends running fun refused => .perform_bind fun now later answered => ⟨by rintro _ ⟨⟩, ?_⟩)
    obtain ⟨_, ⟨⟩⟩ := Option.ite_none_right_eq_some.mp answered
    have enough : now + guardSigkillReapTimeoutSecs * 10 ^ 9 ≤ now + waitPollMs * 10 ^ 6 * (reapPolls - 1) :=
      Nat.add_le_add_left (by decide) _
    have waits := @awaitExit_ends child { after with signals := after.signals ++ [child.pid] } ticks _ reapPolls now known running
      (by decide) enough
    refine .andThen waits fun last error ends => ?_
    have signals : last.signals = after.signals ++ [child.pid] := by simpa using ends.signals
    cases error with
    | none => exact ⟨_, .refl _, signals, ends.others, ends.start, ends.reaped, by rintro _ ⟨⟩, ends.reapers⟩
    | some error =>
      refine ⟨_, .refl _, signals, ends.others, ends.start, ends.reaped, ?_, ends.reapers⟩
      rintro _ ⟨⟩
      have tells := ends.tells error rfl
      cases refused with
      | none => exact tells
      | some refused => exact tells.append _ _
  · exact absurd rfl alive

/-- Its reaper thread did not start, and the child was dropped. -/
def Unowned (error : String) : Prop := ∃ said cause : String, error = s!"{said}; reaper thread: {cause}"

private theorem endChild_ends : Holds ChildHost.respond (OnlyUnreaped [child])
    (fun after error => ∃ sent left, sent.Sublist [child.pid] ∧ left.Sublist (error.toList.map fun _ => child) ∧
      (∀ text ∈ error, child ∈ left ∨ Unowned text) ∧ Ends child sent left host after error)
    (fun _ _ => False) (endChild child) host := by
  refine killWithinBound_ends.andThen fun after error ⟨sent, one, ends⟩ => ?_
  cases error with
  | none => exact ⟨sent, [], one, .slnil, by rintro _ ⟨⟩, ends⟩
  | some error =>
    refine .perform_bind fun answer last answered => ⟨by rintro _ ⟨⟩, ?_⟩
    rcases answer with failed | _
    · obtain rfl := Option.some.inj answered
      refine ⟨sent, [], one, List.nil_sublist _, ?_, ends.signals, ends.others, ends.start, ends.reaped, ?_, ends.reapers⟩
      · rintro _ ⟨⟩
        exact .inr ⟨_, _, rfl⟩
      · rintro _ ⟨⟩
        exact (ends.tells error rfl).append _ _
    · obtain rfl := Option.some.inj answered
      exact ⟨sent, [child], one, .refl _, fun _ _ => .inl (List.mem_singleton_self _), ends.signals, ends.others, ends.start,
        ends.reaped, ends.tells, by simp [ends.reapers]⟩

/-! ### Ending all of them -/

/-- What is known of a child that is not reaped: its error tells of it, and one of the
threads in `left` waits for it or the error says why none does. -/
def Told (host : ChildHost) (left : List GuardedChild) (child : GuardedChild) (error : String) : Prop :=
  Tells host child error ∧ (child ∈ left ∨ Unowned error)

private theorem Told.mono {fewer more : List GuardedChild} (among : fewer ⊆ more) (told : Told host fewer child error) :
    Told host more child error := ⟨told.1, told.2.imp_left fun member => among member⟩

structure AllEnded (children : List GuardedChild) (host after : ChildHost) (errors : List String) : Prop where
  signals : ∃ sent, sent.Sublist (children.map pid) ∧ after.signals = host.signals ++ sent
  others : ∀ other, other ∉ children → after.reaped other = host.reaped other
  start : after.start = host.start
  told : ∃ left, left.Sublist (children.filter fun child => !after.reaped child) ∧ after.reapers = host.reapers ++ left ∧
    List.Forall₂ (Told host left) (children.filter fun child => !after.reaped child) errors

private theorem endEach_ends {children : List GuardedChild} (distinct : children.Nodup) :
    Holds ChildHost.respond (OnlyUnreaped children) (AllEnded children host) (fun _ _ => False) (endEach children) host := by
  induction children generalizing host with
  | nil => exact ⟨⟨[], .slnil, by simp⟩, fun _ _ => rfl, rfl, [], .slnil, by simp, .nil⟩
  | cons child children ih =>
    obtain ⟨apart, distinct⟩ := List.nodup_cons.mp distinct
    refine (endChild_ends.weaken (.mono (by simp)) (fun _ _ ends => ends) fun _ _ stopped => stopped).andThen fun middle error ended => ?_
    obtain ⟨sent, mine, one, own, owned, ended⟩ := ended
    refine ((ih distinct).weaken (.mono (by simp)) (fun _ _ ends => ends) fun _ _ stopped => stopped).andThen fun last errors rest => ?_
    obtain ⟨others, among, signals⟩ := rest.signals
    have kept : last.reaped child = error.isNone := (rest.others child apart).trans ended.reaped
    have unreaped : (child :: children).filter (fun child => !last.reaped child) =
        (error.toList.map fun _ => child) ++ children.filter fun child => !last.reaped child := by
      cases error <;> simp [kept]
    have same : Told middle = Told host := by
      funext left one text
      rw [Told, Told, Tells, Tells, ended.start]
    obtain ⟨left, few, reapers, told⟩ := rest.told
    rw [same] at told
    refine ⟨⟨sent ++ others, one.append among, ?_⟩, fun other out => ?_, rest.start.trans ended.start,
      mine ++ left, unreaped ▸ own.append few, ?_, ?_⟩
    · rw [signals, ended.signals, List.append_assoc]
    · rw [rest.others other (by simp_all), ended.others other (by simp_all)]
    · rw [reapers, ended.reapers, List.append_assoc]
    · have others := told.imp fun _ _ => Told.mono (List.subset_append_right mine left)
      rw [unreaped]
      cases error with
      | none => exact others
      | some error => exact .cons ⟨ended.tells error rfl, (owned error rfl).imp_left (List.mem_append_left left)⟩ others

/-- A resumed session looks for this child, and stops while it is there. -/
def StopsResume (f64 : F64) (host : ChildHost) (child : GuardedChild) (error : String) : Prop :=
  ∃ next, (survivorResumeRefusal (cleanupSurvivorPrefix ++ error) : Fs f64 _) = .call (.readProcStartTime child.child.1) next ∧
    next (.ok (some (host.start child).toNat)) = .done (some "that process is still running") ∧ next (.ok none) = .done none

private theorem Tells.stopsResume {f64 : F64} (tells : Tells host child error) : StopsResume f64 host child error := by
  obtain ⟨ticks, known, identity⟩ := tells.identity
  rw [StopsResume, survivorResumeRefusal, identity]
  refine ⟨_, rfl, ?_, rfl⟩
  cases ticks with
  | none => rfl
  | some ticks =>
    obtain rfl := known ticks rfl
    exact if_neg (by simp)

end GuardedChild

open GuardedChild in
/-- The guard ends every child of a run. It signals only children that are not reaped, each
once at most, and every loop of it ends. There is an error for each child it could not reap, in
their order: a thread waits for that child, or the error says that none was started, and a
resumed session asks for its pid and stops while that process is there. -/
theorem guard_ends_children (f64 : F64) (guards : ChildGuard) (host : ChildHost) :
    Holds ChildHost.respond (OnlyUnreaped guards.children)
      (fun after errors =>
        (∃ sent, sent.Sublist (guards.children.map pid) ∧ after.signals = host.signals ++ sent) ∧
        ∃ left, left.Sublist (guards.children.filter fun child => !after.reaped child) ∧ after.reapers = host.reapers ++ left ∧
          List.Forall₂ (fun child error => StopsResume f64 host child error ∧ (child ∈ left ∨ Unowned error))
            (guards.children.filter fun child => !after.reaped child) errors)
      (fun _ _ => False) guards.endAll host := by
  refine (endEach_ends guards.distinct).mono (fun _ _ ended => ⟨ended.signals, ?_⟩) fun _ _ stopped => stopped
  obtain ⟨left, few, reapers, told⟩ := ended.told
  exact ⟨left, few, reapers, told.imp fun _ _ known => ⟨known.1.stopsResume, known.2⟩⟩

end UringMqtt.Bench
