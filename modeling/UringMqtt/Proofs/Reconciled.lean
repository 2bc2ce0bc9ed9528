import UringMqtt.Bench.Runner

/-! What a run without a reason against it has in its counts, and what the generator's
report says of its connections. -/

namespace UringMqtt.Bench
open Lib

private theorem row_eq_none {broken : Prop} [Decidable broken] {text : String} (passed : row broken text = none) : ¬broken := by
  intro failed
  rw [row, if_pos failed] at passed
  cases passed

section Counts
variable {f64 : F64}

structure Balanced (record : RunRecord f64) : Prop where
  within : record.kind.publishes → saturatingAdd record.counts.delivered (record.counts.dropped.getD 0) ≤ record.counts.offered
  unresolved : record.kind.publishes → record.counts.unresolved = 0
  duplicates : record.counts.duplicates = 0
  foreign : record.counts.foreign = 0
  dropped : record.kind.publishes → record.counts.dropped.getD 0 = 0
  connect : record.generatorErrors.connect = 0
  missed : record.kind.isOpenLoop → record.generatorErrors.missedSlots = 0
  stalled : record.generatorErrors.stalled = 0
  acked : record.qos = some 1 → record.kind.publishes → record.counts.acked = some record.counts.offered

theorem balanced_of_reconcile {record : RunRecord f64} (valid : reconcile record = []) : Balanced record := by
  have rows := List.filterMap_eq_nil_iff.mp (List.append_eq_nil_iff.mp (List.append_eq_nil_iff.mp valid).1).1
  have passes (reason : Option String) (member : reason ∈ _) : reason = none := rows reason member
  have exceeds := row_eq_none (passes (row2 record) (by simp))
  have remaining := row_eq_none (passes (row3 record) (by simp))
  have twice := row_eq_none (passes (row4 record) (by simp))
  have strange := row_eq_none (passes (row5 record) (by simp))
  have lost := passes (row6 record) (by simp)
  have refused := row_eq_none (passes (row9 record) (by simp))
  have missed := row_eq_none (passes (row11 record) (by simp))
  have stalled := row_eq_none (passes (row12 record) (by simp))
  have acked := row_eq_none (passes (row13 record) (by simp))
  constructor
  · exact fun publishes => Nat.not_lt.mp fun more => exceeds ⟨publishes, more⟩
  · exact fun publishes => not_not.mp fun some => remaining ⟨publishes, some⟩
  · exact not_not.mp twice
  · exact not_not.mp strange
  · intro publishes
    unfold row6 at lost
    split at lost
    next none => rw [none]; rfl
    next count some =>
      rw [some]
      exact not_not.mp fun drops => row_eq_none lost ⟨publishes, drops⟩
  · exact not_not.mp refused
  · exact fun paced => not_not.mp fun some => missed ⟨paced, some⟩
  · exact not_not.mp stalled
  · exact fun reliable publishes => not_not.mp fun fewer => acked ⟨reliable, publishes, fewer⟩

end Counts

section Generator
variable {hdr : Hdr} {allocator : Allocator} {config : GenConfig} {around : Surroundings}
  {joined : List (TaskEnd × World hdr allocator)} {report : GenReport}

structure Totals (config : GenConfig) (joined : List (TaskEnd × World hdr allocator)) (report : GenReport) : Prop where
  valid : config.validate = .ok ()
  unpanicked : ∀ ended ∈ joined, ended.1.panic = none
  offered : report.offered = (joined.map fun ended => ended.2.counters.offered).sum
  acked : config.mode ≠ .connections → config.qos = 1 →
    report.acked = some (joined.map fun ended => ended.2.counters.acked).sum
  missed : report.missedSlots = (joined.map fun ended => ended.2.counters.missedSlots).sum
  connect : report.connectErrors = (joined.map fun ended => ended.2.counters.connectErrors).sum
  stalled : report.stalled =
    (joined.map fun ended => ended.2.counters.stalled).sum + (joined.map Prod.fst).count .cancelled

theorem totals_of_report (reported : runGenerator config around joined = some (.ok report)) :
    Totals config joined report := by
  unfold runGenerator at reported
  split at reported
  · cases reported
  next valid =>
  split at reported
  · cases reported
  split at reported
  · cases reported
  unfold joinAndReport at reported
  split at reported
  · cases reported
  next none =>
  split at reported
  · cases reported
  obtain ⟨built, made, same⟩ := Option.map_eq_some_iff.mp reported
  cases same
  unfold buildReport at made
  obtain ⟨⟨scheduled, windowScheduled⟩, _, made⟩ := Option.bind_eq_some_iff.mp made
  obtain ⟨lateness, _, made⟩ := Option.bind_eq_some_iff.mp made
  cases made
  refine ⟨valid, fun ended member => ?_, ?_, fun publishes reliable => ?_, ?_, ?_, ?_⟩
  · exact List.findSome?_eq_none_iff.mp none _ (List.mem_map_of_mem member)
  · exact congrArg List.sum List.map_map
  · rw [if_pos ⟨publishes, reliable⟩]
    exact congrArg (some ∘ List.sum) List.map_map
  · exact congrArg List.sum List.map_map
  · exact congrArg List.sum List.map_map
  · exact congrArg (List.sum · + _) List.map_map

end Generator
end UringMqtt.Bench
