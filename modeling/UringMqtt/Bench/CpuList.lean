import UringMqtt.Bench.Matrix
import UringMqtt.Lib.Checked
import UringMqtt.Lib.Strides
import Mathlib.Data.List.DropRight

/-! The CPUs a taskset list names. Every sum, difference and product is one of `u64`; where
it leaves that range, the whole count is `none`. -/

namespace UringMqtt.Bench
open Lib Checked

/-! ### The elements -/

/-- `n`, `a-b` or `a-b:s`: every `stride`-th CPU from `first` up to `last`. -/
structure CpuElement where
  first : UInt32
  last : UInt32
  stride : UInt32
  ordered : first ≤ last
  moves : stride ≠ 0

instance : DecidableEq CpuElement := fun one two =>
  decidable_of_iff (one.first = two.first ∧ one.last = two.last ∧ one.stride = two.stride) (by
    cases one
    cases two
    simp)

def trim (text : List Char) : List Char := (text.dropWhile isWhitespace).rdropWhile isWhitespace

def parseU32 (text : List Char) : Option UInt32 :=
  (parseU64 text).bind fun value => if value < 2 ^ 32 then some (UInt32.ofNat value) else none

def splitStride (part : List Char) : Option (List Char × {stride : UInt32 // stride ≠ 0}) :=
  match splitOnce [':'] part with
  | some (span, stride) => do
    let stride ← parseU32 (trim stride)
    if moves : stride ≠ 0 then if span.contains '-' then some (span, ⟨stride, moves⟩) else none
    else none
  | none => some (part, ⟨1, by decide⟩)

def parseSpan (span : List Char) : Option {ends : UInt32 × UInt32 // ends.1 ≤ ends.2} :=
  match splitOnce ['-'] span with
  | some (first, last) => do
    let first ← parseU32 (trim first)
    let last ← parseU32 (trim last)
    if ordered : first ≤ last then some ⟨(first, last), ordered⟩ else none
  | none => do
    let cpu ← parseU32 span
    some ⟨(cpu, cpu), UInt32.le_refl cpu⟩

def parseElement (text : List Char) : Option CpuElement := do
  let part := trim text
  if part.isEmpty then none
  else
    let (span, stride) ← splitStride part
    let ends ← parseSpan span
    some ⟨ends.val.1, ends.val.2, stride.val, ends.property, stride.property⟩

/-! ### The count -/

def dedupRuns : List Nat → List Nat
  | one :: two :: rest => if one = two then dedupRuns (two :: rest) else one :: dedupRuns (two :: rest)
  | short => short

/-- The bounds of an element on the CPU line: its first CPU and one past its last. -/
def CpuElement.bounds (element : CpuElement) : Option (List Nat) := do
  return [element.first.toNat, ← add 64 element.last.toNat 1]

def cutsOf (elements : List CpuElement) : Option (List Nat) := do
  let bounds ← elements.mapM (·.bounds)
  return dedupRuns (sortBy (· ≤ ·) bounds.flatten)

def CpuElement.steps (element : CpuElement) : Stride :=
  ⟨element.first.toNat, element.stride.toNat, Nat.pos_of_ne_zero fun zero => element.moves (UInt32.toNat_inj.mp zero)⟩

def CpuElement.holds (element : CpuElement) (lo hi : Nat) : Option Bool :=
  if element.first.toNat ≤ lo then (add 64 element.last.toNat 1).map (decide <| hi ≤ ·) else some false

def activeIn (lo hi : Nat) : List CpuElement → Option (List Stride)
  | [] => some []
  | element :: rest => do
    let held ← element.holds lo hi
    let others ← activeIn lo hi rest
    return if held then element.steps :: others else others

def firstFrom (stride : Stride) (lo : Nat) : Option Nat := do
  add 64 stride.start (← mul 64 (divCeil (← sub lo stride.start) stride.step) stride.step)

def rangeCount (lo hi : Nat) : Option Nat := sub hi lo

def strideCount (lo hi : Nat) (stride : Stride) : Option Nat := do
  let first ← firstFrom stride lo
  if first < hi then add 64 ((← sub (← sub hi 1) first) / stride.step) 1 else some 0

/-- The strides are merged smallest CPU first, and a CPU that two of them share is counted
once. -/
def walk (hi : Nat) : List Stride → Option Nat → Nat → Option Nat
  | [], _, count => some count
  | stride :: rest, last, count =>
    if hi ≤ stride.start then walk hi rest last count
    else do
      let count ← if last ≠ some stride.start then add 64 count 1 else some count
      if stride.start + stride.step < 2 ^ 64 then walk hi (rest.orderedInsert Stride.le stride.next) (some stride.start) count
      else none
termination_by heap => (heap.map fun stride => hi - stride.start + 1).sum
decreasing_by
  · simp
  · have moves := stride.moves
    simp only [((List.perm_orderedInsert _ _ rest).map _).sum_eq, List.map_cons, List.sum_cons, Stride.next]
    omega

def mergeCount (lo hi : Nat) (active : List Stride) : Option Nat := do
  let next ← active.mapM fun stride => do return (⟨← firstFrom stride lo, stride.step, stride.moves⟩ : Stride)
  walk hi (next.insertionSort Stride.le) none 0

def segmentCount (lo hi : Nat) (active : List Stride) : Option Nat :=
  if active.isEmpty then some 0
  else if active.any (·.step = 1) then rangeCount lo hi
  else match active with
    | [stride] => strideCount lo hi stride
    | _ => mergeCount lo hi active

def countSegments (elements : List CpuElement) : List Nat → Nat → Option Nat
  | lo :: hi :: rest, total => do
    let count ← segmentCount lo hi (← activeIn lo hi elements)
    countSegments elements (hi :: rest) (← add 64 total count)
  | _, total => some total

def countElements (elements : List CpuElement) : Option UInt32 := do
  let total ← countSegments elements (← cutsOf elements) 0
  return UInt32.ofNat (min total (2 ^ 32 - 1))

/-- `cpu_count`; the inner `none` is the refusal of the source. -/
def cpuCount (set : String) : Option (Option UInt32) :=
  match (set.toList.splitOn ',').mapM parseElement with
  | none => some none
  | some elements => (countElements elements).map some

end UringMqtt.Bench
