import Kumf.SelfProfile.EventConfig
import Kumf.SelfProfile.Runs

/-! Sessions of the self-profiler: `spe_profile_start`, the profiling thread call by call, and
`spe_profile_stop`, with the perf events, the descriptors and the buffers that the kernel gives it.
-/

namespace Kumf.SelfProfile

open Kumf.Library

-----------------------------------------------------------------------------------------
-- Event attributes
-----------------------------------------------------------------------------------------

/-- `MAX_CPUS` -/
def maxCpus : Int := 160

/-- `PERF_TYPE_HARDWARE` -/
def perfTypeHardware : Int := 0

/-- `PERF_COUNT_HW_CPU_CYCLES` -/
def perfCountHwCpuCycles : BitVec 64 := 0#64

def perfSampleIp : Nat := 2 ^ 0
def perfSampleTid : Nat := 2 ^ 1
def perfSampleAddr : Nat := 2 ^ 3
def perfSampleCpu : Nat := 2 ^ 7
def perfSampleWeight : Nat := 2 ^ 14
def perfSampleDataSrc : Nat := 2 ^ 15

/-- `struct perf_event_attr`, as far as the profiler sets it. -/
structure PerfAttr where
  type : Int
  words : EventAttr
  sampleType : Nat
  samplePeriod : Nat
  disabled : Bool
  excludeKernel : Bool
  excludeHv : Bool
  preciseIp : Nat
  deriving DecidableEq, Repr

/-- `get_spe_pmu_type` -/
def getSpePmuType (files : Files) : Int :=
  match files "/sys/bus/event_source/devices/arm_spe_0/type".toList with
  | none => -1
  | some content =>
      let (_, text) := splitSign (content.dropWhile isCSpace)
      if text.takeWhile (isDigitOf 10) = [] then -1 else atoi content

/-- The attribute with which `profile_thread_fn` starts. -/
def firstAttr (files : Files) : PerfAttr where
  type := if getSpePmuType files < 0 then perfTypeHardware else getSpePmuType files
  words := speAttr files 1 1 32
  sampleType :=
    perfSampleIp ||| perfSampleTid ||| perfSampleAddr ||| perfSampleCpu ||| perfSampleWeight
      ||| perfSampleDataSrc
  samplePeriod := 10000
  disabled := true
  excludeKernel := true
  excludeHv := true
  preciseIp := 0

/-- The attribute after CPU 0 has refused the first one. -/
def PerfAttr.fallback (attr : PerfAttr) : PerfAttr :=
  { attr with
    type := perfTypeHardware
    words := { attr.words with config := perfCountHwCpuCycles }
    sampleType := perfSampleIp ||| perfSampleTid ||| perfSampleAddr
    samplePeriod := 100000
    preciseIp := 0 }

/-- `n_cpus`; a negative count ends every loop at once. -/
def nCpus (online : Int) : Nat := (min online maxCpus).toNat

-----------------------------------------------------------------------------------------
-- The profiler
-----------------------------------------------------------------------------------------

/-- Where the thread stands in `profile_thread_fn`: each loop with its index, and the loops over
the buffers with whether `parse_spe_buffer` has been called for it.
-/
inductive Place where
  | opening (cpu : Nat)
  | fallingBack
  | reopening (cpu : Nat)
  | mapping (cpu : Nat)
  | enabling (cpu : Nat)
  | checking
  | polling (cpu : Nat) (called : Bool)
  | draining (cpu : Nat) (called : Bool)
  | cleaning (cpu : Nat)
  | returned
  deriving DecidableEq, Repr

/-- A perf event that is open. -/
structure PerfEvent where
  attr : PerfAttr
  cpu : Nat
  enabled : Bool
  deriving DecidableEq, Repr

/-- The globals, the thread with its variables, and the kernel: open events by descriptor, mapped
buffers by CPU, and what is in them. The last four fields only record: the memory of the buffers
and the events on them in this session, those before its stop, and the descriptors that could not
be mapped in any session.
-/
structure Profiler where
  profilingActive : Bool
  outputFile : Bool
  joining : Bool
  place : Option Place
  attr : PerfAttr
  perfFds : Nat → Option Nat
  mmapHeaders : Nat → Bool
  events : Nat → Option PerfEvent
  buffers : Nat → Bool
  ring : World
  bases : Nat → Nat → UInt8
  past : List Event
  atStop : List Event
  lost : List Nat

/-- Calls of the program, each with its end for `spe_profile_stop`, calls of the thread with the
answer of the kernel where it asks, and appends of perf.
-/
inductive Action where
  | start (opens : Bool) (bases : Nat → Nat → UInt8)
  | stop
  | joined
  | thread (answer : Option Nat)
  | append (cpu : Nat) (record : Record)

namespace Profiler

def go (profiler : Profiler) (place : Place) : Profiler := { profiler with place := some place }

/-- `perf_event_open` gives a descriptor. -/
def opened (profiler : Profiler) (cpu fd : Nat) : Profiler :=
  { profiler with
    perfFds := Function.update profiler.perfFds cpu (some fd)
    events := Function.update profiler.events fd
      (some ⟨profiler.attr, cpu, !profiler.attr.disabled⟩) }

/-- `perf_fds[cpu]` becomes negative. -/
def unset (profiler : Profiler) (cpu : Nat) : Profiler :=
  { profiler with perfFds := Function.update profiler.perfFds cpu none }

/-- `perf_event_open` for a CPU. -/
def ask (profiler : Profiler) (cpu : Nat) : Option Nat → Profiler
  | some fd => profiler.opened cpu fd
  | none => profiler.unset cpu

/-- An event on the buffers. -/
def tick (profiler : Profiler) (event : Event) : Profiler :=
  { profiler with ring := profiler.ring.step event, past := profiler.past ++ [event] }

/-- A CPU without a descriptor or a buffer is passed over. -/
def Skips (profiler : Profiler) (cpu : Nat) : Prop :=
  profiler.perfFds cpu = none ∨ profiler.mmapHeaders cpu = false

instance (profiler : Profiler) (cpu : Nat) : Decidable (profiler.Skips cpu) :=
  inferInstanceAs (Decidable (_ ∨ _))

/-- The body of a loop over the buffers. -/
def visit (profiler : Profiler) (place : Nat → Bool → Place) (cpu : Nat) (called : Bool)
    : Profiler :=
  if called then
    if profiler.ring.walk.isSome then profiler.tick .turn else profiler.go (place (cpu + 1) false)
  else if profiler.Skips cpu then
    profiler.go (place (cpu + 1) false)
  else
    (profiler.tick (.enter cpu)).go (place cpu true)

/-- `mmap` succeeds, or the descriptor is given up. -/
def map (profiler : Profiler) (cpu fd : Nat) : Option Nat → Profiler
  | some _ =>
      { profiler with
        mmapHeaders := Function.update profiler.mmapHeaders cpu true
        buffers := Function.update profiler.buffers cpu true }
  | none => { profiler.unset cpu with lost := fd :: profiler.lost }

/-- `PERF_EVENT_IOC_ENABLE` -/
def enable (profiler : Profiler) (fd : Nat) : Profiler :=
  { profiler with
    events := Function.update profiler.events fd
      ((profiler.events fd).map (fun event => { event with enabled := true })) }

/-- The event is disabled, its buffer unmapped, and the descriptor closed. -/
def close (profiler : Profiler) (cpu fd : Nat) : Profiler :=
  { profiler with
    buffers :=
      if profiler.mmapHeaders cpu then Function.update profiler.buffers cpu false
      else profiler.buffers
    events := Function.update profiler.events fd none }

/-- The next call of the thread. A call on a descriptor is left out where there is none. -/
def profileThread (online : Int) (profiler : Profiler) (answer : Option Nat) : Profiler :=
  match profiler.place with
  | none => profiler
  | some (.opening cpu) =>
      if cpu < nCpus online then
        if answer = none ∧ cpu = 0 then
          { (profiler.unset 0).go .fallingBack with attr := profiler.attr.fallback }
        else
          (profiler.ask cpu answer).go (.opening (cpu + 1))
      else
        profiler.go (.mapping 0)
  | some .fallingBack =>
      (profiler.ask 0 answer).go (if answer = none then .opening 1 else .reopening 1)
  | some (.reopening cpu) =>
      if cpu < nCpus online then
        (profiler.ask cpu answer).go (.reopening (cpu + 1))
      else
        profiler.go (.mapping 0)
  | some (.mapping cpu) =>
      if cpu < nCpus online then
        match profiler.perfFds cpu with
        | none => profiler.go (.mapping (cpu + 1))
        | some fd => (profiler.map cpu fd answer).go (.mapping (cpu + 1))
      else
        profiler.go (.enabling 0)
  | some (.enabling cpu) =>
      if cpu < nCpus online then
        match profiler.perfFds cpu with
        | none => profiler.go (.enabling (cpu + 1))
        | some fd => (profiler.enable fd).go (.enabling (cpu + 1))
      else
        profiler.go .checking
  | some .checking =>
      profiler.go (if profiler.profilingActive then .polling 0 false else .draining 0 false)
  | some (.polling cpu called) =>
      if cpu < nCpus online then profiler.visit .polling cpu called else profiler.go .checking
  | some (.draining cpu called) =>
      if cpu < nCpus online then profiler.visit .draining cpu called else profiler.go (.cleaning 0)
  | some (.cleaning cpu) =>
      if cpu < nCpus online then
        match profiler.perfFds cpu with
        | none => profiler.go (.cleaning (cpu + 1))
        | some fd => (profiler.close cpu fd).go (.cleaning (cpu + 1))
      else
        profiler.go .returned
  | some .returned => profiler

/-- `spe_profile_start` -/
def speProfileStart (files : Files) (profiler : Profiler) (opens : Bool)
    (bases : Nat → Nat → UInt8)
    : Profiler :=
  if profiler.profilingActive then
    profiler
  else if opens then
    { profiler with
      outputFile := true
      profilingActive := true
      place := some (.opening 0)
      attr := firstAttr files
      mmapHeaders := fun _ => false
      ring := .start bases
      bases
      past := []
      atStop := [] }
  else
    { profiler with outputFile := false }

/-- `spe_profile_stop` up to `pthread_join` -/
def speProfileStop (profiler : Profiler) : Profiler :=
  if profiler.profilingActive then
    { profiler with profilingActive := false, joining := true, atStop := profiler.past }
  else
    profiler

/-- `spe_profile_stop` behind `pthread_join`, which waits for the thread -/
def joinReturns (profiler : Profiler) : Profiler :=
  if profiler.joining ∧ profiler.place = some .returned then
    { profiler with joining := false, place := none, outputFile := false }
  else
    profiler

def step (files : Files) (online : Int) (profiler : Profiler) : Action → Profiler
  | .start opens bases => profiler.speProfileStart files opens bases
  | .stop => profiler.speProfileStop
  | .joined => profiler.joinReturns
  | .thread answer => profiler.profileThread online answer
  | .append cpu record => profiler.tick (.append cpu record)

/-- A process that has loaded the profiler. Its array of descriptors is zeroed. -/
def initial (files : Files) : Profiler where
  profilingActive := false
  outputFile := false
  joining := false
  place := none
  attr := firstAttr files
  perfFds := fun _ => some 0
  mmapHeaders := fun _ => false
  events := fun _ => none
  buffers := fun _ => false
  ring := .start (fun _ _ => 0)
  bases := fun _ _ => 0
  past := []
  atStop := []
  lost := []

/-- The condition on a step: one thread of the program starts and stops the profiler, a new
descriptor is not in use, and perf appends to a buffer that is mapped and has room.
-/
def Allows (profiler : Profiler) : Action → Prop
  | .start _ _ => profiler.joining = false
  | .stop => profiler.joining = false
  | .joined => True
  | .thread answer => ∀ fd ∈ answer, profiler.events fd = none
  | .append cpu record =>
      profiler.buffers cpu = true ∧ (profiler.ring.pages cpu).Takes record

instance (profiler : Profiler) : ∀ action, Decidable (profiler.Allows action)
  | .start _ _ => inferInstanceAs (Decidable (_ = _))
  | .stop => inferInstanceAs (Decidable (_ = _))
  | .joined => isTrue trivial
  | .thread answer => inferInstanceAs (Decidable (∀ fd ∈ answer, profiler.events fd = none))
  | .append cpu record => inferInstanceAs (Decidable (_ ∧ (profiler.ring.pages cpu).Takes record))

section
variable (profiler : Profiler) (place : Place) (cpu fd : Nat) (event : Event)

@[simp] theorem go_perfFds : (profiler.go place).perfFds = profiler.perfFds := rfl

@[simp] theorem go_events : (profiler.go place).events = profiler.events := rfl

@[simp] theorem opened_perfFds
    : (profiler.opened cpu fd).perfFds = Function.update profiler.perfFds cpu (some fd) :=
  rfl

@[simp] theorem opened_events
    : (profiler.opened cpu fd).events
      = Function.update profiler.events fd
          (some ⟨profiler.attr, cpu, !profiler.attr.disabled⟩) :=
  rfl

@[simp] theorem unset_perfFds
    : (profiler.unset cpu).perfFds = Function.update profiler.perfFds cpu none :=
  rfl

@[simp] theorem map_none_perfFds
    : (profiler.map cpu fd none).perfFds = Function.update profiler.perfFds cpu none :=
  rfl

@[simp] theorem enable_events
    : (profiler.enable fd).events
      = Function.update profiler.events fd
          ((profiler.events fd).map (fun event => { event with enabled := true })) :=
  rfl

@[simp] theorem close_events
    : (profiler.close cpu fd).events = Function.update profiler.events fd none :=
  rfl

end

end Profiler

end Kumf.SelfProfile
