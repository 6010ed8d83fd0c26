import Kumf.Spe.Packets
import Kumf.Library.Dict

/-! Per-page counters: the sample of a record, `_flush_sample`, and the counters as sums and
one maximum of what the samples contribute.
-/

namespace Kumf.Spe

open Kumf.Library PyText

/-- The keys of the counters of a page. -/
inductive Counter where
  | accessCount
  | latTotSum
  | latTotMax
  | latIssueSum
  | latXlatSum
  | lat9eSum
  | lat9eCount
  | llcRefillCount
  | llcAccessCount
  | tlbRefillCount
  | ldCount
  | stCount
  | sveCount
  deriving DecidableEq, Repr

/-- The counters of a page, all zero at first. -/
abbrev PageStats := Counter → Nat

def PageStats.zero : PageStats := fun _ => 0

/-- `page_stats`: the counters under the hexadecimal address of the page. -/
abbrev StatsTable := Dict (List Char) PageStats

/-- `current_sample`: the keys that the two parsers set and `_flush_sample` reads. -/
structure Sample where
  pc : Option (List Char) := none
  va : Option (List Char) := none
  latTot : Option Nat := none
  latIssue : Option Nat := none
  latXlat : Option Nat := none
  lat9e : Option Nat := none
  lat9eMax : Option Nat := none
  lat9eCount : Option Nat := none
  lat9eSum : Option Nat := none
  ev : Option (List Char) := none
  op : Option (List Char) := none
  llcRefill : Bool := false
  llcAccess : Bool := false
  tlbRefill : Bool := false
  isLoad : Bool := false
  isStore : Bool := false
  isSve : Bool := false
  sve : Bool := false
  deriving DecidableEq, Repr

/-- `_sample_is_valid` -/
def sampleIsValid (sample : Sample) : Bool := sample.va.isSome

/-- `int(text, 16)` of a literal with its prefix; `none` is a `ValueError`. -/
def intHex (text : List Char) : Option Nat :=
  if startsWith text "0x".toList ∧ text.drop 2 ≠ [] ∧ (text.drop 2).all isHex then
    some (numeralValue 16 (text.drop 2))
  else
    none

namespace PageStats

/-- `stats[key] += value` -/
def bump (stats : PageStats) (key : Counter) (value : Nat) : PageStats :=
  Function.update stats key (stats key + value)

/-- `if field in sample: stats[key] += sample[field]` -/
def bumpField (stats : PageStats) (key : Counter) (field : Option Nat) : PageStats :=
  match field with
  | some value => stats.bump key value
  | none => stats

/-- `if sample.get(flag): stats[key] += 1` -/
def bumpFlag (stats : PageStats) (key : Counter) (flag : Bool) : PageStats :=
  if flag then stats.bump key 1 else stats

/-- The updates of `_flush_sample` to the counters of the page. -/
def addSample (stats : PageStats) (sample : Sample) : PageStats :=
  let stats := stats.bump .accessCount 1
  let stats : PageStats :=
    match sample.latTot with
    | some lat =>
        let stats : PageStats := stats.bump .latTotSum lat
        Function.update stats .latTotMax (max (stats .latTotMax) lat)
    | none => stats
  let stats := stats.bumpField .latIssueSum sample.latIssue
  let stats := stats.bumpField .latXlatSum sample.latXlat
  let stats : PageStats :=
    match sample.lat9e with
    | some lat => (stats.bump .lat9eSum lat).bump .lat9eCount 1
    | none => stats
  let stats := stats.bumpFlag .llcRefillCount sample.llcRefill
  let stats := stats.bumpFlag .llcAccessCount sample.llcAccess
  let stats := stats.bumpFlag .tlbRefillCount sample.tlbRefill
  let stats := stats.bumpFlag .ldCount sample.isLoad
  let stats := stats.bumpFlag .stCount sample.isStore
  stats.bumpFlag .sveCount sample.isSve

end PageStats

/-- The filter of `_flush_sample` for kernel addresses. -/
def isKernel (va : List Char) : Bool :=
  startsWith va "0xffff".toList || startsWith va "0xFFFF".toList

/-- `_flush_sample` -/
def flushSample (sample : Sample) (pageStats : StatsTable) : StatsTable :=
  match sample.va with
  | none => pageStats
  | some text =>
      if isKernel text then
        pageStats
      else
        match intHex text with
        | none => pageStats
        | some va =>
            let page := va / 4096 * 4096
            pageStats.upsert (hex page)
              (fun stats => (stats.getD PageStats.zero).addSample sample)

/-- How two values of a counter are combined. -/
def Counter.join : Counter → Nat → Nat → Nat
  | .latTotMax => max
  | _ => (· + ·)

instance (key : Counter) : Std.Associative key.join where
  assoc := by
    intro a b c
    cases key <;> simp [Counter.join, Nat.add_assoc, Nat.max_assoc]

instance (key : Counter) : Std.Commutative key.join where
  comm := by
    intro a b
    cases key <;> simp [Counter.join, Nat.add_comm, Nat.max_comm]

instance (key : Counter) : Std.LawfulIdentity key.join 0 where
  left_id := by
    intro a
    cases key <;> simp [Counter.join]
  right_id := by
    intro a
    cases key <;> simp [Counter.join]

namespace PageStats

/-- Counters of the same page put together, as if its samples were counted in one place. -/
def combine (left right : PageStats) : PageStats := fun key => key.join (left key) (right key)

instance : Std.Associative combine where
  assoc := by
    intro a b c
    funext key
    simp only [combine]
    exact Std.Associative.assoc _ _ _

instance : Std.Commutative combine where
  comm := by
    intro a b
    funext key
    simp only [combine]
    exact Std.Commutative.comm _ _

instance : Std.LawfulIdentity combine zero where
  left_id := by
    intro a
    funext key
    simp only [combine]
    exact Std.LawfulLeftIdentity.left_id _
  right_id := by
    intro a
    funext key
    simp only [combine]
    exact Std.LawfulRightIdentity.right_id _

end PageStats

/-- What one sample adds to the counters of its page. -/
def Sample.contribution (sample : Sample) : PageStats
  | .accessCount => 1
  | .latTotSum => sample.latTot.getD 0
  | .latTotMax => sample.latTot.getD 0
  | .latIssueSum => sample.latIssue.getD 0
  | .latXlatSum => sample.latXlat.getD 0
  | .lat9eSum => sample.lat9e.getD 0
  | .lat9eCount => sample.lat9e.isSome.toNat
  | .llcRefillCount => sample.llcRefill.toNat
  | .llcAccessCount => sample.llcAccess.toNat
  | .tlbRefillCount => sample.tlbRefill.toNat
  | .ldCount => sample.isLoad.toNat
  | .stCount => sample.isStore.toNat
  | .sveCount => sample.isSve.toNat

theorem PageStats.bumpFlag_apply (stats : PageStats) (key other : Counter) (flag : Bool)
    : stats.bumpFlag key flag other
      = if other = key then stats key + flag.toNat else stats other := by
  cases flag with
  | false =>
      by_cases same : other = key <;> simp [bumpFlag, same]
  | true => simp [bumpFlag, bump, Function.update_apply]

theorem PageStats.bumpField_apply (stats : PageStats) (key other : Counter)
    (field : Option Nat)
    : stats.bumpField key field other
      = if other = key then stats key + field.getD 0 else stats other := by
  cases field with
  | none =>
      by_cases same : other = key <;> simp [bumpField, same]
  | some value => simp [bumpField, bump, Function.update_apply]

/-- `_flush_sample` combines the counters with the sample's contribution, counter by
counter.
-/
theorem PageStats.addSample_eq (stats : PageStats) (sample : Sample)
    : stats.addSample sample = stats.combine sample.contribution := by
  funext key
  cases tot : sample.latTot <;> cases lat9e : sample.lat9e <;> cases key
    <;> simp [addSample, tot, lat9e, bumpFlag_apply, bumpField_apply, bump, combine,
      Counter.join, Sample.contribution]

end Kumf.Spe
