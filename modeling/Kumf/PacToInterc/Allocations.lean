import Kumf.Library.Dict
import Kumf.Library.PyFloat

/-! Scored pages, the allocations of a profiling log, and `cross_correlate`, which gives each
allocation the score of the pages that it covers.
-/

namespace Kumf.PacToInterc

open Kumf.Library PyText

inductive Tier where
  | hot
  | warm
  | cold
  deriving DecidableEq, Repr

/-- What `load_page_pac` reads of a page and `cross_correlate` looks at. -/
structure ScoredPage (F : Type) where
  pageAddr : Nat
  accessCount : Nat
  pac : F
  tier : Tier

/-- An entry of `load_prof_log`. The log is split at blanks, and sizes are those of `size_t`
values.
-/
structure ProfAllocation where
  callerSym : List Char
  callerAddr : Nat
  timestamp : Int
  size : Nat
  addr : Nat
  entryType : Int
  word : ∀ c ∈ callerSym, isSpace c = false
  fits : size < 2 ^ 64

/-- A correlated allocation. Small ones are left out. -/
structure AllocPac (F : Type) where
  callerSym : List Char
  callerAddr : Nat
  size : Nat
  addr : Nat
  totalPac : F
  avgPac : F
  totalAccess : Nat
  hotPages : Nat
  coldPages : Nat
  totalPages : Nat
  hotRatio : F
  tier : Tier
  word : ∀ c ∈ callerSym, isSpace c = false
  large : 4096 ≤ size
  fits : size < 2 ^ 64

/-- The counters of the loop over the pages of an allocation. -/
structure PageTally (F : Type) where
  totalPac : F
  totalAccess : Nat := 0
  hotPages : Nat := 0
  coldPages : Nat := 0
  totalPages : Nat := 0

variable {F : Type} [PyFloat F]

/-- `page_pac`: the last page of an address counts. -/
def pagePac (pages : List (ScoredPage F)) : Dict Nat (ScoredPage F) :=
  pages.foldl (fun index page => index.upsert page.pageAddr (fun _ => page)) .empty

/-- The addresses of `range(addr_start, addr_end, 0x1000)`. -/
def coveredPages (addr size : Nat) : List Nat :=
  let addrStart := addr / 4096 * 4096
  let addrEnd := (addr + size + 0xfff) / 4096 * 4096
  List.range' addrStart ((addrEnd - addrStart) / 4096) 4096

/-- The body of the loop over the pages of an allocation. -/
def PageTally.step (index : Dict Nat (ScoredPage F)) (tally : PageTally F) (pageAddr : Nat)
    : PageTally F :=
  let tally := { tally with totalPages := tally.totalPages + 1 }
  match index.get? pageAddr with
  | none => tally
  | some page =>
      { tally with
        totalPac := PyFloat.add tally.totalPac page.pac
        totalAccess := tally.totalAccess + page.accessCount
        hotPages := if page.tier = .hot then tally.hotPages + 1 else tally.hotPages
        coldPages := if page.tier = .cold then tally.coldPages + 1 else tally.coldPages }

def tallyPages (index : Dict Nat (ScoredPage F)) (addr size : Nat) : PageTally F :=
  (coveredPages addr size).foldl (PageTally.step index) { totalPac := PyFloat.ofNat 0 }

/-- The tier of an allocation by its share of hot pages. -/
def tierOf (hotRatio : F) : Tier :=
  if PyFloat.less (PyFloat.decimal 7 1) hotRatio then .hot
  else if PyFloat.less hotRatio (PyFloat.decimal 3 1) then .cold
  else .warm

/-- The loop body of `cross_correlate`: the entry for an allocation, unless it is skipped. -/
def correlate (index : Dict Nat (ScoredPage F)) (alloc : ProfAllocation)
    : Option (AllocPac F) :=
  if alloc.entryType = 0 then
    none
  else if large : 4096 ≤ alloc.size then
    let tally := tallyPages index alloc.addr alloc.size
    if tally.totalPages = 0 then
      none
    else
      let hotRatio : F := PyFloat.quotient tally.hotPages tally.totalPages
      some {
        callerSym := alloc.callerSym
        callerAddr := alloc.callerAddr
        size := alloc.size
        addr := alloc.addr
        totalPac := tally.totalPac
        avgPac := PyFloat.divide tally.totalPac tally.totalPages
        totalAccess := tally.totalAccess
        hotPages := tally.hotPages
        coldPages := tally.coldPages
        totalPages := tally.totalPages
        hotRatio
        tier := tierOf hotRatio
        word := alloc.word
        large
        fits := alloc.fits }
  else
    none

/-- `cross_correlate` -/
def crossCorrelate (pages : List (ScoredPage F)) (allocations : List ProfAllocation)
    : List (AllocPac F) :=
  allocations.filterMap (correlate (pagePac pages))

end Kumf.PacToInterc
