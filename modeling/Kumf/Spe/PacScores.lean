import Kumf.Library.Dict
import Kumf.Library.PrefixCut
import Kumf.Library.PyReal

/-! Scored pages in the order of their PAC, and `detect_knee`, which cuts them into tiers by
the share of the accesses.
-/

namespace Kumf.Spe

open Kumf.Library PyText

/-- An entry of `pac_scores`. -/
structure PageScore (F : Type) where
  page : List Char
  accessCount : Nat
  avgLatTot : Number F
  maxLatTot : Nat
  latTotSum : Nat
  pac : F
  llcRefillPct : Number F
  svePct : Number F
  ldStRatio : List Char
  deriving DecidableEq, Repr

/-- `pac_scores`, under the hexadecimal address of the page. -/
abbrev PacScores (F : Type) := Dict (List Char) (PageScore F)

def PacScores.values {F : Type} (pacScores : PacScores F) : List (PageScore F) :=
  pacScores.entries.map Prod.snd

variable {F : Type} [PyReal F]

/-- `sorted(pac_scores.values(), key=lambda x: x['pac'], reverse=True)`, a stable sort. -/
def sortedPages (pacScores : PacScores F) : List (PageScore F) :=
  pacScores.values.insertionSort (fun x y => PyFloat.less x.pac y.pac = false)

/-- `sum(p['access_count'] for p in pages)` -/
def totalAccess (pages : List (PageScore F)) : Nat := (pages.map PageScore.accessCount).sum

/-- `hot_threshold, warm_threshold, cold_threshold` -/
structure Thresholds (F : Type) where
  hot : F
  warm : F
  cold : F
  deriving DecidableEq, Repr

/-- `cumulative >= total_access * share` -/
def reachesShare (pages : List (PageScore F)) (share : F) (cumulative : Nat) : Bool :=
  PyReal.reaches cumulative (PyReal.mul (PyFloat.ofNat (totalAccess pages)) share)

/-- The index behind the page at which the accesses reach a share of all of them. -/
def shareIndex (pages : List (PageScore F)) (share : F) : Nat :=
  (cutAfter (reachesShare pages share) 0 (pages.map PageScore.accessCount)).getD pages.length

/-- The PAC at the last page before an index. -/
def pacBefore (pages : List (PageScore F)) (index : Nat) : F :=
  (pages[min (index - 1) (pages.length - 1)]?.map PageScore.pac).getD (PyFloat.ofNat 0)

/-- `detect_knee` -/
def detectKnee (pacScores : PacScores F) : Thresholds F :=
  let pages := sortedPages pacScores
  if pages = [] then
    ⟨PyFloat.decimal 5 1, PyFloat.decimal 5 1, PyFloat.decimal 5 1⟩
  else if pages.length < 3 then
    let mid := (pages[pages.length / 2]?.map PageScore.pac).getD (PyFloat.ofNat 0)
    ⟨mid, PyReal.mul mid (PyFloat.decimal 5 1), PyReal.mul mid (PyFloat.decimal 25 2)⟩
  else
    ⟨pacBefore pages (shareIndex pages (PyFloat.decimal 8 1)),
      pacBefore pages (shareIndex pages (PyFloat.decimal 95 2)),
      pacBefore pages pages.length⟩

theorem sortedPages_perm (pacScores : PacScores F)
    : (sortedPages pacScores).Perm pacScores.values :=
  List.perm_insertionSort _ _

end Kumf.Spe
