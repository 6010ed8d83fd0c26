import Kumf.Spe.PacScores
import Mathlib.Algebra.Order.Field.Rat
import Mathlib.Tactic.Linarith
import Mathlib.Tactic.NormNum

/-! The tiers of `detect_knee` in exact arithmetic: the hot and the warm threshold cover their
share of the accesses, and from three pages on no higher threshold at a page would.
-/

namespace Kumf.Spe

open Kumf.Library

/-- The accesses of the pages with a PAC from the bound on. -/
def accessFrom (pacScores : PacScores ℚ) (bound : ℚ) : Nat :=
  weightWhere PageScore.accessCount (fun page => decide (bound ≤ page.pac)) pacScores.values

/-- The accesses of the pages with a PAC above the bound. -/
def accessAbove (pacScores : PacScores ℚ) (bound : ℚ) : Nat :=
  weightWhere PageScore.accessCount (fun page => decide (bound < page.pac)) pacScores.values

theorem accessFrom_sorted (pacScores : PacScores ℚ) (bound : ℚ)
    : accessFrom pacScores bound = weightWhere PageScore.accessCount
        (fun page => decide (bound ≤ page.pac)) (sortedPages pacScores) :=
  (weightWhere_perm PageScore.accessCount (sortedPages_perm pacScores)).symm

theorem accessAbove_sorted (pacScores : PacScores ℚ) (bound : ℚ)
    : accessAbove pacScores bound = weightWhere PageScore.accessCount
        (fun page => decide (bound < page.pac)) (sortedPages pacScores) :=
  (weightWhere_perm PageScore.accessCount (sortedPages_perm pacScores)).symm

theorem totalAccess_sorted (pacScores : PacScores ℚ)
    : totalAccess (sortedPages pacScores) = totalAccess pacScores.values :=
  ((sortedPages_perm pacScores).map PageScore.accessCount).sum_eq

/-- The pages stand in descending order of their PAC. -/
theorem sortedPages_falling (pacScores : PacScores ℚ)
    : (sortedPages pacScores).Pairwise (fun x y => y.pac ≤ x.pac) := by
  have comparable := comparable_rat (pacScores.values.map PageScore.pac)
  exact comparable.pairwise_sorted.imp
    (fun ordered => not_lt.mp (of_decide_eq_false ordered))

theorem accessFrom_low (pacScores : PacScores ℚ) {bound : ℚ}
    (low : ∀ page ∈ pacScores.values, bound ≤ page.pac)
    : accessFrom pacScores bound = totalAccess pacScores.values := by
  have all : pacScores.values.filter (fun page => decide (bound ≤ page.pac))
      = pacScores.values :=
    List.filter_eq_self.mpr (fun page member => decide_eq_true (low page member))
  rw [accessFrom, weightWhere, all, totalAccess]

theorem reachesShare_iff {pages : List (PageScore ℚ)} {share : ℚ} {cumulative : Nat}
    : reachesShare pages share cumulative = true ↔ share * totalAccess pages ≤ cumulative := by
  simp [reachesShare, PyReal.reaches, PyReal.mul, PyFloat.ofNat, mul_comm]

/-- The search for a share ends at a page. -/
theorem shareIndex_found {pages : List (PageScore ℚ)} (share : ℚ) (atMost : share ≤ 1)
    (accessed : 0 < totalAccess pages)
    : cutAfter (reachesShare pages share) 0 (pages.map PageScore.accessCount)
      = some (shareIndex pages share) := by
  have nonempty : pages.map PageScore.accessCount ≠ [] := by
    intro empty
    simp [totalAccess, empty] at accessed
  have all : reachesShare pages share (0 + (pages.map PageScore.accessCount).sum) = true := by
    rw [reachesShare_iff, Nat.zero_add]
    exact mul_le_of_le_one_left (Nat.cast_nonneg _) atMost
  obtain ⟨cut, found⟩ := cutAfter_isSome nonempty all
  rw [found, shareIndex, found, Option.getD_some]

/-- A larger share ends at a later index. -/
theorem shareIndex_mono {pages : List (PageScore ℚ)} (low high : ℚ) (order : low ≤ high)
    (atMost : high ≤ 1) (accessed : 0 < totalAccess pages)
    : shareIndex pages low ≤ shareIndex pages high := by
  have harder (n : Nat) (enough : reachesShare pages high n = true)
      : reachesShare pages low n = true := by
    rw [reachesShare_iff] at enough ⊢
    exact (mul_le_mul_of_nonneg_right order (Nat.cast_nonneg _)).trans enough
  exact cutAfter_le harder (shareIndex_found low (order.trans atMost) accessed)
    (shareIndex_found high atMost accessed)

/-- The page at which the accesses reach a share: up to it they do, before it they do not. -/
theorem shareIndex_spec {pages : List (PageScore ℚ)} {share : ℚ} (positive : 0 < share)
    (atMost : share ≤ 1) (accessed : 0 < totalAccess pages)
    : ∃ position,
        shareIndex pages share = position + 1
        ∧ ∃ inside : position < pages.length,
          pacBefore pages (position + 1) = pages[position].pac
          ∧ share * totalAccess pages ≤ totalAccess (pages.take (position + 1))
          ∧ (totalAccess (pages.take position) : ℚ) < share * totalAccess pages := by
  obtain ⟨first, bound, enough, before⟩ :=
    cutAfter_some (shareIndex_found share atMost accessed)
  obtain ⟨position, index⟩ := Nat.exists_eq_succ_of_ne_zero first.ne'
  rw [index, List.length_map] at bound
  rw [index, reachesShare_iff, ← List.map_take, Nat.zero_add] at enough
  have clamped : min position (pages.length - 1) = position := by omega
  have inside : position < pages.length := bound
  refine ⟨position, index, inside, ?_, enough, ?_⟩
  · simp [pacBefore, clamped, inside]
  · rcases Nat.eq_zero_or_pos position with rfl | later
    · simpa [totalAccess] using mul_pos positive (Nat.cast_pos.mpr accessed)
    · have short := before (by omega)
      rw [index, ← Bool.not_eq_true, reachesShare_iff, ← List.map_take, Nat.zero_add,
        not_le] at short
      exact short

/-- The threshold of a share covers it, and the pages above the threshold do not. -/
theorem pacBefore_covers {pacScores : PacScores ℚ} (share : ℚ) (positive : 0 < share)
    (atMost : share ≤ 1) (accessed : 0 < totalAccess pacScores.values)
    : let bound := pacBefore (sortedPages pacScores) (shareIndex (sortedPages pacScores) share)
      share * totalAccess pacScores.values ≤ accessFrom pacScores bound
      ∧ accessAbove pacScores bound < share * totalAccess pacScores.values := by
  rw [← totalAccess_sorted] at accessed
  obtain ⟨position, index, inside, pac, reached, short⟩ :=
    shareIndex_spec positive atMost accessed
  dsimp only
  rw [index, accessFrom_sorted, accessAbove_sorted, ← totalAccess_sorted]
  have falling := sortedPages_falling pacScores
  have low := weight_take_le PageScore.accessCount falling inside pac.symm
  have high := weightWhere_lt_le PageScore.accessCount falling inside pac.symm
  exact ⟨reached.trans (by exact_mod_cast low),
    lt_of_le_of_lt (by exact_mod_cast high) short⟩

/-- No page has a PAC below the last one. -/
theorem last_le {pages : List (PageScore ℚ)}
    (falling : pages.Pairwise (fun x y => y.pac ≤ x.pac))
    {last : Nat} (inside : last < pages.length) (final : pages.length ≤ last + 1)
    {page : PageScore ℚ} (member : page ∈ pages)
    : pages[last].pac ≤ page.pac := by
  obtain ⟨index, bound, rfl⟩ := List.mem_iff_getElem.mp member
  rcases Nat.lt_or_ge index last with before | after
  · exact List.pairwise_iff_getElem.mp falling index last bound inside before
  · have same : index = last := by omega
    subst same
    exact le_rfl

/-- For fewer than three pages the thresholds derive from the last page. -/
theorem detectKnee_few {pacScores : PacScores ℚ} (nonempty : sortedPages pacScores ≠ [])
    (few : (sortedPages pacScores).length < 3)
    : ∃ page ∈ sortedPages pacScores,
        (∀ other ∈ sortedPages pacScores, page.pac ≤ other.pac)
        ∧ detectKnee pacScores = ⟨page.pac, page.pac * (5 / 10), page.pac * (25 / 100)⟩ := by
  have filled : 0 < (sortedPages pacScores).length := List.length_pos_iff.mpr nonempty
  have inside : (sortedPages pacScores).length / 2 < (sortedPages pacScores).length := by omega
  refine ⟨(sortedPages pacScores)[(sortedPages pacScores).length / 2],
    List.getElem_mem inside,
    fun other member => last_le (sortedPages_falling pacScores) inside (by omega) member, ?_⟩
  have middle : ((sortedPages pacScores)[(sortedPages pacScores).length / 2]?.map
        PageScore.pac).getD (PyFloat.ofNat 0)
      = (sortedPages pacScores)[(sortedPages pacScores).length / 2].pac := by
    simp [List.getElem?_eq_getElem inside]
  unfold detectKnee
  dsimp only
  rw [if_neg nonempty, if_pos few, middle]
  norm_num [PyReal.mul, PyFloat.decimal]

/-- From three pages on the thresholds are those of the shares. -/
theorem detectKnee_many {pacScores : PacScores ℚ} (many : 3 ≤ (sortedPages pacScores).length)
    : detectKnee pacScores
      = ⟨pacBefore (sortedPages pacScores) (shareIndex (sortedPages pacScores) (8 / 10)),
          pacBefore (sortedPages pacScores) (shareIndex (sortedPages pacScores) (95 / 100)),
          pacBefore (sortedPages pacScores) (sortedPages pacScores).length⟩ := by
  have nonempty : sortedPages pacScores ≠ [] := by
    intro empty
    simp [empty] at many
  unfold detectKnee
  dsimp only
  rw [if_neg nonempty, if_neg (by omega)]
  norm_num [PyFloat.decimal]

/-- The PAC does not rise from one index to a later one. -/
theorem pacBefore_antitone {pages : List (PageScore ℚ)}
    (falling : pages.Pairwise (fun x y => y.pac ≤ x.pac)) (nonempty : pages ≠ [])
    {early late : Nat} (order : early ≤ late)
    : pacBefore pages late ≤ pacBefore pages early := by
  have filled : 0 < pages.length := List.length_pos_iff.mpr nonempty
  have at_index (index : Nat)
      : ∃ inside : min (index - 1) (pages.length - 1) < pages.length,
          pacBefore pages index = pages[min (index - 1) (pages.length - 1)].pac := by
    have inside : min (index - 1) (pages.length - 1) < pages.length := by omega
    exact ⟨inside, by simp only [pacBefore, List.getElem?_eq_getElem inside, Option.map_some,
      Option.getD_some]⟩
  obtain ⟨insideEarly, pacEarly⟩ := at_index early
  obtain ⟨insideLate, pacLate⟩ := at_index late
  rw [pacEarly, pacLate]
  rcases Nat.lt_or_ge (min (early - 1) (pages.length - 1)) (min (late - 1) (pages.length - 1))
    with before | after
  · exact List.pairwise_iff_getElem.mp falling _ _ insideEarly insideLate before
  · have same : min (early - 1) (pages.length - 1) = min (late - 1) (pages.length - 1) := by
      omega
    simp only [same, le_refl]

/-- Pages with accesses have accesses in all. -/
theorem totalAccess_pos {pacScores : PacScores ℚ} (nonempty : pacScores.values ≠ [])
    (counts : ∀ page ∈ pacScores.values, 0 < page.accessCount)
    : 0 < totalAccess pacScores.values := by
  obtain ⟨page, rest, same⟩ := List.exists_cons_of_ne_nil nonempty
  have first := counts page (by simp [same])
  rw [same, totalAccess, List.map_cons, List.sum_cons]
  omega

/-- A threshold below all pages covers every share. -/
theorem covers_low {pacScores : PacScores ℚ} {bound share : ℚ} (atMost : share ≤ 1)
    (low : ∀ page ∈ pacScores.values, bound ≤ page.pac)
    : share * totalAccess pacScores.values ≤ accessFrom pacScores bound := by
  rw [accessFrom_low pacScores low]
  exact mul_le_of_le_one_left (Nat.cast_nonneg _) atMost

/-- The thresholds of `detect_knee` fall from hot to cold, the pages from the hot threshold on
carry 80 % of the accesses and those from the warm threshold on 95 %. From three pages on the
pages strictly above a threshold carry less.
-/
theorem detectKnee_tiers (pacScores : PacScores ℚ) (nonempty : pacScores.values ≠ [])
    (pacs : ∀ page ∈ pacScores.values, 0 ≤ page.pac)
    (counts : ∀ page ∈ pacScores.values, 0 < page.accessCount)
    : (detectKnee pacScores).warm ≤ (detectKnee pacScores).hot
      ∧ (detectKnee pacScores).cold ≤ (detectKnee pacScores).warm
      ∧ 8 / 10 * (totalAccess pacScores.values : ℚ)
        ≤ accessFrom pacScores (detectKnee pacScores).hot
      ∧ 95 / 100 * (totalAccess pacScores.values : ℚ)
        ≤ accessFrom pacScores (detectKnee pacScores).warm
      ∧ (3 ≤ pacScores.values.length
        → (accessAbove pacScores (detectKnee pacScores).hot : ℚ)
            < 8 / 10 * totalAccess pacScores.values
          ∧ (accessAbove pacScores (detectKnee pacScores).warm : ℚ)
            < 95 / 100 * totalAccess pacScores.values) := by
  have same := sortedPages_perm pacScores
  have accessed := totalAccess_pos nonempty counts
  have sortedNonempty : sortedPages pacScores ≠ [] := by
    intro empty
    rw [empty] at same
    exact nonempty same.nil_eq.symm
  rw [← same.length_eq]
  rcases Nat.lt_or_ge (sortedPages pacScores).length 3 with few | many
  · obtain ⟨last, member, low, knee⟩ := detectKnee_few sortedNonempty few
    have nonneg := pacs last (same.mem_iff.mp member)
    have below (page : PageScore ℚ) (found : page ∈ pacScores.values) : last.pac ≤ page.pac :=
      low page (same.mem_iff.mpr found)
    rw [knee]
    refine ⟨by dsimp only; linarith, by dsimp only; linarith,
      covers_low (by norm_num) below, covers_low (by norm_num) ?_, fun many => by omega⟩
    intro page found
    have bound := below page found
    dsimp only
    linarith
  · have hot := pacBefore_covers (8 / 10) (by norm_num) (by norm_num) accessed
    have warm := pacBefore_covers (95 / 100) (by norm_num) (by norm_num) accessed
    rw [← totalAccess_sorted] at accessed
    have falling := sortedPages_falling pacScores
    have order := shareIndex_mono (8 / 10) (95 / 100) (by norm_num)
      (by norm_num) accessed
    have bound := (cutAfter_some (shareIndex_found (95 / 100) (by norm_num)
      accessed)).2.1
    rw [List.length_map] at bound
    rw [detectKnee_many many]
    exact ⟨pacBefore_antitone falling sortedNonempty order,
      pacBefore_antitone falling sortedNonempty bound, hot.1, warm.1, fun _ =>
        ⟨hot.2, warm.2⟩⟩

/-- Three pages with 900, 60 and 40 accesses. -/
def threePages : PacScores ℚ where
  entries := [("0x1000".toList, 60, 30), ("0x2000".toList, 900, 200), ("0x3000".toList, 40, 10)].map
    (fun entry : List Char × Nat × ℚ => (entry.1, {
      page := entry.1
      accessCount := entry.2.1
      avgLatTot := .int 0
      maxLatTot := 0
      latTotSum := 0
      pac := entry.2.2
      llcRefillPct := .int 0
      svePct := .int 0
      ldStRatio := "0:0".toList }))
  nodup := by decide

theorem detectKnee_tiers_threePages
    : (detectKnee threePages).warm ≤ (detectKnee threePages).hot
      ∧ 8 / 10 * (1000 : ℚ) ≤ accessFrom threePages (detectKnee threePages).hot
      ∧ (accessAbove threePages (detectKnee threePages).hot : ℚ) < 8 / 10 * 1000 := by
  have pacs : ∀ page ∈ threePages.values, 0 ≤ page.pac := by
    simp [threePages, PacScores.values]
  have counts : ∀ page ∈ threePages.values, 0 < page.accessCount := by
    simp [threePages, PacScores.values]
  obtain ⟨ordered, -, covered, -, minimal⟩ :=
    detectKnee_tiers threePages (List.cons_ne_nil _ _) pacs counts
  exact ⟨ordered, covered, (minimal le_rfl).1⟩

end Kumf.Spe
