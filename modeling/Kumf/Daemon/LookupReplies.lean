import Kumf.Daemon.Messages
import Kumf.Interc.DaemonQuery

/-! The answer to a `LOOKUP`, built from the node list and decoded by the library. Its buffer
for the nodes is shorter than the one for the whole answer.
-/

namespace Kumf.Daemon

open Kumf.Library PyText
open Kumf.Interc (applyReply applyReply_config)

-----------------------------------------------------------------------------------------
-- The text of a node list
-----------------------------------------------------------------------------------------

theorem mem_nodesText {nodes : List Int} {c : Char} (member : c ∈ nodesText nodes)
    : isDigitOf 10 c = true ∨ c = '-' ∨ c = ',' := by
  by_cases comma : c = ','
  · exact .inr (.inr comma)
  · obtain ⟨text, inTexts, inText⟩ := (mem_intercalate (by simpa using comma)).mp member
    obtain ⟨n, -, rfl⟩ := List.mem_map.mp inTexts
    exact (mem_str inText).imp_right .inl

theorem nodesText_ne_nil {nodes : List Int} (some_ : nodes ≠ []) : nodesText nodes ≠ [] := by
  cases nodes with
  | nil => exact absurd rfl some_
  | cons n nodes =>
      have first : str n ≠ [] := str_ne_nil n
      cases nodes with
      | nil => simpa [nodesText] using first
      | cons next nodes => simp [nodesText, List.intercalate, first]

theorem ascii_nodesText (nodes : List Int) : Ascii (nodesText nodes) := by
  intro c member
  rcases mem_nodesText member with digit | rfl | rfl
  · have range := isDigitOf_ten_iff.mp digit
    omega
  · decide
  · decide

/-- The answer in bytes. -/
theorem utf8_configLine (nodes : List Int) (lookupPath : Path)
    : utf8 (configLine nodes lookupPath)
      = "CONFIG:".toList ++ nodesText nodes ++ ':' :: utf8 lookupPath := by
  have word : Ascii "CONFIG:".toList := by simp [Ascii]
  have colon : Ascii [':'] := by simp [Ascii]
  have rest : utf8 (':' :: lookupPath) = ':' :: utf8 lookupPath := by
    rw [← List.singleton_append, utf8_append, utf8_ascii colon, List.singleton_append]
  unfold configLine
  rw [utf8_append, utf8_ascii (word.append (ascii_nodesText nodes)), rest]

/-- An answer that fits is decoded into both of its parts exactly when the node list fits its
own buffer.
-/
theorem applyReply_lookup_iff (stale : List Char) (nodes : List Int) (lookupPath : Path)
    (present : lookupPath ≠ []) (plain : nul ∉ lookupPath)
    (fits : (utf8 (configLine nodes lookupPath)).length ≤ 1023)
    : applyReply stale ⟨none, none⟩ (utf8 (configLine nodes lookupPath))
        = some {
          nodes := if nodes = [] then none else some (nodesText nodes)
          conf := some (utf8 lookupPath) }
      ↔ (nodesText nodes).length < 64 := by
  have noColon : ':' ∉ nodesText nodes := by
    intro member
    rcases mem_nodesText member with digit | minus | comma
    · exact absurd digit (by decide)
    · exact absurd minus (by decide)
    · exact absurd comma (by decide)
  have plainNodes : nul ∉ nodesText nodes := by
    intro member
    rcases mem_nodesText member with digit | minus | comma
    · exact absurd digit (by decide)
    · exact absurd minus (by decide)
    · exact absurd comma (by decide)
  have plainPath : nul ∉ utf8 lookupPath :=
    fun member => plain (mem_of_mem_utf8 (by decide) member)
  have bytes : utf8 lookupPath ≠ [] := by
    intro empty
    exact present (utf8_injective (empty.trans rfl))
  rw [utf8_configLine] at fits ⊢
  rw [applyReply_config noColon plainNodes plainPath bytes fits, Option.some_inj,
    Interc.KumfEnv.mk.injEq]
  by_cases empty : nodes = []
  · simp [empty, nodesText]
  · have positive : 0 < (nodesText nodes).length :=
      List.length_pos_iff.mpr (nodesText_ne_nil empty)
    simp [empty, positive]

def appConf : Path := "/tmp/kumf_daemon/lookup_26d35b61.conf".toList

theorem applyReply_lookup_fourNodes
    : applyReply [] ⟨none, none⟩ (utf8 (configLine [0, 1, 2, 3] appConf))
      = some { nodes := some (nodesText [0, 1, 2, 3]), conf := some (utf8 appConf) } :=
  (applyReply_lookup_iff [] [0, 1, 2, 3] appConf (by decide) (by decide) (by decide)).mpr
    (by decide)

/-- A machine with many nodes gets the configuration without its nodes. -/
theorem manyNodes_halfApplied
    : let nodes := (List.range 32).map Int.ofNat
      (utf8 (configLine nodes appConf)).length ≤ 1023
      ∧ applyReply [] ⟨none, none⟩ (utf8 (configLine nodes appConf))
        = some { nodes := none, conf := some (utf8 appConf) } := by
  decide +kernel

end Kumf.Daemon
