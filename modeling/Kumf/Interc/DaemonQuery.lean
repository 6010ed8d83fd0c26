import Kumf.Interc.Rules

/-! The messages of interc to the daemon, and `query_daemon_for_config`: what it makes of the
answer to a `LOOKUP`.
-/

namespace Kumf.Interc

open Kumf.Library

/-- `KUMF_SOCK_PATH` -/
def kumfSockPath : List Char := "/tmp/kumf_daemon.sock".toList

/-- What `strncpy` leaves in `sun_path` of a socket address. -/
def sunPath (path : List Char) : List Char := path.take 107

/-- The message of `query_daemon_for_config` in a process that runs `exe`. Its path is read
into 256 bytes.
-/
def lookupMessage (pid : Nat) (exe : List Char) : List Char :=
  let exePath := cString (exe.take 255)
  snprintf 512 ("LOOKUP:".toList ++ Nat.toDigits 10 pid ++ ':' :: exePath)

/-- The message of `connect_daemon`. -/
def regMessage (pid numAffinityNodes : Nat) : List Char :=
  snprintf 128 ("REG:".toList ++ Nat.toDigits 10 pid ++ ':' :: Nat.toDigits 10 numAffinityNodes)

/-- The message of `disconnect_daemon`. -/
def deregMessage (pid : Nat) : List Char := snprintf 64 ("DEREG:".toList ++ Nat.toDigits 10 pid)

/-- The variables of the environment that the query sets. -/
structure KumfEnv where
  nodes : Option (List Char)
  conf : Option (List Char)
  deriving DecidableEq, Repr

/-- What `query_daemon_for_config` makes of the answer that `recvfrom` wrote over a stale
buffer; `none` is passive mode.
-/
def applyReply (stale : List Char) (env : KumfEnv) (reply : List Char) : Option KumfEnv :=
  let chunk := reply.take 1023
  -- the comparison runs before the text is terminated
  if chunk = [] ∨ strncmpEq (chunk ++ stale.drop chunk.length) "NOCONFIG".toList 8 = true then
    none
  else
    let nodesStart := cString ((fgetsStore stale chunk).drop 7)
    let nodes := nodesStart.takeWhile (· ≠ ':')
    match nodesStart.drop nodes.length with
    | [] => none
    | _ :: confPath =>
        let env :=
          if 0 < nodes.length ∧ nodes.length < 64 then { env with nodes := some nodes } else env
        some (if confPath ≠ [] then { env with conf := some confPath } else env)

-----------------------------------------------------------------------------------------
-- Every message fits its buffer
-----------------------------------------------------------------------------------------

theorem length_toDigits {n : Nat} (small : n < 2 ^ 31) : (Nat.toDigits 10 n).length ≤ 10 :=
  (Nat.length_toDigits_le_iff (by omega) (by omega)).mpr (by omega)

/-- The executable arrives in the message up to its 255th byte. -/
theorem lookupMessage_eq {pid : Nat} {exe : List Char} (small : pid < 2 ^ 31)
    (plain : nul ∉ exe)
    : lookupMessage pid exe
      = "LOOKUP:".toList ++ Nat.toDigits 10 pid ++ ':' :: exe.take 255 := by
  have same : cString (exe.take 255) = exe.take 255 :=
    cString_eq (fun member => plain (List.mem_of_mem_take member))
  have digits := length_toDigits small
  have cut := List.length_take_le 255 exe
  rw [lookupMessage, same]
  refine snprintf_eq ?_
  rw [List.length_append, List.length_append, List.length_cons]
  change 7 + _ + _ < 512
  omega

theorem regMessage_eq {pid numAffinityNodes : Nat} (small : pid < 2 ^ 31)
    (few : numAffinityNodes < 2 ^ 31)
    : regMessage pid numAffinityNodes
      = "REG:".toList ++ Nat.toDigits 10 pid ++ ':' :: Nat.toDigits 10 numAffinityNodes := by
  have digits := length_toDigits small
  have count := length_toDigits few
  refine snprintf_eq ?_
  rw [List.length_append, List.length_append, List.length_cons]
  change 4 + _ + _ < 128
  omega

theorem deregMessage_eq {pid : Nat} (small : pid < 2 ^ 31)
    : deregMessage pid = "DEREG:".toList ++ Nat.toDigits 10 pid := by
  have digits := length_toDigits small
  refine snprintf_eq ?_
  rw [List.length_append]
  change 6 + _ < 64
  omega

-----------------------------------------------------------------------------------------
-- An answer with a configuration
-----------------------------------------------------------------------------------------

/-- The path is always applied, and the nodes only where they fit their buffer. -/
theorem applyReply_config {stale nodes confPath : List Char} {env : KumfEnv}
    (noColon : ':' ∉ nodes) (plainNodes : nul ∉ nodes) (plainPath : nul ∉ confPath)
    (present : confPath ≠ [])
    (fits : ("CONFIG:".toList ++ nodes ++ ':' :: confPath).length ≤ 1023)
    : applyReply stale env ("CONFIG:".toList ++ nodes ++ ':' :: confPath)
      = some {
        nodes := if 0 < nodes.length ∧ nodes.length < 64 then some nodes else env.nodes
        conf := some confPath } := by
  generalize line : "CONFIG:".toList ++ nodes ++ ':' :: confPath = reply at fits
  have taken : reply.take 1023 = reply := List.take_of_length_le fits
  have nonempty : reply ≠ [] := by simp [← line]
  have other (rest : List Char) : strncmpEq (reply ++ rest) "NOCONFIG".toList 8 = false := by
    refine strncmpEq_of_ne 0 (by omega) ?_
    rw [← line]
    exact (by decide : some 'C' ≠ some 'N')
  have start : cString ((fgetsStore stale reply).drop 7) = nodes ++ ':' :: confPath := by
    have front : 7 ≤ reply.length := by simp [← line]
    have colon : nul ≠ ':' := by decide
    rw [cString_drop_fgetsStore stale front, ← line]
    refine cString_eq (fun member => ?_)
    rcases List.mem_append.mp member with inNodes | inRest
    · exact plainNodes inNodes
    · rcases List.mem_cons.mp inRest with same | inPath
      · exact colon same
      · exact plainPath inPath
  have before : (nodes ++ ':' :: confPath).takeWhile (· ≠ ':') = nodes := by
    refine takeWhile_token (fun c member => ?_) (by simp)
    exact decide_eq_true (fun same => noColon (same ▸ member))
  rw [applyReply, taken]
  dsimp only
  have goes : ¬ (reply = [] ∨ strncmpEq (reply ++ stale.drop reply.length)
      "NOCONFIG".toList 8 = true) := by
    rw [other]
    exact fun stops => stops.elim nonempty Bool.false_ne_true
  rw [if_neg goes, start, before, List.drop_left]
  dsimp only
  rw [if_pos present]
  split <;> rfl

end Kumf.Interc
