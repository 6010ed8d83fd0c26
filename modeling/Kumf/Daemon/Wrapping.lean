import Kumf.Daemon.SavedProfiles

/-! `wrap` asks for a configuration under the command itself. The JSON text of the command
travels in a message that is split at colons.
-/

namespace Kumf.Daemon

open Kumf.Library PyText PyStr

/-- The `cmd_hash` of `profile`. -/
def commandHash (hash : List Char → List Char) (cmd : List PyStr) : List Char :=
  hash (utf8 (jsonList cmd))

/-- The request of `wrap`. -/
def wrapMessage (cmd : List PyStr) : List Char := "WRAP:".toList ++ jsonList cmd

/-- What the daemon takes for the command: the JSON text up to a colon. -/
def commandPart (cmd : List PyStr) : List Char := (jsonList cmd).takeWhile (· ≠ ':')

-----------------------------------------------------------------------------------------
-- The message and its parts
-----------------------------------------------------------------------------------------

theorem received_utf8 {text : List Char} (fits : (utf8 text).length ≤ 4096)
    : received (utf8 text) = text := by
  rw [received, List.take_of_length_le fits, decodeUtf8_utf8]

theorem wrap_parts (cmd : List PyStr)
    : splitLimit ':' 2 (wrapMessage cmd) = "WRAP".toList :: splitLimit ':' 1 (jsonList cmd) := by
  have word : ':' ∉ "WRAP".toList := by decide
  exact splitLimit_cons word 1 (jsonList cmd)

theorem wrap_command (cmd : List PyStr)
    : (splitLimit ':' 2 (wrapMessage cmd))[1]? = some (commandPart cmd) := by
  rw [wrap_parts, List.getElem?_cons_succ, ← List.head?_eq_getElem?]
  exact splitLimit_head ':' 0 (jsonList cmd)

/-- Without a colon in its arguments, the command arrives whole. -/
theorem commandPart_eq {cmd : List PyStr} (plain : ∀ arg ∈ cmd, ∀ c ∈ arg, c.val ≠ 0x3a)
    : commandPart cmd = jsonList cmd := by
  have absent : ':' ∉ jsonList cmd := by
    intro member
    obtain ⟨arg, inCmd, c, inArg, colon⟩ := colon_jsonList.mp member
    exact plain arg inCmd c inArg colon
  refine List.takeWhile_eq_self_iff.mpr (fun c member => decide_eq_true ?_)
  exact fun same => absent (same ▸ member)

-----------------------------------------------------------------------------------------
-- The environment of the answer
-----------------------------------------------------------------------------------------

theorem Env.get?_set (env : Env) (key other value : List Char)
    : (env.set key value).get? other = if key = other then some value else env.get? other :=
  Dict.get?_upsert env key other (fun _ => value)

theorem Env.merge_set (env : Env) (key value : List Char)
    : Env.merge env (Env.set .empty key value) = env.set key value :=
  rfl

section
variable {File : Type} (host : Host File) (hash : List Char → List Char) (links : Links File)
  {daemon : KumfDaemon}

/-- `KUMF_CONF` is the stored configuration of the command that was read, if there is one. -/
theorem wrapReply_conf (config : daemon.optimalConfig = getOptimalConfig daemon.topology)
    {parts : List (List Char)} {command : List Char} (read : parts[1]? = some command)
    : (wrapReply host hash links daemon parts).get? "KUMF_CONF".toList
      = if host.finds links (profileConf (hash (utf8 command))) then
          some (host.inStateDir (profileConf (hash (utf8 command))))
        else
          none := by
  have daemonKey : ¬ "KUMF_DAEMON".toList = "KUMF_CONF".toList := by decide
  have nodesKey : ¬ "KUMF_NODES".toList = "KUMF_CONF".toList := by decide
  have preloadKey : ¬ "LD_PRELOAD".toList = "KUMF_CONF".toList := by decide
  have start : (Env.merge (Env.set .empty "LD_PRELOAD".toList daemon.intercSo)
      daemon.optimalConfig).get? "KUMF_CONF".toList = none := by
    rw [config, getOptimalConfig, Env.merge_set, Env.get?_set, if_neg nodesKey, Env.get?_set,
      if_neg preloadKey, Dict.get?_empty]
  rw [wrapReply, read]
  dsimp only
  rw [Env.get?_set, if_neg daemonKey]
  split
  · rw [Env.get?_set, if_pos rfl]
  · exact start

theorem handleMessage_wrap (now : List Char) (cmd : List PyStr)
    : handleMessage host hash links now daemon (wrapMessage cmd)
      = some (daemon, .env (wrapReply host hash links daemon
          (splitLimit ':' 2 (wrapMessage cmd)))) := by
  have word : ((splitLimit ':' 2 (wrapMessage cmd)).head?.getD []) = "WRAP".toList := by
    rw [wrap_parts]
    rfl
  unfold handleMessage
  dsimp only
  rw [word]
  rfl

end

/-- A stored profile is found exactly when the command has no colon, or the hash cannot tell
the cut command from the whole one. Witness: the part of the message that is hashed.
-/
theorem wrap_finds_profile {File : Type} (host : Host File) (hash : List Char → List Char)
    (links : Links File) (cmd : List PyStr) (call : SaveCall) (later : List SaveCall)
    (now : List Char) (daemon : KumfDaemon)
    (config : daemon.optimalConfig = getOptimalConfig daemon.topology)
    (hashed : call.cmdHash = commandHash hash cmd)
    (fits : (utf8 (wrapMessage cmd)).length ≤ 4096)
    (stored : host.finds (later.foldl (savedLinks host hash) (savedLinks host hash links call))
      (profileConf call.cmdHash) = true)
    : (∃ env,
        handleMessage host hash
            (later.foldl (savedLinks host hash) (savedLinks host hash links call)) now daemon
            (received (utf8 (wrapMessage cmd)))
          = some (daemon, .env env)
        ∧ env.get? "KUMF_CONF".toList = some (host.inStateDir (profileConf call.cmdHash)))
      ↔ (∀ arg ∈ cmd, ∀ c ∈ arg, c.val ≠ 0x3a)
        ∨ hash (utf8 (commandPart cmd)) = hash (utf8 (jsonList cmd)) := by
  rw [hashed, commandHash] at stored ⊢
  rw [received_utf8 fits, handleMessage_wrap]
  have answer := wrapReply_conf host hash
    (later.foldl (savedLinks host hash) (savedLinks host hash links call)) config
    (wrap_command cmd)
  constructor
  · rintro ⟨env, same, found⟩
    cases same
    rw [answer] at found
    split at found
    · refine .inr (profileConf_injective ?_)
      exact (List.cons.inj (List.append_cancel_left (Option.some.inj found))).2
    · cases found
  · intro condition
    have same : hash (utf8 (commandPart cmd)) = hash (utf8 (jsonList cmd)) := by
      rcases condition with plain | same
      · rw [commandPart_eq plain]
      · exact same
    refine ⟨_, rfl, ?_⟩
    rw [answer, same, if_pos stored]

/-- The first digits of the MD5 of the texts below. -/
def benchHash (bytes : List Char) : List Char :=
  if bytes = "[\"run\", \"a:b\"]".toList then "555cfd5c".toList
  else if bytes = "[\"run\", \"a".toList then "97c95c55".toList
  else "85ee08ab".toList

/-- The profile of a command, with its configuration in the directory of a user. -/
def saveCommand (cmd : List PyStr) : SaveCall where
  cwd := "/home/user".toList
  confPath := "/home/user/out/kumf.conf".toList
  cmdHash := commandHash benchHash cmd
  exePath := none
  profileLinkable := true
  lookupLinkable := true

def bench : List PyStr := [ofText "./bench".toList]

def colonCommand : List PyStr := [ofText "run".toList, ofText "a:b".toList]

theorem wrap_finds_profile_bench
    : ∃ env,
        handleMessage homeHost benchHash
            (savedLinks homeHost benchHash (fun _ => none) (saveCommand bench))
            [] appDaemon (received (utf8 (wrapMessage bench)))
          = some (appDaemon, .env env)
        ∧ env.get? "KUMF_CONF".toList
          = some (homeHost.inStateDir (profileConf (commandHash benchHash bench))) := by
  have plain : ∀ arg ∈ bench, ∀ c ∈ arg, c.val ≠ 0x3a := by
    intro arg member c inArg colon
    rw [List.mem_singleton.mp member] at inArg
    obtain ⟨d, inText, same⟩ := List.mem_map.mp inArg
    have value : d = ':' := Char.toNat_inj.mp ((congrArg Fin.val same).trans colon)
    exact absurd (value ▸ inText) (by decide)
  exact (wrap_finds_profile homeHost benchHash (fun _ => none) bench (saveCommand bench) [] []
    appDaemon rfl rfl (by decide) (by decide +kernel)).mpr (.inl plain)

/-- The argument `a:b` is cut at its colon, and its profile is not found. -/
theorem colon_not_found
    : let links := savedLinks homeHost benchHash (fun _ => none) (saveCommand colonCommand)
      homeHost.finds links (profileConf (commandHash benchHash colonCommand)) = true
      ∧ (utf8 (wrapMessage colonCommand)).length ≤ 4096
      ∧ ∃ env,
        handleMessage homeHost benchHash links [] appDaemon
            (received (utf8 (wrapMessage colonCommand)))
          = some (appDaemon, .env env)
        ∧ env.get? "KUMF_CONF".toList = none := by
  have fits : (utf8 (wrapMessage colonCommand)).length ≤ 4096 := by decide
  intro links
  refine ⟨by decide +kernel, fits, wrapReply homeHost benchHash links appDaemon
    (splitLimit ':' 2 (wrapMessage colonCommand)), ?_, ?_⟩
  · rw [received_utf8 fits, handleMessage_wrap]
  · rw [wrapReply_conf homeHost benchHash _ rfl (wrap_command colonCommand)]
    exact if_neg (by decide +kernel)

end Kumf.Daemon
