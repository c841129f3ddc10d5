import StructureOfOs.ShellLedger

/-!
The process that ctrl-C and ctrl-Z reach. The handlers signal `Fg_Proccss_Pid` unless it
is the shell's own. It is right in the waits for a command and for an fg with an id; an
fg without an id sets it only after its wait, and nothing but ctrl-Z's handler ever
resets it, so that a child that ends on its own stays in the variable.
-/
namespace StructureOfOs.Foreground
open StructureOfOs.Programs StructureOfOs.Programs.Prog StructureOfOs.Recordings StructureOfOs.Jobs StructureOfOs.Smash
open StructureOfOs.ShellLedger

/-- The signal that a key's handler sends. -/
def signal_of : Key → Int
  | .ctrl_c => SIGKILL
  | .ctrl_z => SIGSTOP
/-- A key's handler, run by itself to its end from any state with these variables, has called `kill`
    for this process and for no other. -/
def Hits (smash_pid : Pid) (vars : Vars) (pid : Pid) : Prop :=
  ∀ key s s', s.vars = vars → (handle smash_pid key).exec (run ()) s = some ((),s') →
    ∃ succeeds, s.coming.head? = some (.killed succeeds) ∧
      s'.signals = s.signals ++ if succeeds then [(pid,signal_of key)] else []
/-- A key's handler has made no system call. -/
def Misses (smash_pid : Pid) (vars : Vars) : Prop :=
  ∀ key s s', s.vars = vars → (handle smash_pid key).exec (run ()) s = some ((),s') → s'.signals = s.signals ∧ s'.coming = s.coming
/-- In the wait for a process the keys reach this process, and at the prompt none. -/
def KeysReach (smash_pid : Pid) (c : Config) : Prop :=
  (∀ p, (c.thread ()).prog.action = some (.blocked p) → c.shared.vars.Fg_Proccss_Pid = p ∧ Hits smash_pid c.shared.vars p) ∧
    (AtPrompt c → c.shared.vars.Fg_Proccss_Pid = smash_pid ∧ Misses smash_pid c.shared.vars)

variable {smash_pid : Pid} {s s' : Shared} {vars : Vars} {α β : Type}

/-! ### The handlers -/

/-- The program sends no signal. -/
def Quiet (p : Code α) : Prop := ∀ s value s', p.exec (run ()) s = some (value,s') → s'.signals = s.signals

theorem quiet_return (value : α) : Quiet (return value) := by
  rintro s _ s' ⟨⟩
  rfl
theorem quiet_then {p : Code α} {f : α → Code β} (first : Quiet p) (rest : ∀ value, Quiet (f value)) : Quiet (p >>= f) := by
  intro s value s' ran
  rw [exec_bind] at ran
  obtain ⟨⟨middle,u⟩,did,last⟩ := Option.bind_eq_some_iff.mp ran
  exact (rest middle u value s' last).trans (first s middle u did)
theorem quiet_call {a : Act} (quiet : ∀ pid sig, a ≠ .kill pid sig) : Quiet (.call a) := by
  intro s value s' ran
  rw [exec_call] at ran
  rw [(run_effect ran).signals]
  cases a with
  | kill pid sig => exact absurd rfl (quiet pid sig)
  | _ => exact List.append_nil _

theorem quiet_update_from (kept rest : List Job) : Quiet (update_from kept rest) := by
  induction rest generalizing kept with
  | nil => exact quiet_return ()
  | cons j rest ih =>
    refine quiet_then (quiet_call (by simp)) fun r => ?_
    split
    · exact quiet_then (quiet_call (by simp)) fun _ => ih kept
    · exact ih _
theorem quiet_update_list : Quiet update_list := quiet_then (quiet_call (by simp)) fun vars => quiet_update_from [] vars.jobs
theorem quiet_push_back (j : Job) : Quiet (push_back j) := quiet_then (quiet_call (by simp)) fun _ => quiet_call (by simp)

/-- A handler's kill, and what follows it. -/
theorem hits_of_kill {u : Shared} {pid : Pid} {sig : Int} {f : Bool → Code Unit} (ran : (kill pid sig >>= f).exec (run ()) u = some ((),s'))
    (coming : u.coming = s.coming) (signals : u.signals = s.signals) (quiet : ∀ succeeds, Quiet (f succeeds)) :
    ∃ succeeds, s.coming.head? = some (.killed succeeds) ∧ s'.signals = s.signals ++ if succeeds then [(pid,sig)] else [] := by
  rw [exec_bind,exec_kill] at ran
  obtain ⟨⟨succeeds,v⟩,killed,rest⟩ := Option.bind_eq_some_iff.mp ran
  have later := quiet succeeds v () s' rest
  simp only [run] at killed
  split at killed
  · rename_i first
    cases killed
    refine ⟨succeeds,by rw [← coming,first]; rfl,?_⟩
    rw [later,← signals]
    cases succeeds <;> simp
  · cases killed
theorem handle_hits (away : vars.Fg_Proccss_Pid ≠ smash_pid) : Hits smash_pid vars vars.Fg_Proccss_Pid := by
  rintro key s s' rfl ran
  have quiet_print : ∀ line, Quiet (print line) := fun line => quiet_call (by simp)
  cases key with
  | ctrl_c =>
    rw [handle,ctrl_c_hanlder,exec_bind,exec_print,Option.bind_some,exec_bind,exec_get,Option.bind_some,
      if_pos ⟨by decide,away⟩] at ran
    refine hits_of_kill ran rfl rfl fun succeeds => ?_
    split
    · exact quiet_print _
    · exact quiet_print _
  | ctrl_z =>
    rw [handle,ctrl_z_hanlder,exec_bind,exec_print,Option.bind_some,exec_bind,exec_get,Option.bind_some,
      if_pos ⟨by decide,away⟩] at ran
    refine hits_of_kill ran rfl rfl fun succeeds => ?_
    split
    · refine quiet_then (quiet_print _) fun _ => quiet_then (quiet_call (by simp)) fun now => ?_
      exact quiet_then quiet_update_list fun _ => quiet_then (quiet_push_back _) fun _ => quiet_call (by simp)
    · exact quiet_print _
theorem handle_misses (front : vars.Fg_Proccss_Pid = smash_pid) : Misses smash_pid vars := by
  rintro key s s' rfl ran
  cases key with
  | ctrl_c =>
    rw [handle,ctrl_c_hanlder,exec_bind,exec_print,Option.bind_some,exec_bind,exec_get,Option.bind_some,
      if_neg fun both => both.2 front] at ran
    cases ran
    exact ⟨rfl,rfl⟩
  | ctrl_z =>
    rw [handle,ctrl_z_hanlder,exec_bind,exec_print,Option.bind_some,exec_bind,exec_get,Option.bind_some,
      if_neg fun both => both.2 front] at ran
    cases ran
    exact ⟨rfl,rfl⟩

/-! ### Every run -/

/-- In a tidy run, where no fg without an id resumes a job and every wait ends because ctrl-Z has
    stopped the process, the keys reach the process that the shell waits for, and at the prompt none. -/
theorem keys_reach_foreground (smash_pid : Pid) (lives : Children) (coming : List Answer)
    (c : Programs.Config Unit (Shared × Ledger) Act Res Unit) (apart : smash_pid ∉ forks coming)
    (recorded : Recorded smash_pid lives coming c) (tidy : c.shared.2.tidy = true) : KeysReach smash_pid (forget c) := by
  obtain ⟨prompt,waits⟩ := recorded_home recorded
  refine ⟨fun p blocked => ?_,fun at_prompt => ?_⟩
  · obtain ⟨fg,other⟩ := waits p blocked
    have same : c.shared.1.vars.Fg_Proccss_Pid = p := fg tidy
    have hits : Hits smash_pid c.shared.1.vars c.shared.1.vars.Fg_Proccss_Pid := handle_hits (same ▸ other apart)
    exact ⟨same,same ▸ hits⟩
  · have front := (prompt at_prompt).1 tidy
    exact ⟨front,handle_misses front⟩

/-- A command that ctrl-Z stops, then fg with its id. -/
def resuming : List Answer :=
  [.typed (.line (.external "cat" false)),.forked (some 7),.pressed [.ctrl_z],.killed true,.now 0,.waited 7,
    .typed (.line (.fg ["1"])),.waited 0,.killed true]
theorem resuming_waits : (recorded_after 1 (fun _ _ => true) resuming 27).isSome = true := by decide
theorem keys_reach_foreground_resuming :
    KeysReach 1 (forget ((recorded_after 1 (fun _ _ => true) resuming 27).get resuming_waits)) :=
  keys_reach_foreground 1 _ resuming _ (by decide) (recorded_of_after resuming_waits) (by decide)

/-- A job in the background, and fg without an id: the shell waits for 7, and is itself in front. -/
def lone_fg : List Answer :=
  [.typed (.line (.external "sleep 9" true)),.forked (some 7),.now 0,.typed (.line (.fg [])),.waited 0,.freed "sleep 9",.killed true]
theorem lone_fg_waits : (after 1 lone_fg 18).isSome = true := by decide
/-- A command that ends on its own: it is still in front at the prompt. -/
def ending : List Answer := [.typed (.line (.external "cat" false)),.forked (some 7),.pressed [],.waited 7]
theorem ending_returns : (after 1 ending 8).isSome = true := by decide

theorem keys_miss_foreground : ¬ (∀ smash_pid coming c, smash_pid ∉ forks coming → Reachable smash_pid coming c →
      ∀ p, (c.thread ()).prog.action = some (.blocked p) → c.shared.vars.Fg_Proccss_Pid = p ∧ Hits smash_pid c.shared.vars p) ∧
    ¬ ∀ smash_pid coming c, smash_pid ∉ forks coming → Reachable smash_pid coming c →
      AtPrompt c → c.shared.vars.Fg_Proccss_Pid = smash_pid ∧ Misses smash_pid c.shared.vars := by
  constructor
  · intro claimed
    have same := (claimed 1 lone_fg _ (by decide) (reachable_after 1 lone_fg_waits) 7 rfl).1
    exact absurd same (by decide)
  · intro claimed
    have same := (claimed 1 ending _ (by decide) (reachable_after 1 ending_returns) (.inl rfl)).1
    exact absurd same (by decide)

end StructureOfOs.Foreground
