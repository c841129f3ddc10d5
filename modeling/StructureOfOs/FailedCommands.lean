import StructureOfOs.Smash

/-!
Job commands that fail. kill and bg change the list after `kill` has succeeded; both
ways of fg take the job out of it before, and do not put it back when `kill` fails.
-/
namespace StructureOfOs.FailedCommands
open StructureOfOs.Programs StructureOfOs.Programs.Prog StructureOfOs.Jobs StructureOfOs.Smash

/-- When the program, run from the state, returns FAILURE, the variables are as before. -/
def FailsClean (p : Code Nat) (s : Shared) : Prop := ∀ s', p.exec (run ()) s = some (FAILURE,s') → s'.vars = s.vars
def JobCommand : Command → Prop
  | .kill _ => True
  | .fg _ => True
  | .bg _ => True
  | _ => False
/-- The arguments of fg name a job of the list: none the last one, or one argument its id. -/
def NamesJob (jobs : List Job) : List String → Prop
  | [] => jobs ≠ []
  | [id] => ∃ j ∈ jobs, j.job_id = atoi id
  | _ => False
/-- The command is an fg that names a job. -/
def Takes (jobs : List Job) : Command → Prop
  | .fg args => NamesJob jobs args
  | _ => False
/-- With these answers the command's `kill` fails. An fg without an id reads the text of its job first. -/
def KillFails : Command → List Answer → Prop
  | .fg [],coming => ∃ text later, coming = .freed text :: .killed false :: later
  | _,coming => ∃ later, coming = .killed false :: later

variable {smash_pid : Pid} {s s' : Shared} {front back : List Job} {j : Job} {args : List String} {pid : Pid} {sig : Int}
variable {command : Command} {line : String} {succeeded failed : Code Nat}

/-! ### Programs that fail clean -/

/-- The program never returns FAILURE. -/
def Succeeds (p : Code Nat) : Prop := ∀ s s', p.exec (run ()) s ≠ some (FAILURE,s')
theorem succeeds_return : Succeeds (return SUCCESS) := by
  rintro s s' ⟨⟩
theorem succeeds_then {α : Type} {p : Code α} {f : α → Code Nat} (rest : ∀ r, Succeeds (f r)) : Succeeds (p >>= f) := by
  intro s s' ran
  rw [exec_bind] at ran
  obtain ⟨out,_,last⟩ := Option.bind_eq_some_iff.mp ran
  exact rest out.1 out.2 s' last

/-- A message, and FAILURE. -/
theorem refuses (line : String) (s : Shared) : FailsClean (do print line; return FAILURE) s := by
  intro s' ran
  rw [exec_bind,exec_print] at ran
  cases ran
  rfl
/-- `kill` decides between a way that succeeds and one that fails clean. -/
theorem kill_clean (success : Succeeds succeeded) (clean : ∀ s, FailsClean failed s) :
    FailsClean (do if ← kill pid sig then succeeded else failed) s := by
  intro s' ran
  rw [exec_bind,exec_kill] at ran
  obtain ⟨⟨succeeds,v⟩,killed,rest⟩ := Option.bind_eq_some_iff.mp ran
  have same : v.vars = s.vars := by
    simp only [run] at killed
    split at killed <;> cases killed
    rfl
  cases succeeds with
  | true => exact absurd rest (success v s')
  | false => exact (clean v s' rest).trans same
theorem get_iff {f : Vars → Code Nat} : FailsClean (Smash.get >>= f) s ↔ FailsClean (f s.vars) s := by
  simp only [FailsClean,exec_bind,exec_get,Option.bind_some]

theorem kill_command_clean (args : List String) (s : Shared) : FailsClean (kill_command args) s := by
  match args with
  | [] => exact refuses _ s
  | [_] => exact refuses _ s
  | _ :: _ :: _ :: _ => exact refuses _ s
  | [signal,id] =>
    simp only [kill_command]
    split
    · exact refuses _ s
    · refine get_iff.mpr ?_
      split
      · rename_i front j back found
        exact kill_clean (succeeds_then fun _ => succeeds_then fun _ => succeeds_return) (refuses _)
      · exact refuses _ s
theorem bg_resume_clean (front : List Job) (j : Job) (back : List Job) (s : Shared) : FailsClean (bg_resume front j back) s := by
  unfold bg_resume
  exact kill_clean (succeeds_then fun _ => succeeds_then fun _ => succeeds_return) (refuses _)
theorem bg_command_clean (args : List String) (s : Shared) : FailsClean (bg_command args) s := by
  refine get_iff.mpr ?_
  match args with
  | [] =>
    dsimp only
    split
    · exact bg_resume_clean _ _ _ s
    · exact refuses _ s
  | [id] =>
    dsimp only
    split
    · exact refuses _ s
    · split
      · split
        · exact bg_resume_clean _ _ _ s
        · exact refuses _ s
      · exact refuses _ s
  | _ :: _ :: _ => exact refuses _ s

/-! ### fg -/

/-- The list is changed first: the program fails clean only if `kill` does not fail. -/
theorem lost_iff {p : Code Nat} {v : Shared} (success : Succeeds succeeded)
    (comes : p.exec (run ()) s = (do if ← kill pid sig then succeeded else do print line; return FAILURE : Code Nat).exec (run ()) v)
    (changed : v.vars ≠ s.vars) : FailsClean p s ↔ ¬ ∃ later, v.coming = .killed false :: later := by
  constructor
  · rintro clean ⟨later,coming⟩
    have ran : p.exec (run ()) s = some (FAILURE,{ v with coming := later, printed := v.printed ++ [line] }) := by
      rw [comes]
      simp [exec_kill,exec_print,run,coming]
    have same_vars := clean _ ran
    exact changed same_vars
  · intro holds s' ran
    rw [comes,exec_bind,exec_kill] at ran
    obtain ⟨⟨succeeds,u⟩,killed,rest⟩ := Option.bind_eq_some_iff.mp ran
    cases succeeds with
    | true => exact absurd rest (success u s')
    | false => exact absurd ⟨u.coming,(run_effect killed).coming⟩ holds

theorem jobs_changed {jobs : List Job} (fewer : jobs.length ≠ s.vars.jobs.length) : { s.vars with jobs := jobs } ≠ s.vars := by
  intro same
  have jobs_same : jobs = s.vars.jobs := congrArg Vars.jobs same
  exact fewer (congrArg List.length jobs_same)
theorem fg_last_iff (all : s.vars.jobs = front ++ [j]) : FailsClean (fg_last smash_pid front j) s ↔ ¬ KillFails (.fg []) s.coming := by
  have shorter : { s.vars with jobs := front } ≠ s.vars := jobs_changed (by simp [all])
  by_cases reads : ∃ text later, s.coming = .freed text :: later
  · obtain ⟨text,later,coming⟩ := reads
    have comes : (fg_last smash_pid front j).exec (run ()) s = (do
        if ← kill j.process_id SIGCONT then do
          let _ ← waitpid_untraced smash_pid j.process_id
          let command ← .call (Act.freed j)
          .call (Act.set_L_Fg_Cmd command)
          .call (Act.set_Fg_Proccss_Pid j.process_id)
          return SUCCESS
        else do
          print "smash error: kill failed"
          return FAILURE : Code Nat).exec (run ()) { s with
            vars := { s.vars with jobs := front }
            coming := later
            printed := s.printed ++ [text ++ " : " ++ toString j.process_id] } := by
      have read : run () (.freed j) { s with vars := { s.vars with jobs := front } } =
          some (text,{ s with vars := { s.vars with jobs := front }, coming := later }) := by
        simp [run,coming]
      rw [fg_last,exec_bind,exec_set_jobs,Option.bind_some,exec_bind,exec_call,read,Option.bind_some,exec_bind,exec_print,Option.bind_some]
    refine (lost_iff ?_ comes shorter).trans (not_congr ?_)
    · exact succeeds_then fun _ => succeeds_then fun _ => succeeds_then fun _ => succeeds_then fun _ => succeeds_return
    · simp [KillFails,coming]
  · refine iff_of_true (fun s' ran => absurd ?_ reads) ?_
    · rw [fg_last,exec_bind,exec_set_jobs,Option.bind_some,exec_bind,exec_call] at ran
      obtain ⟨⟨text,u⟩,read,_⟩ := Option.bind_eq_some_iff.mp ran
      exact ⟨text,_,(run_effect read).coming⟩
    · rintro ⟨text,later,coming⟩
      exact reads ⟨text,_,coming⟩
theorem fg_found_iff (all : s.vars.jobs = front ++ j :: back) : FailsClean (fg_found smash_pid front j back) s ↔
    ¬ ∃ later, s.coming = .killed false :: later := by
  have comes : (fg_found smash_pid front j back).exec (run ()) s = (do
      if ← kill j.process_id SIGCONT then do
        .call (Act.set_L_Fg_Cmd j.command)
        .call (Act.set_Fg_Proccss_Pid j.process_id)
        let _ ← waitpid_untraced smash_pid j.process_id
        return SUCCESS
      else do
        print "smash error: kill failed"
        return FAILURE : Code Nat).exec (run ()) { s with
          vars := { s.vars with jobs := front ++ back }
          printed := s.printed ++ [j.command ++ " : " ++ toString j.process_id] } := by
    rw [fg_found,exec_bind,exec_print,Option.bind_some,exec_bind,exec_set_jobs,Option.bind_some]
  have shorter : { s.vars with jobs := front ++ back } ≠ s.vars := jobs_changed (by simp [all])
  refine (lost_iff ?_ comes shorter).trans Iff.rfl
  exact succeeds_then fun _ => succeeds_then fun _ => succeeds_then fun _ => succeeds_return

theorem fg_command_iff (args : List String) :
    FailsClean (fg_command smash_pid args) s ↔ ¬ (NamesJob s.vars.jobs args ∧ KillFails (.fg args) s.coming) := by
  rw [fg_command,get_iff]
  cases last : s.vars.jobs.getLast? with
  | none =>
    have empty : s.vars.jobs = [] := List.getLast?_eq_none_iff.mp last
    refine iff_of_true (refuses _ s) ?_
    rw [empty]
    match args with
    | [] => simp [NamesJob]
    | [_] => simp [NamesJob]
    | _ :: _ :: _ => simp [NamesJob]
  | some j =>
    have all : s.vars.jobs = s.vars.jobs.dropLast ++ [j] := (List.dropLast_append_getLast? j last).symm
    match args with
    | [] =>
      have any : s.vars.jobs ≠ [] := by
        rw [all]
        simp
      simpa [NamesJob,any] using fg_last_iff all
    | [id] =>
      dsimp only
      split
      · rename_i front k back found
        obtain ⟨split_,named⟩ := find_id_some found
        have names : NamesJob s.vars.jobs [id] := ⟨k,by simp [split_],named⟩
        simpa [names,KillFails] using fg_found_iff split_
      · rename_i missing
        refine iff_of_true (refuses _ s) (fun both => ?_)
        obtain ⟨k,among,named⟩ := both.1
        exact find_id_none missing k among named
    | _ :: _ :: _ => exact iff_of_true (refuses _ s) (by simp [NamesJob])

/-- Every fg, bg or kill that fails leaves the variables as they were, except for an fg that
    has named a job and whose `kill` fails. -/
theorem failing_commands_iff (smash_pid : Pid) (command : Command) (job_command : JobCommand command) (s : Shared) :
    FailsClean (ExeCmd smash_pid command) s ↔ ¬ (Takes s.vars.jobs command ∧ KillFails command s.coming) := by
  cases command with
  | jobs => exact job_command.elim
  | external => exact job_command.elim
  | quit => exact job_command.elim
  | other => exact job_command.elim
  | kill args => exact iff_of_true (kill_command_clean args s) (by simp [Takes])
  | bg args => exact iff_of_true (bg_command_clean args s) (by simp [Takes])
  | fg args => exact fg_command_iff args

/-- One job, running in the background, and a `kill` that fails. -/
def one_job : Vars := ⟨[⟨1,"cat &",7,0,BACKGROUND_STATE⟩],1,""⟩
theorem fg_loses_job : ¬ ∀ smash_pid command, JobCommand command → ∀ s, FailsClean (ExeCmd smash_pid command) s := by
  intro claimed
  have clean := claimed 1 (.fg []) trivial ⟨one_job,[.freed "cat &",.killed false],[],[]⟩
  exact (fg_command_iff []).mp clean ⟨by simp [NamesJob,one_job],_,_,rfl⟩

theorem failing_commands_iff_kill : FailsClean (ExeCmd 1 (.kill ["-9","1"])) ⟨one_job,[.killed false],[],[]⟩ :=
  (failing_commands_iff 1 (.kill ["-9","1"]) trivial _).mpr (by simp [Takes])

end StructureOfOs.FailedCommands
