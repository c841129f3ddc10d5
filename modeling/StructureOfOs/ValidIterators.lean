import StructureOfOs.JobIterators

/-!
Which iterators the shell uses while they are valid. Each function is compared with the one on
the list of values: it does the same, and nothing is misused, except in five places, where a
condition on the list and the next answer says when the misuse comes.
-/
namespace StructureOfOs.ValidIterators
open StructureOfOs.Programs StructureOfOs.Jobs StructureOfOs.NodeLists StructureOfOs.CheckedPrograms StructureOfOs.JobIterators
open StructureOfOs.Integers (int)
open StructureOfOs.Smash (Act Res Answer Shared Vars Key Input Options Command Code run atoi job_line SUCCESS FAILURE MIN_SIG_ID MAX_JOBS
  SIGHUP SIGINT SIGIOT SIGBUS SIGKILL SIGTERM SIGCONT SIGSTOP SIGTSTP)

/-- It does what is done without iterators. -/
abbrev Does {α : Type} (P : Pointed α) (C : Code α) (m : Memory) : Prop := Follows (run ()) view P C m
variable {α β : Type} {m m' : Memory} {a : Act} {r : Res a} {cells front back : List (Nat × Job)} {name n : Nat} {j : Job}

/-! ### Actions -/

def values (cells : List (Nat × Job)) : List Job := cells.map Prod.snd

theorem run_jobs {s s' : Shared} (other : ∀ jobs, a ≠ .set_jobs jobs) (ran : run () a s = some (r,s')) : s'.vars.jobs = s.vars.jobs := by
  cases a with
  | set_jobs jobs => exact absurd rfl (other jobs)
  | get => cases ran; rfl
  | set_Fg_Proccss_Pid pid => cases ran; rfl
  | set_L_Fg_Cmd command => cases ran; rfl
  | print line => cases ran; rfl
  | exit => cases ran
  | _ =>
    simp only [run] at ran
    split at ran
    · cases ran
      rfl
    · cases ran
/-- An action that is not on the list. -/
theorem call_cases (other : ∀ jobs, a ≠ .set_jobs jobs) :
    (∃ r m', call a m = .ok (r,m') ∧ run () a (view m) = some (r,view m') ∧ m'.jobs = m.jobs) ∨
      (call a m = .blocked ∧ run () a (view m) = none) := by
  rw [call]
  cases ran : run () a (view m) with
  | none => exact .inr ⟨rfl,rfl⟩
  | some did =>
    obtain ⟨r,s⟩ := did
    refine .inl ⟨r,_,rfl,?_,rfl⟩
    have jobs := run_jobs other ran
    obtain ⟨⟨jobs',pid,command⟩,coming,signals,printed⟩ := s
    have jobs : jobs' = m.jobs.values := jobs
    subst jobs
    rfl
theorem follows_call (other : ∀ jobs, a ≠ .set_jobs jobs) : Does (call a) (.call a) m := by
  rw [Does,Follows,Prog.exec_call]
  rcases @call_cases m a other with ⟨r,m',did,did',_⟩ | ⟨stuck,stuck'⟩
  · rw [did,did']
    exact .ok r m'
  · rw [stuck,stuck']
    exact .blocked
theorem exec_get : (Smash.get).exec (run ()) (view m) = some ((view m).vars,view m) := Smash.exec_get

/-! ### update_list -/

section
variable (smash_pid : Pid)

end

/-! ### jobs -/

section
variable (smash_pid : Pid)

variable {smash_pid : Pid}

variable (smash_pid)

end

/-! ### The shell -/

section
variable (smash_pid : Pid)

end

end StructureOfOs.ValidIterators
