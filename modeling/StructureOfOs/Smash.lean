import StructureOfOs.Integers
import StructureOfOs.Jobs
import StructureOfOs.Programs

/-!
The shell: commands.cpp, signals.cpp and the loop of smash.cpp, as far as they work on
jobs. A command is what the line says after it has been cut into its words. The
environment's answers (what is typed, which system calls succeed, what waitpid and fork
return, which keys are pressed while the shell waits or is busy) are a list in the state,
so a fact about every such list is one about every behaviour of the children and the user.
Of an entry that has just been erased the code still reads the pid, which is taken to be
there, and the text, whose memory has been given back: what it finds is an answer too.
-/
namespace StructureOfOs.Smash
open StructureOfOs.Programs StructureOfOs.Jobs
open StructureOfOs.Streams (bytes)
open StructureOfOs.Integers (int double)

def SUCCESS : Nat := 0
def FAILURE : Nat := 1
def MIN_SIG_ID : Int := 0
def MAX_JOBS : Nat := 100
def SIGHUP : Int := 1
def SIGINT : Int := 2
def SIGIOT : Int := 6
def SIGBUS : Int := 7
def SIGKILL : Int := 9
def SIGTERM : Int := 15
def SIGCONT : Int := 18
def SIGSTOP : Int := 19
def SIGTSTP : Int := 20

inductive Key
  | ctrl_c
  | ctrl_z
deriving DecidableEq, Repr
/-- A line as main's loop takes it. `other` is a command that leaves the jobs alone. -/
inductive Command
  | jobs
  | kill (args : List String)
  | fg (args : List String)
  | bg (args : List String)
  | quit (args : List String)
  | external (full_command : String) (in_bg : Bool)
  | other
deriving DecidableEq, Repr
inductive Input
  | key (key : Key)
  | line (command : Command)
deriving DecidableEq, Repr
inductive Options
  | WNOHANG
  | WUNTRACED
deriving DecidableEq, Repr

/-! ### The state and its actions -/

structure Vars where
  jobs : List Job
  Fg_Proccss_Pid : Pid
  L_Fg_Cmd : String
/-- What the environment answers. -/
inductive Answer
  | typed (input : Input)
  | pressed (keys : List Key)
  | killed (succeeds : Bool)
  | waited (r : Int)
  | forked (pid : Option Pid)
  | now (t : Int)
  | ticks (seconds : Int)
  | status (signaled : Bool)
  | freed (text : String)
deriving DecidableEq, Repr
/-- The answers that are to come, the signals sent so far, and the lines printed. -/
structure Shared where
  vars : Vars
  coming : List Answer
  signals : List (Pid × Int)
  printed : List String

/-- An assignment to a global variable, a system call, or a line on the screen. `blocked`
    is the wait in waitpid, which answers with the keys that are pressed meanwhile, and
    `input` the wait at the prompt; `busy` is the loop of quit kill, with the keys pressed until
    it ends. `signaled` is `WIFSIGNALED` of a status that waitpid may not have written, `freed` the
    text of a job that is no longer in the list, and after `exit` nothing runs. -/
inductive Act
  | get
  | set_jobs (jobs : List Job)
  | set_Fg_Proccss_Pid (pid : Pid)
  | set_L_Fg_Cmd (command : String)
  | input
  | blocked (pid : Pid)
  | kill (pid : Pid) (sig : Int)
  | waitpid (pid : Pid) (options : Options)
  | fork
  | time
  | clock
  | busy
  | signaled
  | freed (j : Job)
  | exit
  | print (line : String)
abbrev Res : Act → Type
  | .get => Vars
  | .set_jobs _ => Unit
  | .set_Fg_Proccss_Pid _ => Unit
  | .set_L_Fg_Cmd _ => Unit
  | .input => Input
  | .blocked _ => List Key
  | .kill _ _ => Bool
  | .waitpid _ _ => Int
  | .fork => Option Pid
  | .time => Int
  | .clock => Int
  | .busy => List Key
  | .signaled => Bool
  | .freed _ => String
  | .exit => Unit
  | .print _ => Unit
abbrev Code := Prog Act Res

def run : Unit → (a : Act) → Shared → Option (Res a × Shared)
  | _, .get, s => some (s.vars,s)
  | _, .set_jobs jobs, s => some ((),{ s with vars := { s.vars with jobs := jobs } })
  | _, .set_Fg_Proccss_Pid pid, s => some ((),{ s with vars := { s.vars with Fg_Proccss_Pid := pid } })
  | _, .set_L_Fg_Cmd command, s => some ((),{ s with vars := { s.vars with L_Fg_Cmd := command } })
  | _, .input, s =>
    match s.coming with
    | .typed input :: coming => some (input,{ s with coming := coming })
    | _ => none
  | _, .blocked _, s =>
    match s.coming with
    | .pressed keys :: coming => some (keys,{ s with coming := coming })
    | _ => none
  | _, .kill pid sig, s =>
    match s.coming with
    | .killed succeeds :: coming =>
      some (succeeds,{ s with coming := coming, signals := if succeeds then s.signals ++ [(pid,sig)] else s.signals })
    | _ => none
  | _, .waitpid _ _, s =>
    match s.coming with
    | .waited r :: coming => some (r,{ s with coming := coming })
    | _ => none
  | _, .fork, s =>
    match s.coming with
    | .forked pid :: coming => some (pid,{ s with coming := coming })
    | _ => none
  | _, .time, s =>
    match s.coming with
    | .now t :: coming => some (t,{ s with coming := coming })
    | _ => none
  | _, .clock, s =>
    match s.coming with
    | .ticks seconds :: coming => some (seconds,{ s with coming := coming })
    | _ => none
  | _, .signaled, s =>
    match s.coming with
    | .status signaled :: coming => some (signaled,{ s with coming := coming })
    | _ => none
  | _, .busy, s =>
    match s.coming with
    | .pressed keys :: coming => some (keys,{ s with coming := coming })
    | _ => none
  | _, .freed _, s =>
    match s.coming with
    | .freed text :: coming => some (text,{ s with coming := coming })
    | _ => none
  | _, .exit, _ => none
  | _, .print line, s => some ((),{ s with printed := s.printed ++ [line] })

def kill (pid : Pid) (sig : Int) : Code Bool := .call (Act.kill pid sig)
def print (line : String) : Code Unit := .call (Act.print line)
def set_jobs (jobs : List Job) : Code Unit := .call (Act.set_jobs jobs)
def get : Code Vars := .call Act.get

/-! ### What an action does -/

/-- The variables after an action. -/
def assign : Act → Vars → Vars
  | .set_jobs jobs, vars => { vars with jobs := jobs }
  | .set_Fg_Proccss_Pid pid, vars => { vars with Fg_Proccss_Pid := pid }
  | .set_L_Fg_Cmd command, vars => { vars with L_Fg_Cmd := command }
  | _, vars => vars
/-- The answers that it takes, one or none, and the signals that it sends. -/
def takes : (a : Act) → Res a → List Answer
  | .input, input => [.typed input]
  | .blocked _, keys | .busy, keys => [.pressed keys]
  | .kill _ _, succeeds => [.killed succeeds]
  | .waitpid _ _, r => [.waited r]
  | .fork, pid => [.forked pid]
  | .time, t => [.now t]
  | .clock, seconds => [.ticks seconds]
  | .signaled, signaled => [.status signaled]
  | .freed _, text => [.freed text]
  | _, _ => []
def sends : (a : Act) → Res a → List (Pid × Int)
  | .kill pid sig, true => [(pid,sig)]
  | _, _ => []
/-- The pids that fork is still to return. -/
def forks (coming : List Answer) : List Pid :=
  coming.filterMap fun
    | .forked pid => pid
    | _ => none

/-- What it shows on the screen. -/
def shows : Act → List String
  | .print line => [line]
  | _ => []
/-- What can be answered: the variables are known, and nothing comes after `exit`. -/
def Given (s : Shared) : (a : Act) → Res a → Prop
  | .get, r => r = s.vars
  | .exit, _ => False
  | _, _ => True

/-- An action has an effect on the variables, takes its answer, sends its signal, and shows its line. -/
structure Effect (s : Shared) (a : Act) (r : Res a) (s' : Shared) : Prop where
  given : Given s a r
  vars : s'.vars = assign a s.vars
  coming : s.coming = takes a r ++ s'.coming
  signals : s'.signals = s.signals ++ sends a r
  printed : s'.printed = s.printed ++ shows a

theorem run_effect {s s' : Shared} {a : Act} {r : Res a} (ran : run () a s = some (r,s')) : Effect s a r s' := by
  cases a with
  | get | set_jobs | set_Fg_Proccss_Pid | set_L_Fg_Cmd | print => cases ran; exact ⟨by trivial,rfl,rfl,by simp [sends],by simp [shows]⟩
  | exit => cases ran
  | kill pid sig =>
    simp only [run] at ran
    split at ran
    · rename_i first
      cases ran
      refine ⟨trivial,rfl,first,?_,by simp [shows]⟩
      cases r <;> simp [sends]
    · cases ran
  | _ =>
    simp only [run] at ran
    split at ran
    · rename_i first
      cases ran
      exact ⟨trivial,rfl,first,by simp [sends],by simp [shows]⟩
    · cases ran
/-- An action that gets its answer has its effect. -/
theorem run_given {s : Shared} {a : Act} {r : Res a} {later : List Answer} (given : Given s a r) (coming : s.coming = takes a r ++ later) :
    run () a s = some (r,⟨assign a s.vars,later,s.signals ++ sends a r,s.printed ++ shows a⟩) := by
  cases a with
  | get =>
    cases given
    obtain rfl : s.coming = later := coming
    simp [run,assign,sends,shows]
  | exit => exact given.elim
  | set_jobs | set_Fg_Proccss_Pid | set_L_Fg_Cmd | print =>
    obtain rfl : s.coming = later := coming
    simp [run,assign,sends,shows]
  | kill pid sig =>
    simp only [run,coming,takes,List.singleton_append]
    cases r <;> simp [assign,sends,shows]
  | _ => simp [run,coming,takes,assign,sends,shows]

section
open Prog
variable {s : Shared}

theorem exec_get : Smash.get.exec (run ()) s = some (s.vars,s) := exec_call _ _
theorem exec_print {line : String} : (print line).exec (run ()) s = some ((),{ s with printed := s.printed ++ [line] }) := exec_call _ _
theorem exec_set_jobs {jobs : List Job} :
    (set_jobs jobs).exec (run ()) s = some ((),{ s with vars := { s.vars with jobs := jobs } }) := exec_call _ _
theorem exec_kill {pid : Pid} {sig : Int} : (kill pid sig).exec (run ()) s = run () (.kill pid sig) s := exec_call _ _
end

def atoi (text : String) : Int := Integers.atoi (bytes text)

/-! ### update_list and the signal handlers -/

/-- `update_list` from an element on, with the elements it has passed. -/
def update_from (kept : List Job) : List Job → Code Unit
  | [] => return
  | j :: rest => do
    let r ← .call (Act.waitpid j.process_id .WNOHANG)
    if r ≠ 0 then
      set_jobs (kept ++ rest)
      update_from kept rest
    else
      update_from (kept ++ [j]) rest
def update_list : Code Unit := do
  let vars ← get
  update_from [] vars.jobs
def push_back (j : Job) : Code Unit := do
  let vars ← get
  set_jobs (vars.jobs ++ [j])

section
variable (smash_pid : Pid)

def ctrl_c_hanlder (signum : Int) : Code Unit := do
  print "smash: caught ctrl-C "
  let vars ← get
  if signum > 0 ∧ vars.Fg_Proccss_Pid ≠ smash_pid then
    if ← kill vars.Fg_Proccss_Pid SIGKILL then
      print ("smash: process " ++ toString vars.Fg_Proccss_Pid ++ " was killed")
    else
      print "smash error: kill failed"
  else
    return
def ctrl_z_hanlder (signum : Int) : Code Unit := do
  print "smash: caught ctrl-Z"
  let vars ← get
  if signum > 0 ∧ vars.Fg_Proccss_Pid ≠ smash_pid then
    if ← kill vars.Fg_Proccss_Pid SIGSTOP then
      print ("smash: process " ++ toString vars.Fg_Proccss_Pid ++ " was stopped")
      let new_job_id := last_id vars.jobs + 1
      let curr_time ← .call Act.time
      let new_job : Job := ⟨new_job_id,vars.L_Fg_Cmd,vars.Fg_Proccss_Pid,curr_time,STOP_STATE⟩
      update_list
      push_back new_job
      .call (Act.set_Fg_Proccss_Pid smash_pid)
    else
      print "smash error: kill failed"
  else
    return
/-- The handler that a key's signal runs. -/
def handle : Key → Code Unit
  | .ctrl_c => ctrl_c_hanlder smash_pid SIGINT
  | .ctrl_z => ctrl_z_hanlder smash_pid SIGTSTP
def handle_all : List Key → Code Unit
  | [] => return
  | key :: keys => do
    handle smash_pid key
    handle_all keys
/-- `waitpid` with `WUNTRACED`: the handlers of the keys run while it waits. -/
def waitpid_untraced (pid : Pid) : Code Int := do
  let keys ← .call (Act.blocked pid)
  handle_all smash_pid keys
  .call (Act.waitpid pid .WUNTRACED)

/-! ### The commands -/

/-- A line that the jobs command prints. -/
def job_line (now : Int) (j : Job) : String :=
  "[" ++ toString j.job_id ++ "] " ++ j.command ++ " : " ++ toString j.process_id ++ " " ++
    double (now - j.inserted_to_list_time) ++ " secs" ++ if j.state = STOP_STATE then " (stopped)" else ""
def print_jobs : List Job → Code Unit
  | [] => return
  | j :: jobs => do
    let now ← .call Act.time
    print (job_line now j)
    print_jobs jobs
def jobs_command : Code Nat := do
  let vars ← get
  if vars.jobs = [] then
    return SUCCESS
  else
    update_list
    let vars ← get
    print_jobs vars.jobs
    return SUCCESS

/-- The list after a signal has been sent to the job between its two parts. -/
def signalled (signum : Int) (front : List Job) (j : Job) (back : List Job) : List Job :=
  if signum = SIGTSTP ∨ signum = SIGSTOP ∨ signum = SIGIOT then front ++ { j with state := STOP_STATE } :: back
  else if signum = SIGKILL ∨ signum = SIGBUS ∨ signum = SIGHUP ∨ signum = SIGTERM ∨ signum = SIGINT then front ++ back
  else if signum = SIGCONT then front ++ { j with state := BACKGROUND_STATE } :: back
  else front ++ j :: back
/-- The message for an unknown id prints the id read through `jobs.end()`, where the size is. -/
def kill_command : List String → Code Nat
  | [signal,id] => do
    let signum := int (-1 * atoi signal)
    let job_id := atoi id
    if signum < MIN_SIG_ID ∨ job_id < 0 then
      print "smash error: kill: invalid arguments"
      return FAILURE
    else
      let vars ← get
      match find_id job_id vars.jobs with
      | some (front,j,back) =>
        if ← kill j.process_id signum then
          set_jobs (signalled signum front j back)
          print ("signal number " ++ toString signum ++ " was sent to pid " ++ toString j.process_id)
          return SUCCESS
        else
          print "smash error: kill failed"
          return FAILURE
      | none =>
        print ("smash error: kill: job-id " ++ toString vars.jobs.length ++ " does not exist")
        return FAILURE
  | _ => do
    print "smash error: kill: invalid arguments"
    return FAILURE

/-- Without an argument: the last job. It is read after `pop_back`, when its text may be anything
    (the other fields are read as they were), and the foreground variables are set after the wait. -/
def fg_last (front : List Job) (j : Job) : Code Nat := do
  set_jobs front
  let text ← .call (Act.freed j)
  print (text ++ " : " ++ toString j.process_id)
  if ← kill j.process_id SIGCONT then
    let _ ← waitpid_untraced smash_pid j.process_id
    let command ← .call (Act.freed j)
    .call (Act.set_L_Fg_Cmd command)
    .call (Act.set_Fg_Proccss_Pid j.process_id)
    return SUCCESS
  else
    print "smash error: kill failed"
    return FAILURE
/-- With an id. Its text is copied first, and the foreground variables are set before the wait. -/
def fg_found (front : List Job) (j : Job) (back : List Job) : Code Nat := do
  print (j.command ++ " : " ++ toString j.process_id)
  set_jobs (front ++ back)
  if ← kill j.process_id SIGCONT then
    .call (Act.set_L_Fg_Cmd j.command)
    .call (Act.set_Fg_Proccss_Pid j.process_id)
    let _ ← waitpid_untraced smash_pid j.process_id
    return SUCCESS
  else
    print "smash error: kill failed"
    return FAILURE
def fg_command (args : List String) : Code Nat := do
  let vars ← get
  match vars.jobs.getLast? with
  | none =>
    print "smash error: fg: jobs list is empty"
    return FAILURE
  | some last =>
    match args with
    | [] => fg_last smash_pid vars.jobs.dropLast last
    | [id] =>
      match find_id (atoi id) vars.jobs with
      | some (front,j,back) => fg_found smash_pid front j back
      | none =>
        print ("smash error: fg: job-id " ++ toString (atoi id) ++ " does not exist")
        return FAILURE
    | _ =>
      print "smash error: fg: invaild arguments"
      return FAILURE

/-- A stopped job goes on in the background. -/
def bg_resume (front : List Job) (j : Job) (back : List Job) : Code Nat := do
  if ← kill j.process_id SIGCONT then
    print (j.command ++ " : " ++ toString j.job_id)
    set_jobs (front ++ { j with state := BACKGROUND_STATE } :: back)
    return SUCCESS
  else
    print "smash error: kill failed"
    return FAILURE
def bg_command (args : List String) : Code Nat := do
  let vars ← get
  match args with
  | [] =>
    match max_id_stopped_job vars.jobs with
    | some (front,j,back) => bg_resume front j back
    | none =>
      print "smash error: bg: there are no stopped jobs to resume"
      return FAILURE
  | [id] =>
    if vars.jobs = [] then
      print ("smash error: bg: job-id " ++ id ++ " does now exist")
      return FAILURE
    else
      match find_id (atoi id) vars.jobs with
      | some (front,j,back) =>
        if j.state = STOP_STATE then
          bg_resume front j back
        else
          print ("smash error: bg: job-id " ++ toString j.job_id ++ " is already running in the background")
          return FAILURE
      | none =>
        print ("smash error: bg: job-id " ++ toString (atoi id) ++ " does not exist")
        return FAILURE
  | _ =>
    print "smash error: bg: invalid arguments"
    return FAILURE

def exit : Code Nat := do
  .call Act.exit
  return SUCCESS
/-- The inner loop of quit kill once the status has not ended it: nothing else does before five
    seconds have passed, and the handlers of the keys run meanwhile. -/
def quit_busy (pid : Pid) : Code Bool := do
  let keys ← .call Act.busy
  handle_all smash_pid keys
  kill pid SIGKILL
/-- The loop of quit kill, which takes out the first job in every iteration and goes on until none
    is left. The handlers may enter one job in all, so that one iteration more than jobs is enough.
    Where ctrl-Z has update_list erase the job under way (`JobIterators` makes this a misuse), the
    first one of the rest is taken out. -/
def quit_from : Nat → Code Nat
  | 0 => exit
  | fuel + 1 => do
    let vars ← get
    match vars.jobs with
    | [] => exit
    | j :: _ =>
      if ← kill j.process_id SIGTERM then
        let start ← .call Act.clock
        let _ ← .call (Act.waitpid j.process_id .WNOHANG)
        let signaled ← .call Act.signaled
        let now ← .call Act.clock
        if ← if now ≤ start + 5 ∧ signaled = true then pure true else quit_busy smash_pid j.process_id then
          let vars ← get
          set_jobs vars.jobs.tail
          quit_from fuel
        else
          print "smash error: kill failed"
          return FAILURE
      else
        print "smash error: kill failed"
        return FAILURE
def quit_command : List String → Code Nat
  | "kill" :: _ => do
    let vars ← get
    quit_from smash_pid (vars.jobs.length + 1)
  | _ => exit

/-- The parent's part; the child becomes the command. The new job's id is taken before
    `update_list`. -/
def ExeExternal (full_command : String) (in_bg : Bool) : Code Unit := do
  match ← .call Act.fork with
  | none => print "smash error: fork failed"
  | some pID =>
    if in_bg then
      let vars ← get
      if vars.jobs.length < MAX_JOBS then
        let new_job_id := last_id vars.jobs + 1
        let curr_time ← .call Act.time
        update_list
        push_back ⟨new_job_id,full_command,pID,curr_time,BACKGROUND_STATE⟩
      else
        return
    else
      .call (Act.set_L_Fg_Cmd full_command)
      .call (Act.set_Fg_Proccss_Pid pID)
      let _ ← waitpid_untraced smash_pid pID
      return

def ExeCmd : Command → Code Nat
  | .jobs => jobs_command
  | .kill args => kill_command args
  | .fg args => fg_command smash_pid args
  | .bg args => bg_command args
  | .quit args => quit_command smash_pid args
  | .external full_command in_bg => do
    ExeExternal smash_pid full_command in_bg
    return SUCCESS
  | .other => return SUCCESS

/-! ### main -/

/-- What the shell does from the prompt to the prompt: a key's handler, or a line. -/
def main_round : Code Unit := do
  match ← .call Act.input with
  | .key key => handle smash_pid key
  | .line command =>
    update_list
    let _ ← ExeCmd smash_pid command
    return

/-- The shell, one thread whose only point is the prompt. -/
def smash : Machine Unit Shared Act Res Unit := ⟨run,fun _ _ => some (main_round smash_pid)⟩
abbrev Config := Programs.Config Unit Shared Act Res Unit
def initial (coming : List Answer) : Config :=
  ⟨⟨⟨[],smash_pid,""⟩,coming,[],[]⟩,fun _ => ⟨(),.ret ()⟩⟩
/-- The shell waits for input. -/
def AtPrompt (c : Config) : Prop := (c.thread ()).prog = .ret () ∨ (c.thread ()).prog.action = some .input
/-- The states of the shell, with these answers of its environment. -/
def Reachable (coming : List Answer) (c : Config) : Prop := (smash smash_pid).Reaches (initial smash_pid coming) c
/-- The shell after so many steps. -/
def after (coming : List Answer) (steps : Nat) : Option Config :=
  (smash smash_pid).runs (List.replicate steps ()) (initial smash_pid coming)
theorem reachable_after {coming : List Answer} {steps : Nat} (ran : (after smash_pid coming steps).isSome = true) :
    Reachable smash_pid coming (Option.get _ ran) :=
  ⟨List.replicate steps (),(Option.some_get ran).symm⟩
end

end StructureOfOs.Smash
