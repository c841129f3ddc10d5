import StructureOfOs.CheckedPrograms
import StructureOfOs.NodeLists
import StructureOfOs.Smash

/-!
The shell's functions with the iterators that they use. They work on the nodes of the list, and
reading or writing through an iterator is checked. What is seen of the list is its values, and
with these the functions do what they do without iterators, as long as nothing is misused.
-/
namespace StructureOfOs.JobIterators
open StructureOfOs.Programs StructureOfOs.Jobs StructureOfOs.NodeLists StructureOfOs.CheckedPrograms
open StructureOfOs.Integers (int)
open StructureOfOs.Smash (Act Res Answer Shared Vars Key Input Options Command Code run atoi job_line SUCCESS FAILURE MIN_SIG_ID MAX_JOBS
  SIGHUP SIGINT SIGIOT SIGBUS SIGKILL SIGTERM SIGCONT SIGSTOP SIGTSTP)

def FORGROUND_STATE : Nat := 1

/-- The list in its nodes, and what else the shell has. -/
structure Memory where
  jobs : Nodes Job
  Fg_Proccss_Pid : Pid
  L_Fg_Cmd : String
  coming : List Answer
  signals : List (Pid × Int)
  printed : List String
/-- What is seen of it without iterators. -/
def view (m : Memory) : Shared := ⟨⟨m.jobs.values,m.Fg_Proccss_Pid,m.L_Fg_Cmd⟩,m.coming,m.signals,m.printed⟩
abbrev Pointed := Checked Misuse Memory

/-! ### Actions -/

/-- Anything else than an operation on the list. -/
def call (a : Act) : Pointed (Res a) := fun m =>
  match run () a (view m) with
  | some (r,s) => .ok (r,⟨m.jobs,s.vars.Fg_Proccss_Pid,s.vars.L_Fg_Cmd,s.coming,s.signals,s.printed⟩)
  | none => .blocked
def print (line : String) : Pointed Unit := call (.print line)
def kill (pid : Pid) (sig : Int) : Pointed Bool := call (.kill pid sig)
def read {α : Type} (f : Nodes Job → Except Misuse α) : Pointed α := fun m =>
  match f m.jobs with
  | .ok v => .ok (v,m)
  | .error how => .misuse how
def change {α : Type} (f : Nodes Job → Except Misuse (α × Nodes Job)) : Pointed α := fun m =>
  match f m.jobs with
  | .ok (v,jobs) => .ok (v,{ m with jobs := jobs })
  | .error how => .misuse how
def size : Pointed Nat := read fun l => .ok l.size
def begin_ : Pointed Iterator := read fun l => .ok l.begin_
def deref (it : Iterator) : Pointed Job := read fun l => l.deref it
def next (it : Iterator) : Pointed Iterator := read fun l => l.next it
def last : Pointed Iterator := read Nodes.last
def set_state (it : Iterator) (state : Nat) : Pointed Unit :=
  change fun l => (l.write it fun j => { j with state := state }).map fun l => ((),l)
def erase (it : Iterator) : Pointed Iterator := change fun l => l.erase it
def push_back (j : Job) : Pointed Unit := change fun l => .ok ((),l.push_back j)
def pop_back : Pointed Unit := change fun l => l.pop_back.map fun l => ((),l)

/-! ### update_list and the signal handlers -/

/-- The loops have at most so many rounds left; the list has fewer elements. -/
def update_from : Nat → Iterator → Pointed Unit
  | 0,_ => fun _ => .blocked
  | n + 1,list_it =>
    if list_it = none then return
    else do
      let j ← deref list_it
      if (← call (.waitpid j.process_id .WNOHANG)) ≠ 0 then
        let list_it ← erase list_it
        update_from n list_it
      else
        let list_it ← next list_it
        update_from n list_it
def update_list : Pointed Unit := do
  let n ← size
  if n = 0 then return
  else
    let list_it ← begin_
    update_from (n + 1) list_it

section
variable (smash_pid : Pid)

def ctrl_c_hanlder (signum : Int) : Pointed Unit := do
  print "smash: caught ctrl-C "
  let vars ← call .get
  if signum > 0 ∧ vars.Fg_Proccss_Pid ≠ smash_pid then
    if ← kill vars.Fg_Proccss_Pid SIGKILL then
      print ("smash: process " ++ toString vars.Fg_Proccss_Pid ++ " was killed")
    else
      print "smash error: kill failed"
  else
    return
def ctrl_z_hanlder (signum : Int) : Pointed Unit := do
  print "smash: caught ctrl-Z"
  let vars ← call .get
  if signum > 0 ∧ vars.Fg_Proccss_Pid ≠ smash_pid then
    if ← kill vars.Fg_Proccss_Pid SIGSTOP then
      print ("smash: process " ++ toString vars.Fg_Proccss_Pid ++ " was stopped")
      let job_iterator ← last
      let j ← deref job_iterator
      let curr_time ← call .time
      let new_job : Job := ⟨j.job_id + 1,vars.L_Fg_Cmd,vars.Fg_Proccss_Pid,curr_time,STOP_STATE⟩
      update_list
      push_back new_job
      call (.set_Fg_Proccss_Pid smash_pid)
    else
      print "smash error: kill failed"
  else
    return
def handle : Key → Pointed Unit
  | .ctrl_c => ctrl_c_hanlder smash_pid SIGINT
  | .ctrl_z => ctrl_z_hanlder smash_pid SIGTSTP
def handle_all : List Key → Pointed Unit
  | [] => return
  | key :: keys => do
    handle smash_pid key
    handle_all keys
def waitpid_untraced (pid : Pid) : Pointed Int := do
  let keys ← call (.blocked pid)
  handle_all smash_pid keys
  call (.waitpid pid .WUNTRACED)

/-! ### The commands -/

def print_jobs : Nat → Iterator → Pointed Unit
  | 0,_ => fun _ => .blocked
  | n + 1,list_it =>
    if list_it = none then return
    else do
      let j ← deref list_it
      let now ← call .time
      print (job_line now j)
      let list_it ← next list_it
      print_jobs n list_it
def jobs_command : Pointed Nat := do
  if (← size) = 0 then return SUCCESS
  else
    update_list
    let n ← size
    let list_it ← begin_
    print_jobs (n + 1) list_it
    return SUCCESS

/-- The loops that look for an id: the iterator that they stop with. -/
def search (id : Int) : Nat → Iterator → Pointed Iterator
  | 0,_ => fun _ => .blocked
  | n + 1,list_it =>
    if list_it = none then return none
    else do
      let j ← deref list_it
      if j.job_id = id then return list_it
      else
        let list_it ← next list_it
        search id n list_it
/-- What a signal that has been sent does to the job. -/
def signalled (signum : Int) (job_iterator : Iterator) : Pointed Unit := do
  if signum = SIGTSTP ∨ signum = SIGSTOP ∨ signum = SIGIOT then
    set_state job_iterator STOP_STATE
  else if signum = SIGKILL ∨ signum = SIGBUS ∨ signum = SIGHUP ∨ signum = SIGTERM ∨ signum = SIGINT then
    let _ ← erase job_iterator
    return
  else if signum = SIGCONT then
    set_state job_iterator BACKGROUND_STATE
  else
    return
def kill_command : List String → Pointed Nat
  | [signal,id] => do
    let signum := int (-1 * atoi signal)
    let job_id := atoi id
    if signum < MIN_SIG_ID ∨ job_id < 0 then
      print "smash error: kill: invalid arguments"
      return FAILURE
    else
      let n ← size
      let list_it ← begin_
      let job_iterator ← search job_id (n + 1) list_it
      if job_iterator = none then
        -- the id is read at the end
        let j ← deref job_iterator
        print ("smash error: kill: job-id " ++ toString j.job_id ++ " does not exist")
        return FAILURE
      else
        let j ← deref job_iterator
        if ← kill j.process_id signum then
          signalled signum job_iterator
          let j ← deref job_iterator
          print ("signal number " ++ toString signum ++ " was sent to pid " ++ toString j.process_id)
          return SUCCESS
        else
          print "smash error: kill failed"
          return FAILURE
  | _ => do
    print "smash error: kill: invalid arguments"
    return FAILURE

def fg_command (args : List String) : Pointed Nat := do
  let n ← size
  if n = 0 then
    print "smash error: fg: jobs list is empty"
    return FAILURE
  else
    match args with
    | [] =>
      let list_it ← last
      pop_back
      let j ← deref list_it
      print (j.command ++ " : " ++ toString j.process_id)
      set_state list_it FORGROUND_STATE
      if ← kill j.process_id SIGCONT then
        let _ ← waitpid_untraced smash_pid j.process_id
        let j ← deref list_it
        call (.set_L_Fg_Cmd j.command)
        call (.set_Fg_Proccss_Pid j.process_id)
        return SUCCESS
      else
        print "smash error: kill failed"
        return FAILURE
    | [id] =>
      let list_it ← begin_
      let list_it ← search (atoi id) (n + 1) list_it
      if list_it = none then
        print ("smash error: fg: job-id " ++ toString (atoi id) ++ " does not exist")
        return FAILURE
      else
        let j ← deref list_it
        print (j.command ++ " : " ++ toString j.process_id)
        let temp := j.command
        let _ ← erase list_it
        set_state list_it FORGROUND_STATE
        let j ← deref list_it
        if ← kill j.process_id SIGCONT then
          call (.set_L_Fg_Cmd temp)
          call (.set_Fg_Proccss_Pid j.process_id)
          let _ ← waitpid_untraced smash_pid j.process_id
          return SUCCESS
        else
          print "smash error: kill failed"
          return FAILURE
    | _ =>
      print "smash error: fg: invaild arguments"
      return FAILURE

/-- The iterator found so far, or the one of a stopped job with a larger id. -/
def larger_stopped (list_it : Iterator) (j : Job) (found : Option Iterator) : Pointed (Option Iterator) :=
  if j.state = STOP_STATE then
    match found with
    | none => return some list_it
    | some best => do
      let k ← deref best
      return if k.job_id < j.job_id then some list_it else found
  else
    return found
/-- The loop of bg that looks for the stopped job with the largest id. -/
def max_id_stopped_job : Nat → Iterator → Option Iterator → Pointed (Option Iterator)
  | 0,_,_ => fun _ => .blocked
  | n + 1,list_it,found =>
    if list_it = none then return found
    else do
      let j ← deref list_it
      let found ← larger_stopped list_it j found
      let list_it ← next list_it
      max_id_stopped_job n list_it found
def bg_resume (list_it : Iterator) : Pointed Nat := do
  let j ← deref list_it
  if ← kill j.process_id SIGCONT then
    let j ← deref list_it
    print (j.command ++ " : " ++ toString j.job_id)
    set_state list_it BACKGROUND_STATE
    return SUCCESS
  else
    print "smash error: kill failed"
    return FAILURE
def bg_command (args : List String) : Pointed Nat := do
  let n ← size
  match args with
  | [] =>
    if n = 0 then
      print "smash error: bg: there are no stopped jobs to resume"
      return FAILURE
    else
      let list_it ← begin_
      match ← max_id_stopped_job (n + 1) list_it none with
      | some list_it => bg_resume list_it
      | none =>
        print "smash error: bg: there are no stopped jobs to resume"
        return FAILURE
  | [id] =>
    if n = 0 then
      print ("smash error: bg: job-id " ++ id ++ " does now exist")
      return FAILURE
    else
      let list_it ← begin_
      let list_it ← search (atoi id) (n + 1) list_it
      if list_it = none then
        print ("smash error: bg: job-id " ++ toString (atoi id) ++ " does not exist")
        return FAILURE
      else
        let j ← deref list_it
        if j.state = STOP_STATE then
          bg_resume list_it
        else
          print ("smash error: bg: job-id " ++ toString j.job_id ++ " is already running in the background")
          return FAILURE
  | _ =>
    print "smash error: bg: invalid arguments"
    return FAILURE

def exit : Pointed Nat := do
  call .exit
  return SUCCESS
/-- The job's pid is read again when the handlers have run. -/
def quit_busy (list_it : Iterator) : Pointed Bool := do
  let keys ← call .busy
  handle_all smash_pid keys
  let j ← deref list_it
  kill j.process_id SIGKILL
/-- The list is empty after so many iterations, as on its values. -/
def quit_from : Nat → Iterator → Pointed Nat
  | 0,_ => exit
  | fuel + 1,list_it =>
    if list_it = none then exit
    else do
      let j ← deref list_it
      if ← kill j.process_id SIGTERM then
        let start ← call .clock
        let _ ← call (.waitpid j.process_id .WNOHANG)
        let signaled ← call .signaled
        let now ← call .clock
        if ← if now ≤ start + 5 ∧ signaled = true then pure true else quit_busy smash_pid list_it then
          let job_to_erase := list_it
          let list_it ← next list_it
          let _ ← erase job_to_erase
          if (← size) = 0 then exit else quit_from fuel list_it
        else
          print "smash error: kill failed"
          return FAILURE
      else
        print "smash error: kill failed"
        return FAILURE
def quit_command : List String → Pointed Nat
  | "kill" :: _ => do
    let n ← size
    let list_it ← begin_
    quit_from smash_pid (n + 1) list_it
  | _ => exit

def ExeExternal (full_command : String) (in_bg : Bool) : Pointed Unit := do
  match ← call .fork with
  | none => print "smash error: fork failed"
  | some pID =>
    if in_bg then
      if (← size) < MAX_JOBS then
        let job_iterator ← last
        let j ← deref job_iterator
        let curr_time ← call .time
        update_list
        push_back ⟨j.job_id + 1,full_command,pID,curr_time,BACKGROUND_STATE⟩
      else
        return
    else
      call (.set_L_Fg_Cmd full_command)
      call (.set_Fg_Proccss_Pid pID)
      let _ ← waitpid_untraced smash_pid pID
      return

def ExeCmd : Command → Pointed Nat
  | .jobs => jobs_command
  | .kill args => kill_command args
  | .fg args => fg_command smash_pid args
  | .bg args => bg_command args
  | .quit args => quit_command smash_pid args
  | .external full_command in_bg => do
    ExeExternal smash_pid full_command in_bg
    return SUCCESS
  | .other => return SUCCESS
def main_round : Pointed Unit := do
  match ← call .input with
  | .key key => handle smash_pid key
  | .line command =>
    update_list
    let _ ← ExeCmd smash_pid command
    return
/-- So many rounds of the shell. -/
def rounds : Nat → Pointed Unit
  | 0 => return
  | n + 1 => do
    main_round smash_pid
    rounds n
end

end StructureOfOs.JobIterators
