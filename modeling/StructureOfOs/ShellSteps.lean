import StructureOfOs.Plans
import StructureOfOs.Smash

/-!
The steps of the shell. A situation is what the shell has under way between two actions: the
line, the process that the line's command has in its hand, and what is still to be entered into
the list. `Step` says once what the shell may do next, so that every fact about its runs is one
about these steps; that the functions take no others is shown beside, function by function.
-/
namespace StructureOfOs.ShellSteps
open StructureOfOs.Programs StructureOfOs.Plans StructureOfOs.Jobs StructureOfOs.Smash

/-- What the shell has read since it was at the prompt; a quit may be given up. -/
inductive Doing
  | prompt
  | key
  | line (command : Command)
  | past
/-- The process in the hand of a command, from fork or from the list to the end of the wait. An fg
    without an id has its job in the hand after the wait as well, and quit one that it ends. -/
inductive Hand
  | empty
  | launched (pid : Pid)
  | child (pid : Pid)
  | taken (j : Job)
  | resumed (j : Job)
  | named (pid : Pid)
  | front (pid : Pid)
  | waiting (pid : Pid) (back : Option Job)
  | returned (j : Job)
  | recalled (j : Job) (text : String)
  | renamed (j : Job)
  | ending (pid : Pid)
/-- The process in the hand that is no job. -/
def Hand.held : Hand → Option Pid
  | .launched pid | .child pid | .named pid => some pid
  | .taken j | .resumed j | .waiting _ (some j) | .returned j | .recalled j _ | .renamed j => some j.process_id
  | .empty | .front _ | .waiting _ none | .ending _ => none
/-- The one among them that is not in front either. fork may have given a child for the foreground
    the pid of one that has been there. -/
def Hand.apart : Hand → Option Pid
  | .launched pid => some pid
  | .taken j | .resumed j | .waiting _ (some j) | .returned j | .recalled j _ | .renamed j => some j.process_id
  | .empty | .child _ | .named _ | .front _ | .waiting _ none | .ending _ => none
/-- The processes that the hand names. -/
def Hand.pids : Hand → List Pid
  | .empty => []
  | .launched pid | .child pid | .named pid | .front pid | .ending pid => [pid]
  | .taken j | .resumed j | .returned j | .recalled j _ | .renamed j => [j.process_id]
  | .waiting pid back => pid :: (back.map Job.process_id).toList
/-- What is to be entered into the list: the process that ctrl-Z has stopped, or a new one. -/
inductive Entry
  | none
  | stopping
  | stopped (j : Job)
  | entered
  | launching (j : Job)
def Entry.job : Entry → Option Job
  | .stopped j | .launching j => some j
  | .none | .stopping | .entered => Option.none
/-- `gone` is the process for which the last `WNOHANG` has not answered 0, and `sent` the last
    signal of a command to a job. -/
structure Sit where
  vars : Vars
  doing : Doing
  hand : Hand
  entry : Entry
  gone : Option Pid
  sent : Option (Pid × Int)

namespace Sit
def with_jobs (x : Sit) (jobs : List Job) : Sit := { x with vars := { x.vars with jobs := jobs } }
def with_fg (x : Sit) (pid : Pid) : Sit := { x with vars := { x.vars with Fg_Proccss_Pid := pid } }
def with_cmd (x : Sit) (command : String) : Sit := { x with vars := { x.vars with L_Fg_Cmd := command } }
/-- The shell waits, or is busy, and the handlers may run. -/
structure Open (x : Sit) : Prop where
  hand : x.doing = .key ∧ x.hand = .empty ∨ (∃ pid back, x.hand = .waiting pid back) ∨ ∃ pid, x.hand = .ending pid
  doing : x.doing = .key ∨ ∃ c, x.doing = .line c ∧ ∀ args, c ≠ .kill args
/-- Nothing is under way, and the line was no quit that has begun. -/
structure Rest (x : Sit) : Prop where
  hand : x.hand = .empty
  entry : x.entry = .none
  doing : ∀ args, x.doing ≠ .line (.quit args)
def at_prompt (x : Sit) : Sit := { x with doing := .prompt }
end Sit

/-- Actions that leave the situation as it is. -/
def Quiet : Act → Prop
  | .get | .print _ | .time | .clock | .signaled | .busy => True
  | _ => False

section
variable (smash_pid : Pid)

inductive Step (x : Sit) : (a : Act) → (Res a → Sit) → Prop
  | quiet {a : Act} (quiet : Quiet a) : Step x a fun _ => x
  -- main
  | input (rest : x.Rest) (prompt : x.doing = .prompt) : Step x .input fun
      | .key _ => { x with doing := .key }
      | .line command => { x with doing := .line command }
  -- update_list
  | poll (pid : Pid) : Step x (.waitpid pid .WNOHANG) fun (r : Int) => { x with gone := if r = 0 then none else some pid }
  | drop {front back : List Job} {j : Job} (split : x.vars.jobs = front ++ j :: back) (gone : x.gone = some j.process_id) :
      Step x (.set_jobs (front ++ back)) fun _ => x.with_jobs (front ++ back)
  -- the handlers
  | interrupt (opened : x.Open) (away : x.vars.Fg_Proccss_Pid ≠ smash_pid) : Step x (.kill x.vars.Fg_Proccss_Pid SIGKILL) fun _ => x
  | stop (opened : x.Open) (clear : x.entry = .none) (away : x.vars.Fg_Proccss_Pid ≠ smash_pid) :
      Step x (.kill x.vars.Fg_Proccss_Pid SIGSTOP) fun (succeeds : Bool) => if succeeds then { x with entry := .stopping } else x
  | note (opened : x.Open) (stopping : x.entry = .stopping) : Step x .time fun (t : Int) =>
      { x with entry := .stopped ⟨last_id x.vars.jobs + 1,x.vars.L_Fg_Cmd,x.vars.Fg_Proccss_Pid,t,STOP_STATE⟩ }
  | enter {j : Job} (opened : x.Open) (stopped : x.entry = .stopped j) :
      Step x (.set_jobs (x.vars.jobs ++ [j])) fun _ => { x.with_jobs (x.vars.jobs ++ [j]) with entry := .entered }
  | give_back (opened : x.Open) (entered : x.entry = .entered) :
      Step x (.set_Fg_Proccss_Pid smash_pid) fun _ => { x.with_fg smash_pid with entry := .none }
  -- kill and bg
  | signal {pid : Pid} {sig : Int} (among : pid ∈ pids x.vars.jobs)
      (is : (∃ args, x.doing = .line (.kill args)) ∨ (∃ args, x.doing = .line (.bg args)) ∧ sig = SIGCONT) :
      Step x (.kill pid sig) fun (succeeds : Bool) => if succeeds then { x with sent := some (pid,sig) } else x
  | mark {front back : List Job} {j : Job} {sig : Int} (split : x.vars.jobs = front ++ j :: back)
      (sent : x.sent = some (j.process_id,sig)) :
      Step x (.set_jobs (signalled sig front j back)) fun _ => x.with_jobs (signalled sig front j back)
  -- fg
  | take {front back : List Job} {j : Job} {args : List String} (is : x.doing = .line (.fg args)) (empty : x.hand = .empty)
      (clear : x.entry = .none) (split : x.vars.jobs = front ++ j :: back) :
      Step x (.set_jobs (front ++ back)) fun _ => { x.with_jobs (front ++ back) with hand := .taken j }
  | reread {j : Job} (is : x.doing = .line (.fg [])) (taken : x.hand = .taken j) (clear : x.entry = .none) : Step x (.freed j) fun _ => x
  | resume {j : Job} {args : List String} (is : x.doing = .line (.fg args)) (taken : x.hand = .taken j) :
      Step x (.kill j.process_id SIGCONT) fun (succeeds : Bool) => { x with hand := if succeeds then .resumed j else .empty }
  | name_job {j : Job} {id : String} (is : x.doing = .line (.fg [id])) (resumed : x.hand = .resumed j) :
      Step x (.set_L_Fg_Cmd j.command) fun _ => { x.with_cmd j.command with hand := .named j.process_id }
  | name_child {pid : Pid} {command : String} (is : x.doing = .line (.external command false)) (child : x.hand = .child pid) :
      Step x (.set_L_Fg_Cmd command) fun _ => { x.with_cmd command with hand := .named pid }
  | front {pid : Pid} (named : x.hand = .named pid) (clear : x.entry = .none) :
      Step x (.set_Fg_Proccss_Pid pid) fun _ => { x.with_fg pid with hand := .front pid }
  | wait {pid : Pid} (front : x.hand = .front pid) : Step x (.blocked pid) fun _ => { x with hand := .waiting pid none }
  | wait_behind {j : Job} (is : x.doing = .line (.fg [])) (resumed : x.hand = .resumed j) :
      Step x (.blocked j.process_id) fun _ => { x with hand := .waiting j.process_id (some j) }
  | wake {pid : Pid} {back : Option Job} (waiting : x.hand = .waiting pid back) (clear : x.entry = .none) :
      Step x (.waitpid pid .WUNTRACED) fun _ => { x with hand := back.elim .empty .returned }
  | remember {j : Job} (returned : x.hand = .returned j) (clear : x.entry = .none) :
      Step x (.freed j) fun (text : String) => { x with hand := .recalled j text }
  | rename {j : Job} {text : String} (recalled : x.hand = .recalled j text) (clear : x.entry = .none) :
      Step x (.set_L_Fg_Cmd text) fun _ => { x.with_cmd text with hand := .renamed j }
  | behind {j : Job} (renamed : x.hand = .renamed j) (clear : x.entry = .none) :
      Step x (.set_Fg_Proccss_Pid j.process_id) fun _ => { x.with_fg j.process_id with hand := .empty }
  -- ExeExternal
  | fork {command : String} {in_bg : Bool} (is : x.doing = .line (.external command in_bg)) (empty : x.hand = .empty)
      (clear : x.entry = .none) : Step x .fork fun
        | none => x
        | some pid =>
          let hand := if in_bg then if MAX_JOBS ≤ x.vars.jobs.length then .empty else .launched pid else .child pid
          { x with hand := hand, gone := none, sent := none }
  | launch {pid : Pid} {command : String} (is : x.doing = .line (.external command true)) (launched : x.hand = .launched pid)
      (clear : x.entry = .none) : Step x .time fun (t : Int) =>
        { x with hand := .empty, entry := .launching ⟨last_id x.vars.jobs + 1,command,pid,t,BACKGROUND_STATE⟩ }
  | push {j : Job} (empty : x.hand = .empty) (launching : x.entry = .launching j) :
      Step x (.set_jobs (x.vars.jobs ++ [j])) fun _ => { x.with_jobs (x.vars.jobs ++ [j]) with entry := .none }
  -- quit
  | terminate {args : List String} {j : Job} (is : x.doing = .line (.quit args)) (among : j ∈ x.vars.jobs) (empty : x.hand = .empty) :
      Step x (.kill j.process_id SIGTERM) fun (succeeds : Bool) =>
        if succeeds then { x with hand := .ending j.process_id } else { x with doing := .past }
  | force {args : List String} {pid : Pid} (is : x.doing = .line (.quit args)) (ending : x.hand = .ending pid) :
      Step x (.kill pid SIGKILL) fun (succeeds : Bool) => if succeeds then x else { x with doing := .past, hand := .empty }
  | erase {args : List String} {pid : Pid} (is : x.doing = .line (.quit args)) (ending : x.hand = .ending pid) :
      Step x (.set_jobs x.vars.jobs.tail) fun _ => { x.with_jobs x.vars.jobs.tail with hand := .empty }
  | leave {args : List String} (is : x.doing = .line (.quit args)) (all : args.head? = some "kill" → x.vars.jobs = []) :
      Step x .exit fun _ => x
end

/-- Only the variables are known before they are read, and nothing runs after `exit`. -/
def Answers (x : Sit) : (a : Act) → Res a → Prop
  | .get, r => r = x.vars
  | .exit, _ => False
  | _, _ => True
def plan (smash_pid : Pid) : Plan Act Res Sit := ⟨Answers,Step smash_pid⟩
def Loop (_ : Unit) (x : Sit) : Prop := x.Rest

/-- The situation with which the shell starts. -/
def start (smash_pid : Pid) : Sit := ⟨⟨[],smash_pid,""⟩,.past,.empty,.none,none,none⟩
theorem start_rest (smash_pid : Pid) : (start smash_pid).Rest := ⟨rfl,rfl,fun _ => nofun⟩

/-! ### The variables -/

variable {smash_pid : Pid} {s s' : Shared} {x : Sit} {a : Act} {later : Res a → Sit} {r : Res a}

theorem step_assigns (step : Step smash_pid x a later) (r : Res a) : (later r).vars = assign a x.vars := by
  cases step with
  | quiet quiet => cases a <;> first | rfl | exact quiet.elim
  | input rest prompt => cases r <;> rfl
  | fork is empty clear =>
    cases r with
    | none => rfl
    | some pid => rfl
  | stop | signal | terminate | force => dsimp only; split <;> rfl
  | _ => rfl
/-- The situation has the shell's variables, along every step. -/
theorem step_vars (here : s.vars = x.vars) (step : Step smash_pid x a later) (ran : run () a s = some (r,s')) :
    Answers x a r ∧ s'.vars = (later r).vars := by
  refine ⟨?_,by rw [(run_effect ran).vars,here,step_assigns step]⟩
  cases a with
  | get => cases ran; exact here
  | exit => cases ran
  | _ => trivial

/-- Only input brings a new line. -/
theorem step_doing (step : Step smash_pid x a later) (other : a ≠ .input) : (later r).doing = x.doing ∨ (later r).doing = .past := by
  cases step with
  | input => exact absurd rfl other
  | fork =>
    cases r with
    | none => exact .inl rfl
    | some pid => exact .inl rfl
  | terminate | force =>
    dsimp only
    split
    · exact .inl rfl
    · exact .inr rfl
  | stop | signal => dsimp only; split <;> exact .inl rfl
  | _ => exact .inl rfl

theorem fewer_signalled (signum : Int) (front : List Job) (j : Job) (back : List Job) :
    Fewer (signalled signum front j back) (front ++ j :: back) := by
  unfold signalled
  split_ifs
  · exact fewer_state front j _ back
  · exact fewer_gone front j back
  · exact fewer_state front j _ back
  · exact Fewer.refl _

end StructureOfOs.ShellSteps
