import StructureOfOs.Diff
import StructureOfOs.Directories
import StructureOfOs.JobCommands

/-!
The whole shell: `main` of smash.cpp from the text on its standard input. A line goes through
`fgets` and `BgCmd` to the command that it names, and every command works on one state: the buffer
and the input left, the jobs, the directory, the screen, and the processes that have been started,
each with the words that it has been given. The environment answers the system calls, as it does in
`Smash`, and presses keys at the prompt.
-/
namespace StructureOfOs.ShellProgram
open StructureOfOs.Programs StructureOfOs.Jobs StructureOfOs.Smash
open StructureOfOs.Streams (Text bytes string)
open StructureOfOs.CStrings (cstr strlen)
open StructureOfOs.ShellLines (Parsed take_line MAX_LINE_SIZE)
open StructureOfOs.InputLines (fgets fgets_chars)
open StructureOfOs.JobCommands (built_in)
open StructureOfOs.Directories (FileSystem)

/-- What is outside the shell in a round: the keys pressed while the line is typed, what the standard
    input goes on with if a child has set its position back (as one whose `execvp` has failed does at
    its exit, if the input is a file), whether chdir is permitted, the files, and what lies in the two
    buffers for a path when they are declared. -/
structure Surroundings where
  keys : List Key
  rewound : Option Text
  allowed : Bool
  files : String → Option Text
  temp_path : Text
  current_path : Text
  size : temp_path.length = MAX_LINE_SIZE
  size_pwd : current_path.length = MAX_LINE_SIZE + 1
/-- The state of the shell. `reads` is what `fgets` has read in every round, `lines` what `cmdString`
    has been, which is the line that is interpreted, and `children` are the processes of fork, with
    the arguments of their `execvp`. -/
structure Shell (Dir : Type) where
  lineSize : Text
  input : Text
  reads : List Text
  lines : List Text
  shared : Shared
  children : List (Pid × List (Option Text))
  cwd : Dir
  previous_path : Text
/-- Why the shell does not come to the next prompt: it has exited, a system call has not answered
    yet, or memory is read or written outside an array. -/
inductive Stop
  | exited
  | waiting
  | misuse
deriving DecidableEq, Repr
abbrev Process (Dir : Type) := EStateM Stop (Shell Dir)

/-- The state in which a run ends or stops. -/
def final {Dir α : Type} : EStateM.Result Stop (Shell Dir) α → Shell Dir
  | .ok _ s => s
  | .error _ s => s

section
variable {Dir : Type}

/-! ### The commands on jobs -/

/-- What a fork adds to the processes: the child's `execvp(args[0], args)`. -/
def born (args : List (Option Text)) : (a : Act) → Res a → List (Pid × List (Option Text))
  | .fork, some pID => [(pID,args)]
  | _, _ => []
def stop : Act → Stop
  | .exit => .exited
  | _ => .waiting
def act (args : List (Option Text)) (a : Act) : Process Dir (Res a) := fun s =>
  match run () a s.shared with
  | some (r,shared) => .ok r { s with shared := shared, children := s.children ++ born args a r }
  | none => .error (stop a) s
/-- A function of the shell, for a line with these words. -/
def perform {α : Type} (args : List (Option Text)) : Smash.Code α → Process Dir α
  | .ret value => return value
  | .act a next => do
    let r ← act args a
    perform args (next r)

/-! ### The other commands -/

def print (line : String) : Process Dir Unit :=
  modify fun s => { s with shared := { s.shared with printed := s.shared.printed ++ [line] } }
def print_all : List String → Process Dir Unit
  | [] => return
  | line :: lines => do
    print line
    print_all lines
def diff (e : Surroundings) (args : List Text) : Process Dir Nat :=
  match Diff.diff_command e.files (args.map string) with
  | .ok outcome => do
    print_all outcome.printed
    return outcome.status
  | .error _ => throw .misuse

variable (fs : FileSystem Dir) (smash_pid : Pid)

def pwd (e : Surroundings) : Process Dir Nat := do
  let s ← get
  let current_path := Directories.getcwd fs s.cwd e.current_path
  if 0 ∈ current_path then
    print (string (cstr current_path))
    return SUCCESS
  else
    throw .misuse
def cd (e : Surroundings) (args : List Text) : Process Dir Nat := fun s =>
  match Directories.cd fs args e.temp_path e.allowed ⟨s.cwd,s.previous_path,s.shared.printed⟩ with
  | some (result,after) =>
    .ok result { s with cwd := after.cwd, previous_path := after.previous_path, shared := { s.shared with printed := after.printed } }
  | none => .error .misuse s

/-- The chain of built-in commands, for the words that are there. -/
def ExeCmd (e : Surroundings) (args : List Text) : Process Dir Nat :=
  match args with
  | [] => return SUCCESS
  | cmd :: rest =>
    if cmd = bytes "showpid" then do
      print ("smash pid is " ++ toString smash_pid)
      return SUCCESS
    else if cmd = bytes "pwd" then pwd fs e
    else if cmd = bytes "cd" then cd fs e rest
    else if cmd = bytes "diff" then diff e rest
    else perform [] (Smash.ExeCmd smash_pid (built_in args))
/-- What `BgCmd` and `ExeCmd` run for a line. -/
def execute (e : Surroundings) : Parsed → Process Dir Nat
  | .nothing => return SUCCESS
  | .built_in args => ExeCmd fs smash_pid e (args.filterMap id)
  | .external x => perform x.args (Smash.ExeCmd smash_pid (.external (string x.full_command) x.in_bg))

/-! ### main -/

/-- `fgets`, and the copy to `cmdString`. -/
def Shell.read (s : Shell Dir) (input : Text) : Shell Dir :=
  let line := (fgets s.lineSize input).1
  { s with
    lineSize := line
    input := (fgets s.lineSize input).2
    reads := s.reads ++ [(fgets_chars (MAX_LINE_SIZE - 1) input).1]
    lines := s.lines ++ [(cstr line).dropLast] }
/-- A round of the loop. The line is cut while it is interpreted; what is left of it is seen again
    only by the next `fgets`. -/
def main_round (e : Surroundings) : Process Dir Unit := do
  perform [] (handle_all smash_pid e.keys)
  modify fun s => s.read (e.rewound.getD s.input)
  let s ← get
  if strlen s.lineSize = 0 then throw .misuse
  else
    perform [] update_list
    match take_line s.lineSize with
    | none => throw .misuse
    | some t =>
      modify fun s => { s with lineSize := t.lineSize }
      let _ ← execute fs smash_pid e t.parsed
      return
def rounds (e : Nat → Surroundings) : Nat → Process Dir Unit
  | 0 => return
  | n + 1 => do
    rounds e n
    main_round fs smash_pid (e n)
def start (d : Dir) (input : Text) (coming : List Answer) : Shell Dir :=
  ⟨List.replicate MAX_LINE_SIZE 0,input,[],[],⟨⟨[],smash_pid,""⟩,coming,[],[]⟩,[],d,[]⟩
/-- Where the shell is after so many rounds, or where it has stopped before. -/
def after (e : Nat → Surroundings) (n : Nat) (d : Dir) (input : Text) (coming : List Answer) : EStateM.Result Stop (Shell Dir) Unit :=
  rounds fs smash_pid e n (start smash_pid d input coming)
end

end StructureOfOs.ShellProgram
