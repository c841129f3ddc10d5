import StructureOfOs.FaithfulLines
import StructureOfOs.JobIds
import StructureOfOs.OwnChildren

/-!
What the whole shell does to its jobs. Whatever stands on its input, it goes the way of the shell that
is told its commands: the answers that it has used, with what is typed put between them, lead that
one to the same jobs and the same signals. What the lines come to is what the other one is told.
-/
namespace StructureOfOs.ShellRuns
open StructureOfOs.Programs StructureOfOs.Plans StructureOfOs.Jobs StructureOfOs.Smash StructureOfOs.ShellProgram
open StructureOfOs.FaithfulLines
open StructureOfOs.Contracts StructureOfOs.ShellSteps StructureOfOs.ShellFollows StructureOfOs.OwnChildren
open StructureOfOs.Streams (Text bytes string)
open StructureOfOs.CStrings (cstr strlen cut_last Holds holds_of_ended strtok strtoks)
open StructureOfOs.ShellLines (Parsed parsed take_line take_line_spec padded tokens delimiters MAX_LINE_SIZE MAX_ARG)
open StructureOfOs.InputLines (fgets take_line_some)
open StructureOfOs.JobCommands (built_in)
open StructureOfOs.JobIds (acts)
open StructureOfOs.Directories (FileSystem)

/-- The answers of system calls, and what is typed among them. -/
def calls (answers : List Answer) : List Answer :=
  answers.filter fun
    | .typed _ => false
    | _ => true
def inputs (answers : List Answer) : List Input :=
  answers.filterMap fun
    | .typed input => some input
    | _ => none
/-- What a line is for the shell that is told its commands. -/
def command (line : Text) : Command :=
  match parsed line with
  | .nothing => .other
  | .built_in args => built_in (args.filterMap id)
  | .external x => .external (string x.full_command) x.in_bg
/-- The keys and the lines of every round, in order. -/
def script (e : Nat → Surroundings) (lines : List Text) : List Input :=
  lines.zipIdx.flatMap fun (line,k) => (e k).keys.map .key ++ [.line (command line)]

section
variable {Dir : Type} (smash_pid : Pid) (e : Nat → Surroundings) (coming : List Answer)

/-- The shell that is told its commands comes to `q` with the same jobs and signals. It has been told
    the lines and the keys of the rounds, and of the round to come these keys. -/
structure Told (used : List Answer) (more : List Key) (q : Smash.Code Unit) (s : Shell Dir) : Prop where
  follows : ∀ rest, ∃ c, Reachable smash_pid (used ++ rest) c ∧ (c.thread ()).prog = q ∧ c.shared.vars = s.shared.vars ∧
    c.shared.signals = s.shared.signals ∧ c.shared.coming = rest
  calls : calls used ++ s.shared.coming = coming
  inputs : inputs used = script e s.lines ++ more.map .key
  forks : forks used = s.children.map Prod.fst
/-- The children have the words of lines that have been read. -/
def Begotten (s : Shell Dir) : Prop :=
  ∀ child ∈ s.children, ∃ line ∈ s.lines, (∃ x, parsed line = .external x) ∧ child.2 = padded (tokens line)
/-- What is left takes the steps of the shell's plan, and works on its own children. The line under way
    is the last one. -/
structure Going (q : Smash.Code Unit) (s : Shell Dir) (x : Sit) : Prop where
  keeps : Keeps smash_pid s.shared (s.children.map Prod.fst) x
  follows : (plan smash_pid).Follows q x fun _ x' => x'.Rest
  begun : x.doing ≠ .prompt
  line : ∀ c, x.doing = .line c → s.lines.getLast?.map command = some c
/-- What holds in every state of a run. -/
structure Inside (more : List Key) (q : Smash.Code Unit) (s : Shell Dir) : Prop where
  told : ∃ used, Told smash_pid e coming used more q s
  going : ∃ x, Going smash_pid q s x
  begotten : Begotten s
/-- Why the run stops: an exit, which a quit is under way for, a call that has no answer yet, or a
    misuse of memory. -/
def Stopped (q : Smash.Code Unit) (s : Shell Dir) : Stop → Prop
  | .exited => q.action = some .exit ∧ ∃ args, s.lines.getLast?.map command = some (.quit args)
  | .waiting => ∃ a, q.action = some a ∧ a ≠ .exit ∧ run () a s.shared = none
  | .misuse => True
/-- The run has stopped where the other shell has come to. -/
def Halts (why : Stop) (s : Shell Dir) : Prop :=
  ∃ more q, Inside smash_pid e coming more q s ∧ Stopped q s why
end

variable {Dir : Type} {smash_pid : Pid} {e : Nat → Surroundings} {coming : List Answer} {used : List Answer} {more : List Key}
  {q : Smash.Code Unit} {s s' : Shell Dir} {x : Sit} {α : Type}

/-! ### One action -/

theorem act_ok {args : List (Option Text)} {a : Act} {r : Res a} (did : act args a s = .ok r s') :
    ∃ v, run () a s.shared = some (r,v) ∧ s' = { s with shared := v, children := s.children ++ born args a r } := by
  unfold act at did
  split at did
  · rename_i r' v ran
    cases did
    exact ⟨v,ran,rfl⟩
  · cases did
theorem act_error {args : List (Option Text)} {a : Act} {why : Stop} (failed : act args a s = .error why s') :
    run () a s.shared = none ∧ s' = s ∧ why = stop a := by
  unfold act at failed
  split at failed
  · cases failed
  · rename_i blocked
    cases failed
    exact ⟨blocked,rfl,rfl⟩

/-- What an action takes is no input, unless it waits for it. -/
theorem takes_calls {a : Act} (busy : a ≠ .input) (r : Res a) : calls (takes a r) = takes a r ∧ inputs (takes a r) = [] := by
  cases a <;> first | exact absurd rfl busy | exact ⟨rfl,rfl⟩
theorem forks_born (args : List (Option Text)) (a : Act) (r : Res a) : forks (takes a r) = (born args a r).map Prod.fst := by
  cases a with
  | fork => cases r <;> rfl
  | _ => rfl
theorem calls_append (first second : List Answer) : calls (first ++ second) = calls first ++ calls second := List.filter_append ..
theorem inputs_append (first second : List Answer) : inputs (first ++ second) = inputs first ++ inputs second := List.filterMap_append ..
theorem forks_append (first second : List Answer) : forks (first ++ second) = forks first ++ forks second := List.filterMap_append ..

theorem told_act {args : List (Option Text)} {a : Act} {next : Res a → Smash.Code Unit} {r : Res a}
    (told : Told smash_pid e coming used more (.act a next) s) (busy : a ≠ .input) (did : act args a s = .ok r s') :
    Told smash_pid e coming (used ++ takes a r) more (next r) s' := by
  obtain ⟨v,ran,rfl⟩ := act_ok did
  have effect := run_effect ran
  obtain ⟨no_input,no_line⟩ := takes_calls busy r
  refine ⟨fun rest => ?_,?_,?_,?_⟩
  · obtain ⟨c,reached,at_,vars,signals,next_⟩ := told.follows (takes a r ++ rest)
    have given : Given c.shared a r := by
      have given := effect.given
      cases a with
      | get => exact given.trans vars.symm
      | _ => exact given
    obtain ⟨d,reached',same,at_'⟩ := acts smash_pid at_ (run_given given next_)
    rw [List.append_assoc]
    refine ⟨d,reached.trans reached',at_',?_,?_,?_⟩
    · rw [same,effect.vars,← vars]
    · rw [same,effect.signals,← signals]
    · rw [same]
  · rw [calls_append,no_input,List.append_assoc,← effect.coming,told.calls]
  · rw [inputs_append,no_line,List.append_nil,told.inputs]
  · rw [forks_append,told.forks,List.map_append,forks_born args]

/-! ### Functions of the shell -/

/-- One of the lines that have been read has these words. -/
def Typed (s : Shell Dir) (args : List (Option Text)) : Prop :=
  ∃ line ∈ s.lines, (∃ x, parsed line = .external x) ∧ args = padded (tokens line)

/-- Programs that do not fork. -/
def Forkless : Smash.Code α → Prop
  | .ret _ => True
  | .act a next => a ≠ .fork ∧ ∀ r, Forkless (next r)

theorem forkless_bind {β : Type} {p : Smash.Code α} {f : α → Smash.Code β} (first : Forkless p) (rest : ∀ value, Forkless (f value)) :
    Forkless (p >>= f) := by
  induction p with
  | ret value => exact rest value
  | act a next ih => exact ⟨first.1,fun r => ih r (first.2 r)⟩
theorem forkless_call {a : Act} (other : a ≠ .fork) : Forkless (.call a) := ⟨other,fun _ => trivial⟩
theorem forkless_update_list : Forkless update_list := by
  have from_ : ∀ kept rest, Forkless (update_from kept rest) := by
    intro kept rest
    induction rest generalizing kept with
    | nil => trivial
    | cons j rest ih =>
      refine forkless_bind (forkless_call nofun) fun r => ?_
      split
      · exact forkless_bind (forkless_call nofun) fun _ => ih kept
      · exact ih _
  exact forkless_bind (forkless_call nofun) fun vars => from_ [] vars.jobs
theorem forkless_handle (key : Key) : Forkless (handle smash_pid key) := by
  have print : ∀ line, Forkless (Smash.print line) := fun line => forkless_call nofun
  cases key with
  | ctrl_c =>
    refine forkless_bind (print _) fun _ => forkless_bind (forkless_call nofun) fun vars => ?_
    split
    · refine forkless_bind (forkless_call nofun) fun succeeds => ?_
      split <;> exact print _
    · trivial
  | ctrl_z =>
    refine forkless_bind (print _) fun _ => forkless_bind (forkless_call nofun) fun vars => ?_
    split
    · refine forkless_bind (forkless_call nofun) fun succeeds => ?_
      split
      · refine forkless_bind (print _) fun _ => forkless_bind (forkless_call nofun) fun now => ?_
        refine forkless_bind forkless_update_list fun _ => forkless_bind ?_ fun _ => forkless_call nofun
        exact forkless_bind (forkless_call nofun) fun _ => forkless_call nofun
      · exact print _
    · trivial

theorem inside_act {args : List (Option Text)} {a : Act} {next : Res a → Smash.Code Unit} {r : Res a} {later : Res a → Sit}
    (told : Told smash_pid e coming used more (.act a next) s) (begotten : Begotten s) (going : Going smash_pid (.act a next) s x)
    (step : Step smash_pid x a later) (rest : ∀ r, Answers x a r → (plan smash_pid).Follows (next r) (later r) fun _ x' => x'.Rest)
    (busy : a ≠ .input) (words : a = .fork → Typed s args) (did : act args a s = .ok r s') :
    Inside smash_pid e coming more (next r) s' ∧ Beside s s' := by
  have told' := told_act told busy did
  obtain ⟨v,ran,rfl⟩ := act_ok did
  obtain ⟨answers,keeps⟩ := keeps_step going.keeps step ran
  rw [forks_born args,← List.map_append] at keeps
  refine ⟨⟨⟨_,told'⟩,⟨later r,keeps,rest r answers,?_,?_⟩,fun child among => ?_⟩,⟨rfl,rfl,rfl,rfl⟩,rfl,rfl⟩
  · rcases step_doing (r := r) step busy with same | past
    · rw [same]; exact going.begun
    · rw [past]; exact nofun
  · rcases step_doing (r := r) step busy with same | past
    · rw [same]; exact going.line
    · rw [past]; exact fun _ => nofun
  · rcases List.mem_append.mp among with before | new
    · exact begotten child before
    · cases a with
      | fork =>
        cases r with
        | none => cases new
        | some pid =>
          rw [List.mem_singleton.mp new]
          exact words rfl
      | _ => cases new
/-- A function of the shell, and the rest of the round. -/
theorem performs {args : List (Option Text)} {p : Smash.Code α} {f : α → Smash.Code Unit}
    (words : (∃ c in_bg, s.lines.getLast?.map command = some (.external c in_bg)) → Forkless p ∨ Typed s args)
    (inside : Inside smash_pid e coming more (p >>= f) s) :
    Ensures (perform args p) s (fun value s' => Inside smash_pid e coming more (f value) s' ∧ Beside s s') (Halts smash_pid e coming) := by
  induction p generalizing s with
  | ret value => exact ⟨inside,.refl s⟩
  | act a next ih =>
    obtain ⟨⟨used,told⟩,⟨x,going⟩,begotten⟩ := inside
    obtain ⟨later,step,rest⟩ := going.follows
    have busy : a ≠ .input := by
      rintro rfl
      cases step with
      | quiet quiet => exact quiet.elim
      | input rest prompt => exact going.begun prompt
    have forks : a = .fork → Typed s args := by
      rintro rfl
      cases step with
      | quiet quiet => exact quiet.elim
      | fork is empty clear => exact (words ⟨_,_,going.line _ is⟩).resolve_left fun forkless => forkless.1 rfl
    refine ensures_bind ?_
    cases did : act args a s with
    | ok r s' =>
      obtain ⟨inside',beside⟩ := inside_act told begotten going step rest busy forks did
      have words' : (∃ c in_bg, s'.lines.getLast?.map command = some (.external c in_bg)) → Forkless (next r) ∨ Typed s' args := by
        rw [Typed,beside.lines]
        exact fun external => (words external).imp_left fun forkless => forkless.2 r
      refine (ensures_ok did).mpr (ensures_mono (ih r words' inside') ?_ fun _ _ halts => halts)
      exact fun _ _ ⟨inside'',beside'⟩ => ⟨inside'',beside.trans beside'⟩
    | error why s' =>
      obtain ⟨blocked,rfl,why⟩ := act_error did
      refine (ensures_error did).mpr ⟨more,_,⟨⟨used,told⟩,⟨x,going⟩,begotten⟩,?_⟩
      rw [why]
      cases step with
      | leave is all => exact ⟨rfl,_,going.line _ is⟩
      | quiet quiet => cases a <;> first | exact quiet.elim | exact ⟨_,rfl,nofun,blocked⟩
      | _ => exact ⟨_,rfl,nofun,blocked⟩

theorem halts_misuse (inside : Inside smash_pid e coming more q s) : Halts smash_pid e coming .misuse s :=
  ⟨more,q,inside,trivial⟩
/-- What is not of the jobs changes nothing for the other shell. -/
theorem Inside.same (inside : Inside smash_pid e coming more q s) (vars : s'.shared.vars = s.shared.vars)
    (signals : s'.shared.signals = s.shared.signals) (answers : s'.shared.coming = s.shared.coming) (lines : s'.lines = s.lines)
    (children : s'.children = s.children) : Inside smash_pid e coming more q s' := by
  obtain ⟨⟨used,told⟩,⟨x,going⟩,begotten⟩ := inside
  refine ⟨⟨used,?_,by rw [answers]; exact told.calls,by rw [lines]; exact told.inputs,by rw [children]; exact told.forks⟩,
    ⟨x,⟨?_,?_,?_⟩,going.follows,going.begun,by rw [lines]; exact going.line⟩,fun child among => ?_⟩
  · rw [vars,signals]
    exact told.follows
  · rw [vars]
    exact going.keeps.vars
  · rw [children]
    exact going.keeps.named
  · rw [signals,children]
    exact going.keeps.signals
  · rw [children] at among
    rw [lines]
    exact begotten child among

/-! ### What is typed -/

/-- What the shell does that is told its commands. -/
def told_code (smash_pid : Pid) : Input → Smash.Code Unit
  | .key key => handle smash_pid key
  | .line command => do
    update_list
    let _ ← Smash.ExeCmd smash_pid command
    return

theorem follows_input (input : Input) (told : Told smash_pid e coming used more (.ret ()) s) (rest : List Answer) :
    ∃ c, Reachable smash_pid (used ++ [.typed input] ++ rest) c ∧ (c.thread ()).prog = told_code smash_pid input ∧
      c.shared.vars = s.shared.vars ∧ c.shared.signals = s.shared.signals ∧ c.shared.coming = rest := by
  obtain ⟨c,reached,at_,vars,signals,next⟩ := told.follows (.typed input :: rest)
  let d : Smash.Config := { c with thread := Function.update c.thread () ⟨(),Smash.main_round smash_pid⟩ }
  have started : (smash smash_pid).step c () = some d := by simp [Machine.step,at_,smash,d]
  have prompt : (d.thread ()).prog = .act .input (told_code smash_pid) := by
    simp only [d,Function.update_self]
    rfl
  have typed : run () .input d.shared = some (input,{ d.shared with coming := rest }) := by simp [run,d,next]
  obtain ⟨c',reached',same,at_'⟩ := acts smash_pid prompt typed
  rw [List.append_assoc]
  refine ⟨c',(reached.step started).trans reached',at_',?_,?_,?_⟩
  · rw [same]; exact vars
  · rw [same]; exact signals
  · rw [same]
/-- At the prompt the shell is at rest, and so it can begin. -/
theorem Going.begins {doing : Doing} (going : Going smash_pid (.ret ()) s x) (fresh : doing ≠ .prompt)
    (follows : Sit.Rest { x with doing := .prompt } → (plan smash_pid).Follows q { x with doing := doing } fun _ x' => x'.Rest)
    (line : ∀ c, doing = .line c → s'.lines.getLast?.map command = some c) (shared : s'.shared = s.shared)
    (children : s'.children = s.children) :
    Going smash_pid q s' { x with doing := doing } := by
  have rest : x.Rest := going.follows
  have named := going.keeps.named
  refine ⟨⟨by rw [shared]; exact going.keeps.vars,?_,by rw [shared,children]; exact going.keeps.signals⟩,?_,fresh,line⟩
  · rw [children]
    exact ⟨named.listed,named.front,named.held,named.entered,named.stopping⟩
  · exact follows ⟨rest.hand,rest.entry,fun _ => nofun⟩
theorem inside_key (key : Key) (inside : Inside smash_pid e coming more (.ret ()) s) :
    Inside smash_pid e coming (more ++ [key]) (handle smash_pid key) s := by
  obtain ⟨⟨used,told⟩,⟨x,going⟩,begotten⟩ := inside
  refine ⟨⟨used ++ [.typed (.key key)],follows_input (.key key) told,?_,?_,?_⟩,
    ⟨_,going.begins (nofun : Doing.key ≠ .prompt) ?_ (fun _ => nofun) rfl rfl⟩,begotten⟩
  · rw [calls_append,show calls [.typed (.key key)] = [] from rfl,List.append_nil,told.calls]
  · rw [inputs_append,told.inputs,List.map_append,List.append_assoc]
    rfl
  · rw [forks_append,show forks [.typed (.key key)] = [] from rfl,List.append_nil,told.forks]
  · intro rest
    have rest' : Sit.Rest { x with doing := .key } := ⟨rest.hand,rest.entry,fun _ => nofun⟩
    exact follows_mono (fun _ _ handled => handled.rest rest') (follows_handle ⟨.inl ⟨rfl,rest.hand⟩,.inl rfl⟩ rest.entry)
theorem script_append (lines : List Text) (line : Text) :
    script e (lines ++ [line]) = script e lines ++ ((e lines.length).keys.map .key ++ [.line (command line)]) := by
  simp [script,List.zipIdx_append]
theorem inside_line {line : Text} (inside : Inside smash_pid e coming (e s.lines.length).keys (.ret ()) s) (shared : s'.shared = s.shared)
    (children : s'.children = s.children) (lines : s'.lines = s.lines ++ [line]) :
    Inside smash_pid e coming [] (told_code smash_pid (.line (command line))) s' := by
  obtain ⟨⟨used,told⟩,⟨x,going⟩,begotten⟩ := inside
  refine ⟨⟨used ++ [.typed (.line (command line))],?_,?_,?_,?_⟩,
    ⟨_,going.begins (nofun : Doing.line (command line) ≠ .prompt) ?_ ?_ shared children⟩,fun child among => ?_⟩
  · rw [shared]
    exact follows_input _ told
  · rw [calls_append,shared,show calls [.typed (.line (command line))] = [] from rfl,List.append_nil,told.calls]
  · rw [inputs_append,told.inputs,lines,script_append,List.map_nil,List.append_nil,List.append_assoc]
    rfl
  · rw [forks_append,show forks [.typed (.line (command line))] = [] from rfl,List.append_nil,children,told.forks]
  · intro rest
    refine follows_seq follows_update_list ?_
    rintro _ _ ⟨jobs,gone,_,rfl⟩
    exact follows_then (follows_ExeCmd rfl rest.hand rest.entry)
  · rintro c ⟨⟩
    rw [lines]
    simp
  · rw [children] at among
    obtain ⟨line',member,words⟩ := begotten child among
    exact ⟨line',by rw [lines]; exact List.mem_append_left _ member,words⟩

theorem perform_bind {β : Type} (args : List (Option Text)) (p : Smash.Code α) (g : α → Smash.Code β) :
    (perform args (p >>= g) : Process Dir β) = perform args p >>= fun value => perform args (g value) := by
  induction p with
  | ret value => rfl
  | act a next ih =>
    simp only [Prog.act_bind,perform,bind_assoc]
    exact bind_congr ih
theorem bind_ret (p : Smash.Code α) : p >>= .ret = p := by
  induction p with
  | ret value => rfl
  | act a next ih => exact congrArg (Prog.act a) (funext ih)
/-- The keys of a round. -/
theorem performs_keys (keys : List Key) (inside : Inside smash_pid e coming more (.ret ()) s) :
    Ensures (perform [] (handle_all smash_pid keys)) s (fun _ s' => Inside smash_pid e coming (more ++ keys) (.ret ()) s' ∧ Beside s s')
      (Halts smash_pid e coming) := by
  induction keys generalizing more s with
  | nil => exact ⟨by rw [List.append_nil]; exact inside,.refl s⟩
  | cons key keys ih =>
    have first : Inside smash_pid e coming (more ++ [key]) (handle smash_pid key >>= .ret) s := by
      rw [bind_ret]
      exact inside_key key inside
    rw [handle_all,perform_bind]
    refine ensures_bind (ensures_mono (performs (fun _ => .inl (forkless_handle key)) first) ?_ fun _ _ halts => halts)
    rintro ⟨⟩ s' ⟨inside',beside⟩
    refine ensures_mono (ih inside') ?_ fun _ _ halts => halts
    rintro _ s'' ⟨inside'',beside'⟩
    exact ⟨by simpa using inside'',beside.trans beside'⟩

/-! ### What a line runs -/

/-- The round of the other shell, once the list is up to date. -/
def told_command (smash_pid : Pid) (c : Command) : Smash.Code Unit := do
  let _ ← Smash.ExeCmd smash_pid c
  return
/-- The line comes back to the prompt, with nothing more read. -/
def Returns (smash_pid : Pid) (e : Nat → Surroundings) (coming : List Answer) (P : Process Dir α) (s : Shell Dir) : Prop :=
  Ensures P s (fun _ s' => Inside smash_pid e coming [] (.ret ()) s' ∧ SameText s s') (Halts smash_pid e coming)

theorem external_of_command {line : Text} {full_command : String} {in_bg : Bool} (is : command line = .external full_command in_bg) :
    ∃ x, parsed line = .external x := by
  unfold command at is
  split at is
  · cases is
  · unfold built_in at is
    split at is
    · cases is
    · split_ifs at is
  · rename_i x runs
    exact ⟨x,runs⟩
/-- A command for the jobs. Only a line that is no built-in command is forked for. -/
theorem returns_command {args : List (Option Text)} {c : Command} {line : Text} (last : s.lines.getLast? = some line)
    (words : (∃ x, parsed line = .external x) → Typed s args) (inside : Inside smash_pid e coming [] (told_command smash_pid c) s) :
    Returns smash_pid e coming (perform args (Smash.ExeCmd smash_pid c)) s := by
  refine ensures_mono (performs ?_ inside) (fun _ _ ⟨inside',beside⟩ => ⟨inside',beside.toSameText⟩) fun _ _ halts => halts
  rintro ⟨full_command,in_bg,external⟩
  rw [last,Option.map_some] at external
  exact .inr (words (external_of_command (Option.some.inj external)))

theorem built_in_other {cmd : Text} (is : cmd ∈ ["showpid","pwd","cd","diff"].map bytes) (rest : List Text) :
    built_in (cmd :: rest) = .other := by
  have others : ∀ name ∈ ["showpid","pwd","cd","diff"].map bytes, ∀ job ∈ ["jobs","kill","fg","bg","quit"].map bytes,
      name ≠ job := by decide
  have other := others cmd is
  simp only [List.map_cons,List.map_nil,List.forall_mem_cons] at other
  obtain ⟨jobs,kill,fg,bg,quit,_⟩ := other
  rw [built_in,if_neg jobs,if_neg kill,if_neg fg,if_neg bg,if_neg quit]

variable {fs : FileSystem Dir}

/-- Nothing but what is printed. -/
theorem returns_print_all (lines : List String) (result : Nat) (inside : Inside smash_pid e coming [] (.ret ()) s) :
    Returns smash_pid e coming (do print_all lines; return result) s := by
  induction lines generalizing s with
  | nil => exact ⟨inside,.refl s⟩
  | cons line lines ih =>
    have inside' : Inside smash_pid e coming [] (.ret ())
        { s with shared := { s.shared with printed := s.shared.printed ++ [line] } } := inside.same rfl rfl rfl rfl rfl
    refine ensures_mono (ih inside') (fun _ _ ⟨inside'',same⟩ => ⟨inside'',?_⟩) fun _ _ halts => halts
    exact ⟨same.lineSize,same.input,same.reads,same.lines⟩
theorem returns_pwd (now : Surroundings) (inside : Inside smash_pid e coming [] (.ret ()) s) :
    Returns smash_pid e coming (pwd fs now) s := by
  refine ensures_get ?_
  dsimp only
  split
  · exact returns_print_all [_] SUCCESS inside
  · exact ensures_throw (halts_misuse inside)
theorem returns_diff (now : Surroundings) (args : List Text) (inside : Inside smash_pid e coming [] (.ret ()) s) :
    Returns smash_pid e coming (diff now args) s := by
  unfold diff
  split
  · exact returns_print_all _ _ inside
  · exact ensures_throw (halts_misuse inside)
theorem returns_cd (now : Surroundings) (args : List Text) (inside : Inside smash_pid e coming [] (.ret ()) s) :
    Returns smash_pid e coming (cd fs now args) s := by
  cases did : Directories.cd fs args now.temp_path now.allowed ⟨s.cwd,s.previous_path,s.shared.printed⟩ with
  | some out =>
    have ran : cd fs now args s = .ok out.1
        { s with cwd := out.2.cwd, previous_path := out.2.previous_path, shared := { s.shared with printed := out.2.printed } } := by
      rw [cd,did]
    exact (ensures_ok ran).mpr ⟨inside.same rfl rfl rfl rfl rfl,rfl,rfl,rfl,rfl⟩
  | none =>
    have failed : cd fs now args s = .error .misuse s := by rw [cd,did]
    exact (ensures_error failed).mpr (halts_misuse inside)

/-- A line that has been cut into its words. -/
theorem returns_execute (now : Surroundings) {line : Text} {x : Parsed} (last : s.lines.getLast? = some line) (is : parsed line = x)
    (inside : Inside smash_pid e coming [] (told_command smash_pid (command line)) s) :
    Returns smash_pid e coming (execute fs smash_pid now x) s := by
  cases x with
  | nothing =>
    have named : command line = .other := by rw [command,is]
    rw [named] at inside
    exact ⟨inside,.refl s⟩
  | external x =>
    have named : command line = .external (string x.full_command) x.in_bg := by rw [command,is]
    rw [named] at inside
    exact returns_command last (fun _ => ⟨line,List.mem_of_getLast? last,⟨x,is⟩,ShellLines.external_args is⟩) inside
  | built_in args =>
    have named : command line = built_in (args.filterMap id) := by rw [command,is]
    rw [named] at inside
    rw [execute]
    generalize args.filterMap id = ws at inside
    cases ws with
    | nil => exact ⟨inside,.refl s⟩
    | cons cmd rest =>
      rw [ShellProgram.ExeCmd]
      have other : cmd ∈ ["showpid","pwd","cd","diff"].map bytes → Inside smash_pid e coming [] (.ret ()) s := by
        intro among
        rw [built_in_other among] at inside
        exact inside
      split_ifs with showpid pwd_ cd_ diff_
      · exact returns_print_all [_] SUCCESS (other (by simp [showpid]))
      · exact returns_pwd now (other (by simp [pwd_]))
      · exact returns_cd now rest (other (by simp [cd_]))
      · exact returns_diff now rest (other (by simp [diff_]))
      · refine returns_command last ?_ inside
        rintro ⟨x,external⟩
        rw [is] at external
        cases external

/-! ### The line in its buffer -/

/-- Zeros are written, and none is overwritten. -/
theorem ended_set {mem : Text} (ended : 0 ∈ mem) (i : Nat) : 0 ∈ mem.set i 0 := by
  by_cases inside : i < mem.length
  · exact List.mem_set inside 0
  · rwa [List.set_eq_of_length_le (Nat.le_of_not_lt inside)]
theorem ended_cut_last {mem mem' : Text} (ended : 0 ∈ mem) (cut : cut_last mem = some mem') : 0 ∈ mem' := by
  unfold cut_last at cut
  split at cut
  · cases cut
  · cases cut
    exact ended_set ended _
theorem ended_strtok {mem : Text} {start : Nat} {t : CStrings.Token} (ended : 0 ∈ mem) (found : strtok delimiters mem start = some t) :
    0 ∈ t.mem := by
  unfold strtok at found
  dsimp only at found
  split_ifs at found
  · cases found; exact ended
  · cases found; exact ended_set ended _
theorem ended_strtoks (n : Nat) {mem : Text} (ended : 0 ∈ mem) (start : Nat) : 0 ∈ (strtoks delimiters n mem start).2 := by
  induction n generalizing mem start with
  | zero => exact ended
  | succ n ih =>
    rw [strtoks]
    split
    · exact ih ended start
    · rename_i t found
      exact ih (ended_strtok ended found) t.saved
theorem ended_ExeCmd {mem : Text} (ended : 0 ∈ mem) (in_bg : Bool) : 0 ∈ (ShellLines.ExeCmd mem in_bg).2 := by
  rw [ShellLines.ExeCmd]
  split
  · exact ended
  · rename_i t found
    have later := ended_strtoks (MAX_ARG - 1) (ended_strtok ended found) t.saved
    dsimp only
    split
    · exact later
    · exact later
theorem ended_BgCmd {mem : Text} {bg : ShellLines.Bg} (ended : 0 ∈ mem) (ran : ShellLines.BgCmd mem = some bg) : 0 ∈ bg.lineSize := by
  unfold ShellLines.BgCmd at ran
  obtain ⟨full_command,_,ran⟩ := Option.bind_eq_some_iff.mp ran
  obtain ⟨mem',cut,ran⟩ := Option.bind_eq_some_iff.mp ran
  have ended' := ended_cut_last ended cut
  split_ifs at ran
  · dsimp only at ran
    split at ran
    · cases ran; exact ended_set ended' _
    · split_ifs at ran
      · cases ran; exact ended_set ended' _
      · cases ran; exact ended_set ended' _
  · cases ran; exact ended'
/-- The buffer holds a line, and what it runs is what the line says. -/
theorem take_line_parsed {mem : Text} {t : ShellLines.Taken} (ended : 0 ∈ mem) (taken : take_line mem = some t) :
    parsed (cstr mem).dropLast = t.parsed ∧ 0 ∈ t.lineSize := by
  constructor
  · obtain ⟨some_,c,split⟩ := take_line_some ended taken
    obtain ⟨left,same⟩ := take_line_spec (split ▸ holds_of_ended ended) some_
    rw [split,List.dropLast_concat,Option.some.inj (taken.symm.trans same)]
  · unfold take_line at taken
    obtain ⟨bg,ran,taken⟩ := Option.bind_eq_some_iff.mp taken
    have ended' := ended_BgCmd ended ran
    split at taken
    · cases taken; exact ended'
    · cases taken; exact ended_set (ended_ExeCmd ended' false) 0

/-! ### Every run -/

/-- The shell is at the prompt after so many rounds. -/
structure AtPrompt (smash_pid : Pid) (e : Nat → Surroundings) (coming : List Answer) (n : Nat) (s : Shell Dir) : Prop where
  inside : Inside smash_pid e coming [] (.ret ()) s
  rounds : s.lines.length = n
  ended : 0 ∈ s.lineSize

theorem ended_fgets {lineSize : Text} (ended : 0 ∈ lineSize) (input : Text) : 0 ∈ (fgets lineSize input).1 := by
  rw [fgets]
  split
  · exact ended
  · simp
theorem ensures_round {n : Nat} (prompt : AtPrompt smash_pid e coming n s) : Ensures (main_round fs smash_pid (e n)) s
    (fun _ s' => AtPrompt smash_pid e coming (n + 1) s') (Halts smash_pid e coming) := by
  refine ensures_bind (ensures_mono (performs_keys (e n).keys prompt.inside) ?_ fun _ _ halts => halts)
  rintro ⟨⟩ s₁ ⟨inside₁,beside₁⟩
  refine ensures_bind (ensures_modify (ensures_get ?_))
  let input := (e n).rewound.getD s₁.input
  let line := (cstr (fgets s₁.lineSize input).1).dropLast
  let s₂ := s₁.read input
  have rounds : s₁.lines.length = n := by rw [beside₁.lines,prompt.rounds]
  have inside₂ : Inside smash_pid e coming [] (told_code smash_pid (.line (command line))) s₂ := by
    rw [List.nil_append,← rounds] at inside₁
    exact inside_line inside₁ rfl rfl rfl
  have ended₂ : 0 ∈ s₂.lineSize := ended_fgets (by rw [beside₁.lineSize]; exact prompt.ended) _
  show Ensures (if strlen s₂.lineSize = 0 then throw Stop.misuse else _ : Process Dir Unit) s₂ _ _
  split
  · exact ensures_throw (halts_misuse inside₂)
  · refine ensures_bind (ensures_mono (performs (fun _ => .inl forkless_update_list) inside₂) ?_ fun _ _ halts => halts)
    rintro ⟨⟩ s₃ ⟨inside₃,beside₃⟩
    cases taken : take_line s₂.lineSize with
    | none => exact ensures_throw (halts_misuse inside₃)
    | some t =>
      obtain ⟨is,ended₄⟩ := take_line_parsed ended₂ taken
      refine ensures_bind (ensures_modify (ensures_bind ?_))
      have last : s₃.lines.getLast? = some line := by rw [beside₃.lines]; simp [s₂,Shell.read,line]
      have inside₄ : Inside smash_pid e coming [] (told_command smash_pid (command line)) { s₃ with lineSize := t.lineSize } :=
        inside₃.same rfl rfl rfl rfl rfl
      refine ensures_mono (returns_execute (e n) last is inside₄) ?_ fun _ _ halts => halts
      rintro result s₅ ⟨inside₅,same⟩
      refine ⟨inside₅,?_,by rw [same.lineSize]; exact ended₄⟩
      rw [same.lines,beside₃.lines]
      simp [s₂,Shell.read,rounds]
theorem ensures_rounds (n : Nat) (prompt : AtPrompt smash_pid e coming 0 s) : Ensures (rounds fs smash_pid e n) s
    (fun _ s' => AtPrompt smash_pid e coming n s') (Halts smash_pid e coming) := by
  induction n with
  | zero => exact prompt
  | succ n ih => exact ensures_bind (ensures_mono ih (fun _ _ prompt' => ensures_round prompt') fun _ _ halts => halts)
theorem start_prompt (d : Dir) (input : Text) : AtPrompt smash_pid e coming 0 (ShellProgram.start smash_pid d input coming) where
  inside := {
    told := ⟨[],fun rest => ⟨_,⟨[],rfl⟩,rfl,rfl,rfl,rfl⟩,rfl,rfl,rfl⟩
    going := ⟨ShellSteps.start smash_pid,⟨rfl,named_start,fun _ => nofun⟩,start_rest smash_pid,nofun,fun _ => nofun⟩
    begotten := fun _ => nofun }
  rounds := rfl
  ended := by simp [ShellProgram.start,MAX_LINE_SIZE]

/-- The shell works on its own children: it signals to them alone, knows of no other processes, and has
    started each of them for a line that it has read, with the words of that line. -/
structure WorksOnChildren (smash_pid : Pid) (s : Shell Dir) : Prop where
  signals : ∀ sent ∈ s.shared.signals, ∃ child ∈ s.children, child.1 = sent.1
  jobs : ∀ j ∈ s.shared.vars.jobs, ∃ child ∈ s.children, child.1 = j.process_id
  front : s.shared.vars.Fg_Proccss_Pid ≠ smash_pid → ∃ child ∈ s.children, child.1 = s.shared.vars.Fg_Proccss_Pid
  begotten : ∀ child ∈ s.children, ∃ line ∈ s.lines, (∃ x, parsed line = .external x) ∧ child.2 = padded (tokens line)

section
variable (fs) (smash_pid) (e) (n : Nat) (d : Dir) (input : Text) (coming)

/-- Wherever the shell is, at the prompt, waiting for an answer, after its exit or before a misuse, the
    shell that is told its commands has come to the same with the same answers, and is told what the
    lines of the input say. -/
theorem shell_refines : Ensures (rounds fs smash_pid e n) (ShellProgram.start smash_pid d input coming)
    (fun _ s => ∃ used, Told smash_pid e coming used [] (.ret ()) s ∧ s.lines.length = n)
    (fun why s => ∃ used more q, Told smash_pid e coming used more q s ∧ Stopped q s why) := by
  refine ensures_mono (ensures_rounds n (start_prompt d input)) ?_ ?_
  · rintro _ s ⟨⟨⟨used,told⟩,_,_⟩,count,_⟩
    exact ⟨used,told,count⟩
  · rintro why s ⟨more,q,⟨⟨used,told⟩,_,_⟩,stopped⟩
    exact ⟨used,more,q,told,stopped⟩
/-- Every signal goes to a process that the shell has started itself, and no other one is a job or in
    the foreground. -/
theorem works_on_children : WorksOnChildren smash_pid (final (after fs smash_pid e n d input coming)) := by
  have all : Ensures (rounds fs smash_pid e n) (ShellProgram.start smash_pid d input coming) (fun _ s => AtPrompt smash_pid e coming n s)
    (Halts smash_pid e coming) := ensures_rounds n (start_prompt d input)
  have inside : ∃ more q, Inside smash_pid e coming more q (final (after fs smash_pid e n d input coming)) := by
    cases ran : after fs smash_pid e n d input coming with
    | ok r s => exact ⟨[],_,((ensures_ok ran).mp all).inside⟩
    | error why s =>
      obtain ⟨more,q,inside,_⟩ := (ensures_error ran).mp all
      exact ⟨more,q,inside⟩
  obtain ⟨more,q,inside⟩ := inside
  obtain ⟨x,going⟩ := inside.going
  exact {
    signals := fun sent among => List.mem_map.mp (going.keeps.signals sent among)
    jobs := fun j among => List.mem_map.mp (going.keeps.named.listed _ (List.mem_map_of_mem (going.keeps.vars ▸ among)))
    front := fun away => by
      rw [going.keeps.vars] at away ⊢
      exact List.mem_map.mp (going.keeps.named.front away)
    begotten := inside.begotten }
end

end StructureOfOs.ShellRuns
