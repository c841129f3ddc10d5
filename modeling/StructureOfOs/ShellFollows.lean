import StructureOfOs.ShellSteps

/-!
Every function of the shell takes the steps of its plan: the handlers and the waits, the commands
with every way they fail, and the loop. So whatever the steps keep holds in every state that the
shell reaches (`shell_keeps`).
-/
namespace StructureOfOs.ShellFollows
open StructureOfOs.Programs StructureOfOs.Plans StructureOfOs.Jobs StructureOfOs.Smash StructureOfOs.ShellSteps

variable {smash_pid : Pid} {x : Sit} {jobs front back : List Job} {j : Job} {α β : Type}

/-! ### Actions -/

theorem follows_quiet {a : Act} {Q : Res a → Sit → Prop} (quiet : Quiet a) (next : ∀ r, Answers x a r → Q r x) :
    (plan smash_pid).Follows (.call a) x Q :=
  follows_call (.quiet quiet) next
theorem follows_get {f : Vars → Code α} {Q : α → Sit → Prop} (next : (plan smash_pid).Follows (f x.vars) x Q) :
    (plan smash_pid).Follows (get >>= f) x Q := by
  refine follows_then (follows_quiet trivial ?_)
  rintro r rfl
  exact next
theorem follows_print {line : String} {Q : Unit → Sit → Prop} (next : Q () x) : (plan smash_pid).Follows (print line) x Q :=
  follows_quiet trivial fun _ _ => next
/-- A message and a result. -/
theorem follows_refuse {line : String} {value : α} {Q : α → Sit → Prop} (next : Q value x) :
    (plan smash_pid).Follows (do print line; return value : Code α) x Q :=
  follows_then (follows_print next)
/-- A signal by the step that it is, and what follows its success or its failure. -/
theorem follows_kill {pid : Pid} {sig : Int} {later : Bool → Sit} {succeeded failed : Code α} {Q : α → Sit → Prop}
    (step : Step smash_pid x (.kill pid sig) later) (success : (plan smash_pid).Follows succeeded (later true) Q)
    (failure : (plan smash_pid).Follows failed (later false) Q) :
    (plan smash_pid).Follows (do if ← kill pid sig then succeeded else failed) x Q := by
  refine follows_then (follows_call step fun (succeeds : Bool) _ => ?_)
  cases succeeds with
  | true => exact success
  | false => exact failure
theorem follows_set_jobs {later : Unit → Sit} {Q : Unit → Sit → Prop} (step : Step smash_pid x (.set_jobs jobs) later)
    (next : Q () (later ())) : (plan smash_pid).Follows (set_jobs jobs) x Q :=
  follows_call step fun _ _ => next

/-! ### update_list -/

/-- Jobs are gone, and nothing else has changed. -/
def Swept (x x' : Sit) : Prop := ∃ jobs gone, jobs.length ≤ x.vars.jobs.length ∧ x' = { x.with_jobs jobs with gone := gone }

theorem Swept.trans {x' x'' : Sit} (first : Swept x x') (second : Swept x' x'') : Swept x x'' := by
  obtain ⟨jobs,gone,fewer,rfl⟩ := first
  obtain ⟨jobs',gone',fewer',rfl⟩ := second
  exact ⟨jobs',gone',Nat.le_trans fewer' fewer,rfl⟩
theorem follows_update_from {kept rest : List Job} (here : x.vars.jobs = kept ++ rest) :
    (plan smash_pid).Follows (update_from kept rest) x fun _ x' => Swept x x' := by
  induction rest generalizing x kept with
  | nil => exact ⟨x.vars.jobs,x.gone,Nat.le_refl _,rfl⟩
  | cons j rest ih =>
    refine follows_then (follows_call (.poll j.process_id) fun (r : Int) _ => ?_)
    by_cases gone : r = 0
    · have still : Swept x { x with gone := none } := ⟨x.vars.jobs,none,Nat.le_refl _,rfl⟩
      simp only [gone,ne_eq,not_true_eq_false,if_false,if_true]
      exact follows_mono (fun _ _ later => still.trans later) (ih (by simpa using here))
    · simp only [gone,ne_eq,not_false_eq_true,if_true,if_false]
      have less : Swept x { x.with_jobs (kept ++ rest) with gone := some j.process_id } :=
        ⟨kept ++ rest,some j.process_id,by simp [here],rfl⟩
      refine follows_then (follows_set_jobs (.drop here rfl) ?_)
      exact follows_mono (fun _ _ later => less.trans later) (ih rfl)
theorem follows_update_list : (plan smash_pid).Follows update_list x fun _ x' => Swept x x' :=
  follows_get (follows_update_from rfl)
theorem follows_push_back {later : Unit → Sit} {Q : Unit → Sit → Prop} (step : Step smash_pid x (.set_jobs (x.vars.jobs ++ [j])) later)
    (next : Q () (later ())) : (plan smash_pid).Follows (push_back j) x Q :=
  follows_get (follows_set_jobs step next)

/-! ### The handlers and the wait -/

/-- The jobs that the list may still come to have before the foreground is set again. -/
def room (smash_pid : Pid) (vars : Vars) : Nat := vars.jobs.length + if vars.Fg_Proccss_Pid = smash_pid then 0 else 1
/-- The variables are as they were, or smash is in front, with no more room than before. -/
structure Less (smash_pid : Pid) (vars vars' : Vars) : Prop where
  room : room smash_pid vars' ≤ room smash_pid vars
  front : vars' = vars ∨ vars'.Fg_Proccss_Pid = smash_pid
/-- What handlers may have done. -/
def Handled (smash_pid : Pid) (x x' : Sit) : Prop := ∃ vars gone, Less smash_pid x.vars vars ∧ x' = { x with vars := vars, gone := gone }

theorem Handled.refl (smash_pid : Pid) (x : Sit) : Handled smash_pid x x := ⟨x.vars,x.gone,⟨Nat.le_refl _,.inl rfl⟩,rfl⟩
theorem Handled.trans {x' x'' : Sit} (first : Handled smash_pid x x') (second : Handled smash_pid x' x'') : Handled smash_pid x x'' := by
  obtain ⟨vars,gone,fewer,rfl⟩ := first
  obtain ⟨vars',gone',fewer',rfl⟩ := second
  refine ⟨vars',gone',⟨Nat.le_trans fewer'.room fewer.room,?_⟩,rfl⟩
  rcases fewer'.front with same | back
  · rw [same]
    exact fewer.front
  · exact .inr back

theorem follows_ctrl_c {signum : Int} (opened : x.Open) :
    (plan smash_pid).Follows (ctrl_c_hanlder smash_pid signum) x fun _ x' => Handled smash_pid x x' := by
  refine follows_then (follows_print (follows_get ?_))
  split
  · rename_i away
    exact follows_kill (.interrupt opened away.2) (follows_print (.refl _ x)) (follows_print (.refl _ x))
  · exact .refl _ x
theorem follows_ctrl_z {signum : Int} (opened : x.Open) (clear : x.entry = .none) :
    (plan smash_pid).Follows (ctrl_z_hanlder smash_pid signum) x fun _ x' => Handled smash_pid x x' := by
  refine follows_then (follows_print (follows_get ?_))
  split
  · rename_i away
    refine follows_kill (.stop opened clear away.2) ?_ (follows_print (.refl _ x))
    refine follows_then (follows_print (follows_then (follows_call (.note ⟨opened.hand,opened.doing⟩ rfl) fun (t : Int) _ => ?_)))
    refine follows_seq follows_update_list ?_
    rintro _ _ ⟨jobs,gone,fewer,rfl⟩
    refine follows_then (follows_push_back (.enter ⟨opened.hand,opened.doing⟩ rfl) ?_)
    refine follows_call (.give_back ⟨opened.hand,opened.doing⟩ rfl) fun _ _ => ?_
    -- The list has one job more, and smash is in front.
    have room_ : room smash_pid x.vars = x.vars.jobs.length + 1 := by rw [room,if_neg away.2]
    have fewer : jobs.length ≤ x.vars.jobs.length := fewer
    refine ⟨_,gone,⟨?_,.inr rfl⟩,by simp only [Sit.with_fg,Sit.with_jobs,clear]; rfl⟩
    rw [room_,room,if_pos rfl]
    simp only [List.length_append,List.length_singleton]
    omega
  · exact .refl _ x
theorem follows_handle {key : Key} (opened : x.Open) (clear : x.entry = .none) :
    (plan smash_pid).Follows (handle smash_pid key) x fun _ x' => Handled smash_pid x x' := by
  cases key with
  | ctrl_c => exact follows_ctrl_c opened
  | ctrl_z => exact follows_ctrl_z opened clear
theorem follows_handle_all {keys : List Key} (opened : x.Open) (clear : x.entry = .none) :
    (plan smash_pid).Follows (handle_all smash_pid keys) x fun _ x' => Handled smash_pid x x' := by
  induction keys generalizing x with
  | nil => exact .refl _ x
  | cons key keys ih =>
    refine follows_seq (follows_handle opened clear) ?_
    rintro _ _ ⟨vars,gone,fewer,rfl⟩
    have handled : Handled smash_pid x { x with vars := vars, gone := gone } := ⟨vars,gone,fewer,rfl⟩
    exact follows_mono (fun _ _ later => handled.trans later) (ih ⟨opened.hand,opened.doing⟩ clear)

/-- The wait for a process, by the step that begins it. -/
theorem follows_waitpid {pid : Pid} {back : Option Job} {Q : Int → Sit → Prop}
    (step : Step smash_pid x (.blocked pid) fun _ => { x with hand := .waiting pid back }) (clear : x.entry = .none)
    {c : Command} (is : x.doing = .line c) (unkilled : ∀ args, c ≠ .kill args)
    (next : ∀ r vars gone, Q r { x with vars := vars, gone := gone, hand := back.elim .empty .returned }) :
    (plan smash_pid).Follows (waitpid_untraced smash_pid pid) x Q := by
  refine follows_then (follows_call step fun (keys : List Key) _ => ?_)
  refine follows_seq (follows_handle_all ⟨.inr (.inl ⟨pid,back,rfl⟩),.inr ⟨c,is,unkilled⟩⟩ clear) ?_
  rintro _ _ ⟨vars,gone,_,rfl⟩
  exact follows_call (.wake rfl clear) fun r _ => next r vars gone

/-! ### The commands -/

section
variable (smash_pid)

/-- The program leaves nothing under way. -/
def Returns (p : Code α) (x : Sit) : Prop := (plan smash_pid).Follows p x fun _ x' => x'.Rest
end

theorem Swept.rest {x' : Sit} (swept : Swept x x') (rest : x.Rest) : x'.Rest := by
  obtain ⟨jobs,gone,_,rfl⟩ := swept
  exact ⟨rest.hand,rest.entry,rest.doing⟩
theorem Handled.rest {x' : Sit} (handled : Handled smash_pid x x') (rest : x.Rest) : x'.Rest := by
  obtain ⟨vars,gone,_,rfl⟩ := handled
  exact ⟨rest.hand,rest.entry,rest.doing⟩

theorem follows_print_jobs (jobs : List Job) (rest : x.Rest) : Returns smash_pid (print_jobs jobs) x := by
  induction jobs with
  | nil => exact rest
  | cons j jobs ih => exact follows_then (follows_quiet trivial fun (now : Int) _ => follows_then (follows_print ih))
theorem follows_jobs_command (rest : x.Rest) : Returns smash_pid jobs_command x := by
  refine follows_get ?_
  split
  · exact rest
  · refine follows_seq follows_update_list fun _ x' swept => follows_get ?_
    exact follows_then (follows_print_jobs _ (swept.rest rest))

theorem follows_kill_command {args args' : List String} (is : x.doing = .line (.kill args')) (rest : x.Rest) :
    Returns smash_pid (kill_command args) x := by
  match args with
  | [] => exact follows_refuse rest
  | [_] => exact follows_refuse rest
  | _ :: _ :: _ :: _ => exact follows_refuse rest
  | [signal,id] =>
    simp only [kill_command]
    split
    · exact follows_refuse rest
    · refine follows_get ?_
      split
      · rename_i front j back found
        have split := (find_id_some found).1
        refine follows_kill (.signal (by rw [split]; simp [pids]) (.inl ⟨_,is⟩)) ?_ (follows_refuse rest)
        refine follows_then (follows_set_jobs (.mark (j := j) split rfl) (follows_refuse ?_))
        exact ⟨rest.hand,rest.entry,rest.doing⟩
      · exact follows_refuse rest

theorem follows_bg_resume {args : List String} (is : x.doing = .line (.bg args)) (split : x.vars.jobs = front ++ j :: back)
    (rest : x.Rest) :
    Returns smash_pid (bg_resume front j back) x := by
  refine follows_kill (.signal (by rw [split]; simp [pids]) (.inr ⟨⟨_,is⟩,rfl⟩)) ?_ (follows_refuse rest)
  have resumed : signalled SIGCONT front j back = front ++ { j with state := BACKGROUND_STATE } :: back := rfl
  rw [← resumed]
  refine follows_then (follows_print (follows_then (follows_set_jobs (.mark split rfl) ?_)))
  exact ⟨rest.hand,rest.entry,rest.doing⟩
theorem follows_bg_command {args : List String} (is : x.doing = .line (.bg args)) (rest : x.Rest) :
    Returns smash_pid (bg_command args) x := by
  refine follows_get ?_
  match args with
  | [] =>
    dsimp only
    split
    · rename_i front j back found
      exact follows_bg_resume is (max_id_stopped_job_some found).1 rest
    · exact follows_refuse rest
  | [id] =>
    simp only
    split
    · exact follows_refuse rest
    · split
      · rename_i front j back found
        split
        · exact follows_bg_resume is (find_id_some found).1 rest
        · exact follows_refuse rest
      · exact follows_refuse rest
  | _ :: _ :: _ => exact follows_refuse rest

theorem follows_fg_last (is : x.doing = .line (.fg [])) (split : x.vars.jobs = front ++ [j]) (rest : x.Rest) :
    Returns smash_pid (fg_last smash_pid front j) x := by
  have doing : ∀ args, x.doing ≠ .line (.quit args) := rest.doing
  have took : Step smash_pid x (.set_jobs (front ++ [])) _ := .take is rest.hand rest.entry split
  rw [List.append_nil] at took
  refine follows_then (follows_set_jobs took ?_)
  refine follows_then (follows_call (.reread is rfl rest.entry) fun (text : String) _ => follows_then (follows_print ?_))
  refine follows_kill (.resume is rfl) ?_ (follows_refuse ⟨rfl,rest.entry,doing⟩)
  refine follows_then (follows_waitpid (.wait_behind is rfl) rest.entry is (fun _ => nofun) fun r vars gone => ?_)
  refine follows_then (follows_call (.remember rfl rest.entry) fun (command : String) _ => ?_)
  refine follows_then (follows_call (.rename rfl rest.entry) fun _ _ => follows_then (follows_call (.behind rfl rest.entry) fun _ _ => ?_))
  exact ⟨rfl,rest.entry,doing⟩
theorem follows_fg_found {id : String} (is : x.doing = .line (.fg [id])) (split : x.vars.jobs = front ++ j :: back) (rest : x.Rest) :
    Returns smash_pid (fg_found smash_pid front j back) x := by
  have doing : ∀ args, x.doing ≠ .line (.quit args) := rest.doing
  refine follows_then (follows_print (follows_then (follows_set_jobs (.take is rest.hand rest.entry split) ?_)))
  refine follows_kill (.resume is rfl) ?_ (follows_refuse ⟨rfl,rest.entry,doing⟩)
  refine follows_then (follows_call (.name_job is rfl) fun _ _ => follows_then (follows_call (.front rfl rest.entry) fun _ _ => ?_))
  exact follows_then (follows_waitpid (.wait rfl) rest.entry is (fun _ => nofun) fun r vars gone => ⟨rfl,rest.entry,doing⟩)
theorem follows_fg_command {args : List String} (is : x.doing = .line (.fg args)) (rest : x.Rest) :
    Returns smash_pid (fg_command smash_pid args) x := by
  refine follows_get ?_
  cases last : x.vars.jobs.getLast? with
  | none => exact follows_refuse rest
  | some j =>
    match args with
    | [] => exact follows_fg_last is (List.dropLast_append_getLast? j last).symm rest
    | [id] =>
      simp only
      split
      · rename_i front j back found
        exact follows_fg_found is (find_id_some found).1 rest
      · exact follows_refuse rest
    | _ :: _ :: _ => exact follows_refuse rest

/-- A quit that is under way has nothing in its hand between two jobs. -/
structure Quitting (args : List String) (x : Sit) : Prop where
  is : x.doing = .line (.quit args)
  hand : x.hand = .empty
  entry : x.entry = .none

theorem follows_exit {args : List String} {Q : Nat → Sit → Prop} (is : x.doing = .line (.quit args))
    (all : args.head? = some "kill" → x.vars.jobs = []) : (plan smash_pid).Follows Smash.exit x Q :=
  follows_then (follows_call (.leave is all) fun _ never => never.elim)
theorem follows_quit_busy {args : List String} {pid : Pid} {Q : Bool → Sit → Prop} (is : x.doing = .line (.quit args))
    (ending : x.hand = .ending pid) (clear : x.entry = .none)
    (next : ∀ vars gone, Less smash_pid x.vars vars → Q true { x with vars := vars, gone := gone } ∧
      Q false { x with vars := vars, gone := gone, doing := .past, hand := .empty }) :
    (plan smash_pid).Follows (quit_busy smash_pid pid) x Q := by
  refine follows_then (follows_quiet trivial fun (keys : List Key) _ => ?_)
  refine follows_seq (follows_handle_all ⟨.inr (.inr ⟨pid,ending⟩),.inr ⟨_,is,fun _ => nofun⟩⟩ clear) ?_
  rintro _ _ ⟨vars,gone,fewer,rfl⟩
  refine follows_call (.force is ending) fun (succeeds : Bool) _ => ?_
  cases succeeds with
  | true => exact (next vars gone fewer).1
  | false => exact (next vars gone fewer).2
/-- With as many iterations as there may come to be jobs, quit kill leaves none. -/
theorem follows_quit_from {args : List String} {fuel : Nat} (quitting : Quitting args x) (enough : room smash_pid x.vars ≤ fuel) :
    Returns smash_pid (quit_from smash_pid fuel) x := by
  induction fuel generalizing x with
  | zero =>
    have none_ : x.vars.jobs = [] := List.eq_nil_of_length_eq_zero (by unfold room at enough; omega)
    exact follows_exit quitting.is fun _ => none_
  | succ fuel ih =>
    refine follows_get ?_
    cases here : x.vars.jobs with
    | nil => exact follows_exit quitting.is fun _ => here
    | cons j rest =>
      have among : j ∈ x.vars.jobs := by rw [here]; exact List.mem_cons_self
      have past : (Sit.Rest { x with doing := .past, hand := .empty }) := ⟨rfl,quitting.entry,fun _ => nofun⟩
      refine follows_kill (.terminate quitting.is among quitting.hand) ?_ (follows_refuse ⟨quitting.hand,quitting.entry,fun _ => nofun⟩)
      refine follows_then (follows_quiet trivial fun (start : Int) _ => ?_)
      refine follows_then (follows_call (.poll j.process_id) fun (r : Int) _ => ?_)
      refine follows_then (follows_quiet trivial fun (signaled : Bool) _ => ?_)
      refine follows_then (follows_quiet trivial fun (now : Int) _ => ?_)
      -- The job in front leaves the list, after a SIGKILL or without.
      have gone : ∀ vars gone, Less smash_pid x.vars vars →
          Returns smash_pid (do let vars ← get; set_jobs vars.jobs.tail; quit_from smash_pid fuel : Code Nat)
            { x with hand := .ending j.process_id, vars := vars, gone := gone } := by
        intro vars gone fewer
        refine follows_get (follows_then (follows_set_jobs (.erase quitting.is rfl) (ih ⟨quitting.is,rfl,quitting.entry⟩ ?_)))
        have less := fewer.room
        show room smash_pid { vars with jobs := vars.jobs.tail } ≤ fuel
        rcases fewer.front with same | back
        · simp only [room,same,here,List.tail_cons,List.length_cons] at less enough ⊢
          omega
        · simp only [room,back,if_true,List.length_tail] at less enough ⊢
          omega
      dsimp only
      split
      · exact gone x.vars _ ⟨Nat.le_refl _,.inl rfl⟩
      · refine follows_then (follows_quit_busy quitting.is rfl quitting.entry fun vars left fewer => ⟨gone vars left fewer,?_⟩)
        exact follows_refuse ⟨rfl,quitting.entry,fun _ => nofun⟩
theorem follows_quit_command {args : List String} (is : x.doing = .line (.quit args)) (hand : x.hand = .empty) (entry : x.entry = .none) :
    Returns smash_pid (quit_command smash_pid args) x := by
  unfold quit_command
  split
  · refine follows_get (follows_quit_from ⟨is,hand,entry⟩ ?_)
    unfold room
    split <;> omega
  · rename_i other
    refine follows_exit is fun kills => ?_
    cases args with
    | nil => cases kills
    | cons arg args => exact absurd (Option.some.inj kills) fun same => other args (by rw [same])

theorem follows_ExeExternal {full_command : String} {in_bg : Bool} (is : x.doing = .line (.external full_command in_bg)) (rest : x.Rest) :
    Returns smash_pid (ExeExternal smash_pid full_command in_bg) x := by
  have doing : ∀ args, x.doing ≠ .line (.quit args) := rest.doing
  refine follows_then (follows_call (.fork is rest.hand rest.entry) fun (r : Option Pid) _ => ?_)
  cases r with
  | none => exact follows_print rest
  | some pID =>
    cases in_bg with
    | true =>
      refine follows_get ?_
      by_cases full : MAX_JOBS ≤ x.vars.jobs.length
      · simp only [full,if_true]
        rw [if_neg (Nat.not_lt.mpr full)]
        exact ⟨rfl,rest.entry,rest.doing⟩
      · simp only [full,if_true,if_false]
        rw [if_pos (Nat.not_le.mp full)]
        refine follows_then (follows_call (.launch is rfl rest.entry) fun (t : Int) _ => ?_)
        refine follows_seq follows_update_list ?_
        rintro _ _ ⟨jobs,gone,_,rfl⟩
        exact follows_push_back (.push rfl rfl) ⟨rfl,rfl,doing⟩
    | false =>
      refine follows_then (follows_call (.name_child is rfl) fun _ _ => follows_then (follows_call (.front rfl rest.entry) fun _ _ => ?_))
      exact follows_then (follows_waitpid (.wait rfl) rest.entry is (fun _ => nofun) fun r vars gone => ⟨rfl,rest.entry,doing⟩)
theorem follows_ExeCmd {command : Command} (is : x.doing = .line command) (hand : x.hand = .empty) (entry : x.entry = .none) :
    Returns smash_pid (ExeCmd smash_pid command) x := by
  have rest : (∀ args, command ≠ .quit args) → x.Rest := fun other => ⟨hand,entry,fun args same => by
    rw [is] at same
    exact other args (Doing.line.inj same)⟩
  cases command with
  | jobs => exact follows_jobs_command (rest (by simp))
  | kill args => exact follows_kill_command is (rest (by simp))
  | fg args => exact follows_fg_command is (rest (by simp))
  | bg args => exact follows_bg_command is (rest (by simp))
  | quit args => exact follows_quit_command is hand entry
  | external full_command in_bg => exact follows_then (follows_ExeExternal is (rest (by simp)))
  | other => exact rest (by simp)

/-! ### Every run -/

theorem follows_main_round (rest : x.Rest) : Returns smash_pid (main_round smash_pid) x.at_prompt := by
  refine follows_then (follows_call (.input ⟨rest.hand,rest.entry,fun _ => nofun⟩ rfl) fun (input : Input) _ => ?_)
  cases input with
  | key key =>
    have rest' : Sit.Rest { x with doing := .key } := ⟨rest.hand,rest.entry,fun _ => nofun⟩
    exact follows_mono (fun _ _ handled => handled.rest rest') (follows_handle ⟨.inl ⟨rfl,rest.hand⟩,.inl rfl⟩ rest.entry)
  | line command =>
    refine follows_seq follows_update_list ?_
    rintro _ _ ⟨jobs,gone,_,rfl⟩
    exact follows_then (follows_mono (fun _ _ rest' => rest') (follows_ExeCmd rfl rest.hand rest.entry))

/-- What every step keeps holds in every state that the shell reaches, with a record or without. -/
theorem shell_keeps {State : Type} {M : Machine Unit State Act Res Unit} {inv : State → Sit → Prop}
    {c d : Programs.Config Unit State Act Res Unit}
    (loop : M.round = (smash smash_pid).round) (keeps : (plan smash_pid).Keeps (M.run ()) inv)
    (begins : ∀ {s x}, inv s x → x.Rest → inv s x.at_prompt) (holds : (plan smash_pid).Holds Loop inv c)
    (reached : M.Reaches c d) : (plan smash_pid).Holds Loop inv d := by
  refine keeps.reaches begins ?_ holds reached
  rintro ⟨⟩ p x rest started
  rw [loop] at started
  cases started
  exact follows_main_round rest
/-- Where the shell waits for input nothing is under way. -/
theorem holds_at_prompt {State : Type} {c : Programs.Config Unit State Act Res Unit} {x : Sit}
    (follows : (plan smash_pid).Follows (c.thread ()).prog x Loop)
    (prompt : (c.thread ()).prog = .ret () ∨ (c.thread ()).prog.action = some .input) : x.Rest := by
  rcases prompt with back | waits
  · rw [back] at follows
    exact follows
  · obtain ⟨later,step⟩ := follows_steps follows waits
    cases step with
    | quiet quiet => exact quiet.elim
    | input rest => exact rest

end StructureOfOs.ShellFollows
