import StructureOfOs.Smash

/-!
quit kill among real children. The answers to its system calls come from the processes: a child
that has been reaped cannot be signalled any more, and waitpid writes the status of one that has
terminated and of no other. The loop that waits looks only at this status, so what it takes for
termination is a signal that came before the wait, or whatever the variable held.
-/
namespace StructureOfOs.QuitKill
open StructureOfOs.Programs StructureOfOs.Jobs StructureOfOs.Smash

/-- How a process takes SIGTERM: it has terminated when waitpid is called, of a signal or by
    exiting, or it terminates within the window, or it does not. -/
inductive Reaction
  | gone (signaled : Bool)
  | later
  | stays
deriving DecidableEq, Repr
/-- A job, its process's reaction, what `WIFSIGNALED` says of the variable when nothing has been
    written to it, and the seconds that the clock goes on before the loop first looks at it. -/
structure Child where
  job : Job
  reaction : Reaction
  stale : Bool
  lag : Nat
deriving DecidableEq, Repr
namespace Child
def gone (c : Child) : Bool := c.reaction matches .gone _
def status (c : Child) : Bool :=
  match c.reaction with
  | .gone signaled => signaled
  | _ => c.stale
/-- The loop finds the child terminated. -/
def seen (c : Child) : Bool := c.lag ≤ 5 && c.status
def reaped_with (c : Child) (reaped : List Pid) : List Pid := if c.gone then c.job.process_id :: reaped else reaped
end Child

/-- The children that are still to be waited for, and what the calls find. -/
structure Processes where
  children : List Child
  reaped : List Pid
  status : Bool
  ticks : Int
/-- What is answered to a system call of quit kill, `none` for the calls that it does not make. -/
def Processes.answer (ps : Processes) : Act → Option (List Answer × Processes)
  | .kill pid _ => some ([.killed (pid ∉ ps.reaped)],ps)
  | .clock => some ([.ticks ps.ticks],ps)
  | .signaled => some ([.status ps.status],ps)
  | .waitpid pid .WNOHANG =>
    match ps.children with
    | [] => none
    | c :: children =>
      some ([.waited (if c.gone then pid else 0)],⟨children,c.reaped_with ps.reaped,c.status,ps.ticks + c.lag⟩)
  | .busy => some ([.pressed []],ps)
  | .waitpid _ .WUNTRACED | .input | .blocked _ | .fork | .time | .freed _ => none
  | .get | .set_jobs _ | .set_Fg_Proccss_Pid _ | .set_L_Fg_Cmd _ | .exit | .print _ => some ([],ps)
def respond (a : Act) (w : Shared × Processes) : Option (Res a × Shared × Processes) := do
  let (answers,ps) ← w.2.answer a
  let (r,s) ← run () a { w.1 with coming := answers }
  return (r,s,ps)

/-- A program has returned, or an action has not. -/
inductive Ended
  | returned (value : Nat) (s : Shared)
  | stopped (a : Act) (s : Shared)
def finish : Code Nat → Shared × Processes → Ended
  | .ret value,w => .returned value w.1
  | .act a next,w =>
    match respond a w with
    | some (r,w') => finish (next r) w'
    | none => .stopped a w.1

/-- SIGTERM for every job, and SIGKILL after it for some. -/
def signalling (kills : Child → Bool) (children : List Child) : List (Pid × Int) :=
  children.flatMap fun c => (c.job.process_id,SIGTERM) :: if kills c then [(c.job.process_id,SIGKILL)] else []
/-- SIGKILL for exactly those that have not terminated within the window. -/
def gentle (children : List Child) : List (Pid × Int) := signalling (fun c => c.reaction = .stays) children
/-- The shell as quit kill starts in it. -/
def before (s : Shared) (children : List Child) (reaped : List Pid) (ticks : Int) : Shared × Processes :=
  ({ s with vars := { s.vars with jobs := children.map Child.job } },⟨children,reaped,false,ticks⟩)
/-- It ends in `exit`, with these signals sent. -/
def Exits (p : Code Nat) (w : Shared × Processes) (signals : List (Pid × Int)) : Prop :=
  ∃ s, finish p w = .stopped .exit s ∧ s.signals = signals
/-- No job's process has been reaped before, and the loop finds exactly the children terminated that
    terminate within the window. -/
def Clean : List Pid → List Child → Prop
  | _,[] => True
  | reaped,c :: children => c.job.process_id ∉ reaped ∧ (c.seen = true ↔ c.reaction ≠ .stays) ∧ Clean (c.reaped_with reaped) children

/-! ### What it sends -/

/-- Every child is treated: no call fails. -/
def Treated : List Pid → List Child → Prop
  | _,[] => True
  | reaped,c :: children => c.job.process_id ∉ reaped ∧ (c.gone = true → c.seen = true) ∧ Treated (c.reaped_with reaped) children

variable {smash_pid : Pid} {fuel : Nat} {s : Shared} {ps : Processes} {c : Child} {children : List Child}
variable {reaped : List Pid} {jobs : List Job} {kills kills' : Child → Bool}
  {signals : List (Pid × Int)}

theorem signalling_head {x : Pid × Int} {rest : List (Pid × Int)} (starts : signalling kills children = x :: rest) : x.2 = SIGTERM := by
  cases children with
  | nil => cases starts
  | cons c children =>
    simp only [signalling,List.flatMap_cons,List.cons_append,List.cons.injEq] at starts
    rw [← starts.1]
/-- Who gets SIGKILL can be told from the signals. -/
theorem signalling_eq_iff : signalling kills children = signalling kills' children ↔ ∀ c ∈ children, kills c = kills' c := by
  have other : SIGKILL ≠ SIGTERM := by decide
  induction children with
  | nil => simp [signalling]
  | cons c children ih =>
    have split : ∀ k : Child → Bool, signalling k (c :: children) =
        (c.job.process_id,SIGTERM) :: ((if k c then [(c.job.process_id,SIGKILL)] else []) ++ signalling k children) := fun _ => rfl
    rw [split,split,List.cons.injEq,List.forall_mem_cons]
    cases first : kills c with
    | true =>
      cases second : kills' c with
      | true => simpa using ih
      | false =>
        constructor
        · rintro ⟨_,same⟩
          exact absurd (signalling_head same.symm) other
        · simp
    | false =>
      cases second : kills' c with
      | true =>
        constructor
        · rintro ⟨_,same⟩
          exact absurd (signalling_head same) other
        · simp
      | false => simpa using ih
/-- Every child is treated, and the loop is right about every one. -/
theorem clean_iff : Clean reaped children ↔
    Treated reaped children ∧ signalling (fun c => !c.seen) children = gentle children := by
  rw [gentle,signalling_eq_iff]
  induction children generalizing reaped with
  | nil => simp [Clean,Treated]
  | cons c children ih =>
    rw [Clean,Treated,ih,List.forall_mem_cons]
    have right : (c.seen = true ↔ c.reaction ≠ .stays) ↔ (!c.seen) = decide (c.reaction = .stays) := by
      by_cases stays : c.reaction = .stays <;> cases c.seen <;> simp [stays]
    have early : (c.seen = true ↔ c.reaction ≠ .stays) → c.gone = true → c.seen = true := by
      intro right gone
      refine right.mpr fun stays => ?_
      simp [Child.gone,stays] at gone
    rw [← right]
    tauto

/-! ### How it runs -/

theorem finish_call {a : Act} {r : Res a} {w w' : Shared × Processes} {next : Res a → Code Nat} (did : respond a w = some (r,w')) :
    finish (.call a >>= next) w = finish (next r) w' := by
  simp only [Prog.call,Prog.act_bind,Prog.ret_bind,finish,did]
theorem finish_kill {pid : Pid} {sig : Int} {next : Bool → Code Nat} :
    finish (kill pid sig >>= next) (s,ps) =
      finish (next (pid ∉ ps.reaped))
        ({ s with coming := [], signals := if pid ∈ ps.reaped then s.signals else s.signals ++ [(pid,sig)] },ps) := by
  refine finish_call ?_
  simp only [respond,Processes.answer,run]
  by_cases reaped : pid ∈ ps.reaped <;> simp [reaped]
theorem finish_set_jobs {next : Code Nat} :
    finish (do set_jobs jobs; next) (s,ps) = finish next ({ s with vars := { s.vars with jobs := jobs }, coming := [] },ps) :=
  finish_call rfl
theorem fails : ¬ Exits (do print "smash error: kill failed"; return FAILURE) (s,ps) signals := by
  rintro ⟨s',ended,_⟩
  cases ended

theorem exits_call {a : Act} {r : Res a} {w w' : Shared × Processes} {next : Res a → Code Nat} (did : respond a w = some (r,w')) :
    Exits (.call a >>= next) w signals ↔ Exits (next r) w' signals := by
  rw [Exits,finish_call did]
  rfl
theorem exits_get {next : Vars → Code Nat} :
    Exits (Smash.get >>= next) (s,ps) signals ↔ Exits (next s.vars) ({ s with coming := [] },ps) signals :=
  exits_call rfl
theorem exits_kill {pid : Pid} {sig : Int} {next : Bool → Code Nat} :
    Exits (kill pid sig >>= next) (s,ps) signals ↔ Exits (next (pid ∉ ps.reaped))
      ({ s with coming := [], signals := if pid ∈ ps.reaped then s.signals else s.signals ++ [(pid,sig)] },ps) signals := by
  rw [Exits,finish_kill]
  rfl
/-- The child is erased and the rest is treated, or a call has failed. -/
theorem exits_gone {succeeds : Bool} :
    Exits (if succeeds then do let vars ← Smash.get; set_jobs vars.jobs.tail; quit_from smash_pid fuel
      else do print "smash error: kill failed"; return FAILURE) (s,ps) signals ↔
        succeeds = true ∧ Exits (quit_from smash_pid fuel)
          ({ s with vars := { s.vars with jobs := s.vars.jobs.tail }, coming := [] },ps) signals := by
  cases succeeds with
  | true =>
    rw [if_pos rfl,exits_get,Exits,finish_set_jobs]
    exact ⟨fun exits => ⟨rfl,exits⟩,fun exits => exits.2⟩
  | false => exact ⟨fun exits => absurd exits fails,fun exits => absurd exits.1 (by decide)⟩
/-- One child: SIGTERM, the wait, and SIGKILL if it has not been found terminated. -/
theorem quit_from_cons (here : ps.children = c :: children) (listed : s.vars.jobs = c.job :: jobs) : ∃ s',
    s'.signals = s.signals ++ (c.job.process_id,SIGTERM) :: (if c.seen then [] else [(c.job.process_id,SIGKILL)]) ∧ s'.vars.jobs = jobs ∧
      (Exits (quit_from smash_pid (fuel + 1)) (s,ps) signals ↔ c.job.process_id ∉ ps.reaped ∧ (c.gone = true → c.seen = true) ∧
        Exits (quit_from smash_pid fuel) (s',⟨children,c.reaped_with ps.reaped,c.status,ps.ticks + c.lag⟩) signals) := by
  have waited : ∀ s, respond (.waitpid c.job.process_id .WNOHANG) (s,ps) =
      some (if c.gone then c.job.process_id else 0,{ s with coming := [] },
        ⟨children,c.reaped_with ps.reaped,c.status,ps.ticks + c.lag⟩) := by
    intro s
    simp [respond,Processes.answer,here,run]
  refine ⟨{ s with vars := { s.vars with jobs := jobs }, coming := [], signals := _ },rfl,rfl,?_⟩
  rw [quit_from,exits_get]
  simp only [listed]
  rw [exits_kill]
  by_cases reaped : c.job.process_id ∈ ps.reaped
  · rw [decide_eq_false (not_not.mpr reaped)]
    exact ⟨fun exits => absurd exits fails,fun exits => absurd reaped exits.1⟩
  · rw [decide_eq_true reaped,if_neg reaped,if_pos (rfl : true = true)]
    rw [exits_call rfl,exits_call (waited _),exits_call rfl,exits_call rfl]
    have found : ps.ticks + c.lag ≤ ps.ticks + 5 ∧ c.status = true ↔ c.seen = true := by
      rw [Child.seen,Bool.and_eq_true,decide_eq_true_eq]
      exact and_congr_left' ⟨fun early => by omega,fun early => by omega⟩
    dsimp only
    by_cases seen : c.seen = true
    · rw [if_pos (found.mpr seen),if_pos seen]
      refine Iff.trans (@exits_gone _ _ _ _ _ true) ?_
      simp only [listed,List.tail_cons]
      exact ⟨fun exits => ⟨reaped,fun _ => seen,exits.2⟩,fun exits => ⟨trivial,exits.2.2⟩⟩
    · rw [if_neg (fun terminated => seen (found.mp terminated)),if_neg seen]
      refine Iff.trans (exits_call (a := .busy) rfl) ?_
      refine Iff.trans exits_kill ?_
      rw [exits_gone]
      simp only [listed,List.tail_cons]
      by_cases gone : c.gone = true
      · -- it has been reaped
        have late : c.job.process_id ∈ c.reaped_with ps.reaped := by simp [Child.reaped_with,gone]
        rw [decide_eq_false (not_not.mpr late)]
        exact ⟨fun exits => absurd exits.1 (by decide),fun exits => absurd (exits.2.1 gone) seen⟩
      · have alive : c.job.process_id ∉ c.reaped_with ps.reaped := by simpa [Child.reaped_with,gone] using reaped
        rw [decide_eq_true alive,if_neg alive,List.append_assoc,List.singleton_append]
        exact ⟨fun exits => ⟨reaped,fun yes => absurd yes gone,exits.2⟩,fun exits => ⟨rfl,exits.2.2⟩⟩
theorem exits_exit : Exits Smash.exit (s,ps) signals ↔ signals = s.signals := by
  constructor
  · rintro ⟨s',ended,rfl⟩
    cases ended
    rfl
  · rintro rfl
    exact ⟨_,rfl,rfl⟩
/-- The loop of quit kill, from anywhere in the list. -/
theorem quit_from_exits_iff (here : ps.children = children) (listed : s.vars.jobs = children.map Child.job)
    (enough : children.length ≤ fuel) :
    Exits (quit_from smash_pid fuel) (s,ps) signals ↔
      Treated ps.reaped children ∧ signals = s.signals ++ signalling (fun c => !c.seen) children := by
  induction children generalizing s ps fuel with
  | nil =>
    have exits : Exits (quit_from smash_pid fuel) (s,ps) signals ↔ signals = s.signals := by
      cases fuel with
      | zero => exact exits_exit
      | succ fuel =>
        rw [quit_from,exits_get]
        simp only [listed,List.map_nil]
        exact exits_exit
    rw [exits]
    simp [Treated,signalling]
  | cons c children ih =>
    cases fuel with
    | zero => cases enough
    | succ fuel =>
      obtain ⟨s',sent,left,exits⟩ := @quit_from_cons smash_pid fuel s ps c children (children.map Child.job) signals here listed
      have first : signalling (fun c => !c.seen) (c :: children) =
          (c.job.process_id,SIGTERM) :: (if c.seen then [] else [(c.job.process_id,SIGKILL)]) ++
            signalling (fun c => !c.seen) children := by
        cases seen : c.seen <;> simp [signalling,seen]
      rw [exits,ih rfl left (Nat.le_of_succ_le_succ enough),Treated,sent,first,List.append_assoc,and_assoc,and_assoc]
/-- quit kill treats every job as it should and ends the shell exactly when no process has been reaped before and
    the loop is right about every one. No key is pressed meanwhile. -/
theorem quit_kill_iff (smash_pid : Pid) (s : Shared) (children : List Child) (reaped : List Pid) (ticks : Int) (args : List String) :
    Exits (quit_command smash_pid ("kill" :: args)) (before s children reaped ticks) (s.signals ++ gentle children) ↔
      Clean reaped children := by
  refine Iff.trans (exits_call rfl) ?_
  refine Iff.trans (quit_from_exits_iff rfl rfl (by simp [before])) ?_
  rw [clean_iff]
  refine and_congr_right' ?_
  show s.signals ++ gentle children = s.signals ++ signalling (fun c => !c.seen) children ↔ _
  exact ⟨fun same => (List.append_cancel_left same).symm,fun same => by rw [same]⟩

/-! ### Runs of the shell -/

/-- The answers to a call are used up by it, whatever comes after them. -/
theorem run_answered {a : Act} {r : Res a} {s s' : Shared} {ps' : Processes} {answers : List Answer}
    (answered : ps.answer a = some (answers,ps')) (ran : run () a { s with coming := answers } = some (r,s')) (later : List Answer) :
    run () a { s with coming := answers ++ later } = some (r,{ s' with coming := later }) := by
  cases a with
  | input | blocked _ | fork | time | freed _ => cases answered
  | waitpid pid options =>
    cases options with
    | WUNTRACED => cases answered
    | WNOHANG =>
      simp only [Processes.answer] at answered
      split at answered
      · cases answered
      · cases answered
        cases ran
        rfl
  | exit => cases ran
  | _ =>
    cases answered
    cases ran
    rfl
/-- What is done among the children up to `exit` is done in a run of the shell, where their answers come. -/
theorem finish_runs {smash_pid : Pid} {p : Code Nat} {f : Nat → Code Unit} {w : Shared × Processes} {s : Shared}
    (ended : finish p w = .stopped .exit s) : ∃ coming, ∀ c : Config, c.shared = { w.1 with coming := coming } →
      (c.thread ()).prog = p >>= f → ∃ steps d, (smash smash_pid).runs (List.replicate steps ()) c = some d ∧
        (d.thread ()).prog.action = some .exit ∧ d.shared.signals = s.signals := by
  induction p generalizing w with
  | ret value => cases ended
  | act a next ih =>
    rw [finish] at ended
    cases responded : respond a w with
    | none =>
      rw [responded] at ended
      cases ended
      refine ⟨[],fun c here left => ⟨0,c,rfl,?_,by rw [here]⟩⟩
      rw [left]
      rfl
    | some out =>
      obtain ⟨r,w'⟩ := out
      rw [responded] at ended
      obtain ⟨coming,rest⟩ := ih r ended
      obtain ⟨⟨answers,ps⟩,answered,ran⟩ := Option.bind_eq_some_iff.mp responded
      obtain ⟨⟨r',s'⟩,took,same⟩ := Option.bind_eq_some_iff.mp ran
      cases same
      refine ⟨answers ++ coming,fun c here left => ?_⟩
      have did : run () a c.shared = some (r,{ s' with coming := coming }) := by
        rw [here]
        exact run_answered answered took coming
      obtain ⟨steps,d,went,exits,signals⟩ :=
        rest ⟨{ s' with coming := coming },Function.update c.thread () ⟨(c.thread ()).point,next r >>= f⟩⟩ rfl (by simp)
      have stepped : (smash smash_pid).step c () =
          some ⟨{ s' with coming := coming },Function.update c.thread () ⟨(c.thread ()).point,next r >>= f⟩⟩ := by
        simp [Machine.step,left,smash,did]
      exact ⟨steps + 1,d,by rw [List.replicate_succ,Machine.runs,stepped]; exact went,exits,signals⟩

/-- A job that exits by itself when SIGTERM has been sent, and another one. -/
def polite : List Child := [⟨⟨1,"cat",7,0,BACKGROUND_STATE⟩,.gone false,false,0⟩,⟨⟨2,"sleep 9",8,0,BACKGROUND_STATE⟩,.gone true,false,0⟩]
theorem polite_job_stays : ¬ ∀ smash_pid s children reaped ticks args, (children.map fun c => c.job.process_id).Nodup →
    (∀ c ∈ children, c.job.process_id ∉ reaped) →
      Exits (quit_command smash_pid ("kill" :: args)) (before s children reaped ticks) (s.signals ++ gentle children) := by
  intro claimed
  obtain ⟨s,ended,_⟩ := claimed 1 ⟨⟨[],1,""⟩,[],[],[]⟩ polite [] 0 [] (by decide) (by simp)
  cases ended

end StructureOfOs.QuitKill
