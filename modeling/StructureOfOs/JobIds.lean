import StructureOfOs.JobLists

/-!
The ids of the jobs. They are positive and go up from front to back in every state of
the shell, although a new id is taken from the last job before `update_list` may remove
it. So the last job, which fg takes, is the one with the largest id, and so is the one
that bg finds among the stopped jobs.
-/
namespace StructureOfOs.JobIds
open StructureOfOs.Programs StructureOfOs.Jobs StructureOfOs.Smash StructureOfOs.JobLists

/-- The shell gets from `c` to `d`, having sent SIGCONT to a job; these jobs are left. -/
structure Resumes (smash_pid : Pid) (c : Config) (j : Job) (jobs : List Job) (d : Config) : Prop where
  reaches : (smash smash_pid).Reaches c d
  signal : d.shared.signals = c.shared.signals ++ [(j.process_id,SIGCONT)]
  left : d.shared.vars.jobs = jobs
/-- fg without argument, where `kill` succeeds: the job with the largest id is taken out and
    resumed, and the shell waits for it. -/
def FgTakesLargest (smash_pid : Pid) (c : Config) : Prop :=
  ∀ next text later, (c.thread ()).prog = fg_command smash_pid [] >>= next → c.shared.vars.jobs ≠ [] →
    c.shared.coming = .freed text :: .killed true :: later →
    ∃ front j d, c.shared.vars.jobs = front ++ [j] ∧ (∀ i ∈ front, i.job_id < j.job_id) ∧ Resumes smash_pid c j front d ∧
      (d.thread ()).prog.action = some (.blocked j.process_id)
/-- bg without argument, where `kill` succeeds: the stopped job with the largest id is resumed
    and marked, and no other changes. -/
def BgResumesLargest (smash_pid : Pid) (c : Config) : Prop :=
  ∀ next later i, (c.thread ()).prog = bg_command [] >>= next → i ∈ c.shared.vars.jobs → i.state = STOP_STATE →
    c.shared.coming = .killed true :: later →
    ∃ front j back d, MaxStopped c.shared.vars.jobs front j back ∧
      Resumes smash_pid c j (front ++ { j with state := BACKGROUND_STATE } :: back) d ∧ (d.thread ()).prog = next SUCCESS

variable {smash_pid : Pid} {c : Config} {a : Act} {r : Res a} {s : Shared} {next : Res a → Code Unit}

/-- One action of the shell. -/
theorem acts (smash_pid : Pid) (left : (c.thread ()).prog = .act a next) (ran : run () a c.shared = some (r,s)) :
    ∃ d, (smash smash_pid).Reaches c d ∧ d.shared = s ∧ (d.thread ()).prog = next r := by
  refine ⟨⟨s,Function.update c.thread () ⟨(c.thread ()).point,next r⟩⟩,⟨[()],?_⟩,rfl,by simp⟩
  have ran' : (smash smash_pid).run () a c.shared = some (r,s) := ran
  simp [Machine.runs,Machine.step,left,ran']

theorem freed_reads {j : Job} {text : String} {later : List Answer} (answers : s.coming = .freed text :: later) :
    run () (.freed j) s = some (text,{ s with coming := later }) := by
  simp [run,answers]
theorem kill_succeeds {pid : Pid} {sig : Int} {later : List Answer} (answers : s.coming = .killed true :: later) :
    run () (.kill pid sig) s = some (true,{ s with coming := later, signals := s.signals ++ [(pid,sig)] }) := by
  simp [run,answers]

theorem fg_takes_largest (ordered : Ordered c.shared.vars.jobs) : FgTakesLargest smash_pid c := by
  intro next text later at_ some_job answers
  obtain ⟨front,j,split⟩ := (List.eq_nil_or_concat' c.shared.vars.jobs).resolve_left some_job
  have last : c.shared.vars.jobs.getLast? = some j := by rw [split]; simp
  have rest : c.shared.vars.jobs.dropLast = front := by rw [split]; simp
  rw [split] at ordered
  have below : ∀ i ∈ front, i.job_id < j.job_id :=
    fun i among => (List.pairwise_append.mp ordered.increasing).2.2 i among j List.mem_cons_self
  obtain ⟨c₁,reach₁,same₁,prog₁⟩ := acts smash_pid at_ rfl
  replace prog₁ : (c₁.thread ()).prog = fg_last smash_pid front j >>= next := by
    rw [prog₁]
    dsimp only [Bind.bind,Prog.bind]
    rw [last,rest]
  obtain ⟨c₂,reach₂,same₂,prog₂⟩ := acts smash_pid prog₁ rfl
  have answers₂ : c₂.shared.coming = .freed text :: .killed true :: later := by rw [same₂,same₁]; exact answers
  obtain ⟨c₃,reach₃,same₃,prog₃⟩ := acts smash_pid prog₂ (freed_reads answers₂)
  obtain ⟨c₄,reach₄,same₄,prog₄⟩ := acts smash_pid prog₃ rfl
  have coming : c₄.shared.coming = .killed true :: later := by rw [same₄,same₃]
  obtain ⟨c₅,reach₅,same₅,prog₅⟩ := acts smash_pid prog₄ (kill_succeeds coming)
  refine ⟨front,j,c₅,split,below,⟨(((reach₁.trans reach₂).trans reach₃).trans reach₄).trans reach₅,?_,?_⟩,?_⟩
  · rw [same₅,same₄,same₃,same₂,same₁]
  · rw [same₅,same₄,same₃,same₂]
  · rw [prog₅]; rfl

theorem bg_resumes_largest (ordered : Ordered c.shared.vars.jobs) : BgResumesLargest smash_pid c := by
  intro next later i at_ among stopped answers
  obtain ⟨front,j,back,found,largest⟩ := max_id_stopped_job_spec ordered among stopped
  obtain ⟨c₁,reach₁,same₁,prog₁⟩ := acts smash_pid at_ rfl
  replace prog₁ : (c₁.thread ()).prog = bg_resume front j back >>= next := by
    rw [prog₁]
    dsimp only [Bind.bind,Prog.bind]
    rw [found]
  have coming : c₁.shared.coming = .killed true :: later := by rw [same₁]; exact answers
  obtain ⟨c₂,reach₂,same₂,prog₂⟩ := acts smash_pid prog₁ (kill_succeeds coming)
  obtain ⟨c₃,reach₃,same₃,prog₃⟩ := acts smash_pid prog₂ rfl
  obtain ⟨c₄,reach₄,same₄,prog₄⟩ := acts smash_pid prog₃ rfl
  refine ⟨front,j,back,c₄,largest,⟨((reach₁.trans reach₂).trans reach₃).trans reach₄,?_,?_⟩,prog₄⟩
  · rw [same₄,same₃,same₂,same₁]
  · rw [same₄]

/-- In every state the ids are in order; fg and bg without argument then pick the largest. -/
theorem job_ids_in_order (smash_pid : Pid) (coming : List Answer) (c : Config) (reached : Reachable smash_pid coming c) :
    Ordered c.shared.vars.jobs ∧ FgTakesLargest smash_pid c ∧ BgResumesLargest smash_pid c := by
  obtain ⟨x,steady,_⟩ := reachable_steady reached
  have ordered : Ordered c.shared.vars.jobs := by
    rw [steady.vars]
    exact steady.ids.ordered
  exact ⟨ordered,fg_takes_largest ordered,bg_resumes_largest ordered⟩

/-- A job in the background, then a command that ctrl-Z stops, then fg. -/
def stopping : List Answer :=
  [.typed (.line (.external "sleep 9" true)),.forked (some 7),.now 0,
    .typed (.line (.external "cat" false)),.waited 0,.forked (some 8),.pressed [.ctrl_z],.killed true,.now 3,.waited 0,.waited 8,
    .typed (.line (.fg [])),.waited 0,.waited 0,.freed "cat",.killed true]
theorem stopping_ends : (after 1 stopping 33).isSome = true := by decide
theorem job_ids_in_order_stopping :
    Ordered ((after 1 stopping 33).get stopping_ends).shared.vars.jobs ∧
      ∃ front j d, ((after 1 stopping 33).get stopping_ends).shared.vars.jobs = front ++ [j] ∧
        Resumes 1 ((after 1 stopping 33).get stopping_ends) j front d := by
  obtain ⟨ordered,fg,_⟩ := job_ids_in_order 1 stopping _ (reachable_after 1 stopping_ends)
  obtain ⟨front,j,d,split,_,resumes,_⟩ := fg (fun _ => .ret ()) "cat" [] rfl (by decide) rfl
  exact ⟨ordered,front,j,d,split,resumes⟩

end StructureOfOs.JobIds
