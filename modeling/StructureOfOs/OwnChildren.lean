import StructureOfOs.ShellFollows

/-!
Whose processes the shell works on. It knows a process from fork alone: what the list, the
foreground variable and the hand name has been returned by it, and a signal goes to nothing else.
-/
namespace StructureOfOs.OwnChildren
open StructureOfOs.Programs StructureOfOs.Plans StructureOfOs.Jobs StructureOfOs.Smash StructureOfOs.ShellSteps

section
variable (smash_pid : Pid) (known : Pid → Prop)

/-- Every process that is named somewhere is known. -/
structure Names (jobs : List Job) (fg : Pid) (hand : Hand) (entry : Entry) : Prop where
  listed : ∀ p ∈ pids jobs, known p
  front : fg ≠ smash_pid → known fg
  held : ∀ p ∈ hand.pids, known p
  entered : ∀ j ∈ entry.job, known j.process_id
  stopping : entry = .stopping → fg ≠ smash_pid
def Named (x : Sit) : Prop := Names smash_pid known x.vars.jobs x.vars.Fg_Proccss_Pid x.hand x.entry
end

variable {smash_pid pid fg : Pid} {known known' : Pid → Prop} {x : Sit} {jobs jobs' : List Job} {j : Job} {hand hand' : Hand}
  {entry entry' : Entry} {a : Act} {r : Res a} {later : Res a → Sit}

theorem named_start : Named smash_pid known (start smash_pid) :=
  ⟨fun _ => nofun,fun away => absurd rfl away,fun _ => nofun,fun _ => nofun,fun is => nomatch is⟩
theorem Named.mono (named : Named smash_pid known x) (more : ∀ p, known p → known' p) : Named smash_pid known' x where
  listed p among := more p (named.listed p among)
  front away := more _ (named.front away)
  held p among := more p (named.held p among)
  entered j is := more _ (named.entered j is)
  stopping := named.stopping

theorem Names.fewer (names : Names smash_pid known jobs fg hand entry) (fewer : Fewer jobs' jobs) :
    Names smash_pid known jobs' fg hand entry :=
  { names with listed := fun p among => names.listed p (fewer.pids.subset among) }
theorem Names.push (names : Names smash_pid known jobs fg hand entry) (is : entry.job = some j) :
    Names smash_pid known (jobs ++ [j]) fg hand entry :=
  { names with listed := fun p among => (mem_pids_snoc.mp among).elim (names.listed p) fun here => here ▸ names.entered j is }
theorem Names.hold (names : Names smash_pid known jobs fg hand entry) (all : ∀ p ∈ hand'.pids, known p) :
    Names smash_pid known jobs fg hand' entry :=
  { names with held := all }
theorem Names.enter (names : Names smash_pid known jobs fg hand entry) (all : ∀ j ∈ entry'.job, known j.process_id)
    (away : entry' = .stopping → fg ≠ smash_pid) : Names smash_pid known jobs fg hand entry' :=
  { names with entered := all, stopping := away }
/-- A process of the hand, or the shell, goes in front. -/
theorem Names.in_front (names : Names smash_pid known jobs fg hand entry) (clear : entry ≠ .stopping) (mine : pid ≠ smash_pid → known pid) :
    Names smash_pid known jobs pid hand entry :=
  { names with front := mine, stopping := fun is => absurd is clear }

/-- Every step names what has been known before, or what fork returns. -/
theorem step_named (named : Named smash_pid known x) (step : Step smash_pid x a later) (r : Res a)
    (born : ∀ p ∈ forks (takes a r), known p) :
    Named smash_pid known (later r) := by
  have held := named.held
  cases step with
  | quiet quiet => exact named
  | input rest prompt => cases r <;> exact named
  | drop split gone => exact named.fewer (by rw [split]; exact fewer_gone _ _ _)
  | mark split sent => exact named.fewer (by rw [split]; exact fewer_signalled _ _ _ _)
  | stop opened clear away =>
    dsimp only
    split
    · exact named.enter (fun _ => nofun) fun _ => away
    · exact named
  | note opened stopping =>
    refine named.enter ?_ nofun
    rintro j ⟨⟩
    exact named.front (named.stopping stopping)
  | enter opened stopped => exact (named.push (by rw [stopped]; rfl)).enter (fun _ => nofun) nofun
  | push empty launching => exact (named.push (by rw [launching]; rfl)).enter (fun _ => nofun) nofun
  | give_back opened entered => exact (named.in_front (by rw [entered]; nofun) fun away => absurd rfl away).enter (fun _ => nofun) nofun
  | take is empty clear split =>
    refine (named.fewer (by rw [split]; exact fewer_gone _ _ _)).hold fun p among => ?_
    rw [List.mem_singleton.mp among]
    exact named.listed _ (by rw [split]; exact mem_pids_middle.mpr (.inr rfl))
  | resume is taken =>
    refine named.hold fun p among => held p ?_
    rw [taken]
    cases r with
    | true => exact among
    | false => cases among
  | name_job is resumed => exact named.hold fun p among => held p (by rw [resumed]; exact among)
  | name_child is child => exact named.hold fun p among => held p (by rw [child]; exact among)
  | rename recalled clear => exact named.hold fun p among => held p (by rw [recalled]; exact among)
  | remember returned clear => exact named.hold fun p among => held p (by rw [returned]; exact among)
  | wait front => exact named.hold fun p among => held p (by rw [front]; exact among)
  | wait_behind is resumed =>
    refine named.hold fun p among => held p ?_
    rw [resumed]
    exact (List.mem_cons.mp among).elim (fun here => here ▸ List.mem_singleton_self _) id
  | wake waiting clear =>
    refine named.hold fun p among => held p ?_
    rename_i back
    rw [waiting]
    cases back with
    | none => cases among
    | some j => exact List.mem_cons_of_mem _ among
  | front is clear =>
    have mine := held _ (by rw [is]; exact List.mem_singleton_self _)
    exact (named.in_front (by rw [clear]; nofun) fun _ => mine).hold fun p among => held p (by rw [is]; exact among)
  | behind renamed clear =>
    have mine := held _ (by rw [renamed]; exact List.mem_singleton_self _)
    exact (named.in_front (by rw [clear]; nofun) fun _ => mine).hold fun _ => nofun
  | fork is empty clear =>
    cases r with
    | none => exact named
    | some pid =>
      refine named.hold fun p among => born p ?_
      dsimp only at among
      split_ifs at among
      · cases among
      · exact among
      · exact among
  | launch is launched clear =>
    refine (named.hold (by rintro p ⟨⟩)).enter ?_ nofun
    rintro j ⟨⟩
    exact held _ (by rw [launched]; exact List.mem_singleton_self _)
  | terminate is among empty =>
    dsimp only
    split
    · refine named.hold fun p here => ?_
      rw [List.mem_singleton.mp here]
      exact named.listed _ (List.mem_map_of_mem among)
    · exact named
  | force is ending =>
    dsimp only
    split
    · exact named
    · exact named.hold fun _ => nofun
  | erase is ending => exact (named.fewer (fewer_of_sublist (List.tail_sublist _))).hold fun _ => nofun
  | signal => dsimp only; split <;> exact named
  | poll => exact named
  | interrupt => exact named
  | reread => exact named
  | leave => exact named

/-- A signal goes to a process that is known, and the shell waits for no other. -/
theorem known_of_kill {sig : Int} {later : Bool → Sit} (named : Named smash_pid known x) (step : Step smash_pid x (.kill pid sig) later) :
    known pid := by
  have held := named.held
  cases step with
  | quiet quiet => exact quiet.elim
  | interrupt opened away => exact named.front away
  | stop opened clear away => exact named.front away
  | signal among is => exact named.listed _ among
  | resume is taken => exact held _ (by rw [taken]; exact List.mem_singleton_self _)
  | terminate is among empty => exact named.listed _ (List.mem_map_of_mem among)
  | force is ending => exact held _ (by rw [ending]; exact List.mem_singleton_self _)
theorem known_of_blocked {later : List Key → Sit} (named : Named smash_pid known x) (step : Step smash_pid x (.blocked pid) later) :
    known pid := by
  have held := named.held
  cases step with
  | quiet quiet => exact quiet.elim
  | wait front => exact held _ (by rw [front]; exact List.mem_singleton_self _)
  | wait_behind is resumed => exact held _ (by rw [resumed]; exact List.mem_singleton_self _)

section
variable (smash_pid : Pid)

/-- In this state, after these forks. -/
structure Keeps (s : Shared) (started : List Pid) (x : Sit) : Prop where
  vars : s.vars = x.vars
  named : Named smash_pid (· ∈ started) x
  signals : ∀ sent ∈ s.signals, sent.1 ∈ started
end

theorem keeps_step {s s' : Shared} {started : List Pid} (keeps : Keeps smash_pid s started x) (step : Step smash_pid x a later)
    (ran : run () a s = some (r,s')) : Answers x a r ∧ Keeps smash_pid s' (started ++ forks (takes a r)) (later r) := by
  obtain ⟨answers,vars⟩ := step_vars keeps.vars step ran
  refine ⟨answers,vars,?_,fun sent among => ?_⟩
  · exact step_named (keeps.named.mono fun p => List.mem_append_left _) step r fun p => List.mem_append_right _
  · rw [(run_effect ran).signals] at among
    rcases List.mem_append.mp among with before | new
    · exact List.mem_append_left _ (keeps.signals sent before)
    · refine List.mem_append_left _ ?_
      cases a with
      | kill pid sig =>
        cases r with
        | true =>
          rw [List.mem_singleton.mp new]
          exact known_of_kill keeps.named step
        | false => cases new
      | _ => cases new

end StructureOfOs.OwnChildren
