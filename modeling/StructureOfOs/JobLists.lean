import StructureOfOs.OwnChildren

/-!
What every step of the shell keeps of its list. The ids of the jobs are in order, and a job that
is still to be entered has a larger one. If fork returns no pid of a job, no process has two jobs,
and what the shell has in its hand, has in front, or is to enter is no job at the time.
-/
namespace StructureOfOs.JobLists
open StructureOfOs.Programs StructureOfOs.Plans StructureOfOs.Jobs StructureOfOs.Smash StructureOfOs.ShellSteps StructureOfOs.ShellFollows
open StructureOfOs.OwnChildren

/-- fork returns each pid once, and never the shell's. -/
structure Fresh (smash_pid : Pid) (coming : List Answer) : Prop where
  once : (forks coming).Nodup
  other : smash_pid ∉ forks coming

/-! ### Ids -/

/-- The ids are in order, and so will they be with the job that is to be entered. -/
structure Ids (jobs : List Job) (entry : Entry) : Prop where
  ordered : Ordered jobs
  positive : ∀ j ∈ entry.job, 0 < j.job_id
  above : ∀ j ∈ entry.job, ∀ i ∈ jobs, i.job_id < j.job_id

section
variable (smash_pid : Pid)

/-- No process has two jobs, the foreground process becomes a job only by ctrl-Z, and what is in
    the hand or launched is no job. -/
structure Tracked (jobs : List Job) (fg : Pid) (hand : Hand) (entry : Entry) : Prop where
  distinct : (pids jobs).Nodup
  front : entry ≠ .entered → fg ≠ smash_pid → fg ∉ pids jobs
  held : ∀ p, hand.held = some p → p ∉ pids jobs
  apart : ∀ p, hand.apart = some p → fg ≠ smash_pid → p ≠ fg
  stopped : ∀ j, entry = .stopped j → fg ≠ smash_pid ∧ j.process_id = fg
  stopping : entry = .stopping → fg ≠ smash_pid
  launching : ∀ j, entry = .launching j → hand.held = none ∧ j.process_id ∉ pids jobs ∧ (fg ≠ smash_pid → j.process_id ≠ fg)
def Tracks (x : Sit) : Prop := Tracked smash_pid x.vars.jobs x.vars.Fg_Proccss_Pid x.hand x.entry

/-- What fork may return: no job's pid, and for the background not the one in front either. -/
structure New (x : Sit) (pid : Pid) : Prop where
  job : pid ∉ pids x.vars.jobs
  front : (∃ command, x.doing = .line (.external command true)) → x.vars.Fg_Proccss_Pid ≠ smash_pid → pid ≠ x.vars.Fg_Proccss_Pid
end

variable {smash_pid pid fg : Pid} {jobs jobs' front back : List Job} {j : Job} {hand hand' : Hand} {entry entry' : Entry}
  {x : Sit} {a : Act} {r : Res a} {later : Res a → Sit}

theorem Ids.fewer (ids : Ids jobs entry) (fewer : Fewer jobs' jobs) : Ids jobs' entry where
  ordered := ids.ordered.shrink fewer
  positive := ids.positive
  above := by
    intro j is i among
    obtain ⟨k,there,same⟩ := fewer.mem among
    have below := ids.above j is k there
    simp only [Job.identity,Prod.mk.injEq] at same
    omega
theorem Ids.clear (ids : Ids jobs entry) (none_ : entry'.job = none) : Ids jobs entry' :=
  ⟨ids.ordered,fun _ is => absurd (none_.symm.trans is) nofun,fun _ is => absurd (none_.symm.trans is) nofun⟩
/-- The id after the last one is free. -/
theorem Ids.next (ids : Ids jobs entry) (is : entry'.job = some j) (id : j.job_id = last_id jobs + 1) : Ids jobs entry' := by
  obtain ⟨above_zero,largest⟩ := last_id_above ids.ordered
  refine ⟨ids.ordered,fun k same => ?_,fun k same i among => ?_⟩
  · cases is.symm.trans same
    omega
  · cases is.symm.trans same
    have below := largest i among
    omega
theorem Ids.push (ids : Ids jobs entry) (is : entry.job = some j) (none_ : entry'.job = none) : Ids (jobs ++ [j]) entry' :=
  have longer : Ids (jobs ++ [j]) .none := ⟨ids.ordered.snoc (ids.above j is) (ids.positive j is),fun _ => nofun,fun _ => nofun⟩
  longer.clear none_

theorem step_ids (ids : Ids x.vars.jobs x.entry) (step : Step smash_pid x a later) (r : Res a) :
    Ids (later r).vars.jobs (later r).entry := by
  cases step with
  | drop split gone => exact ids.fewer (by rw [split]; exact fewer_gone _ _ _)
  | mark split sent => exact ids.fewer (by rw [split]; exact fewer_signalled _ _ _ _)
  | take is empty clear split => exact ids.fewer (by rw [split]; exact fewer_gone _ _ _)
  | erase is ending => exact ids.fewer (fewer_of_sublist (List.tail_sublist _))
  | note opened stopping => exact ids.next rfl rfl
  | launch is launched clear => exact ids.next rfl rfl
  | enter opened stopped => exact ids.push (by rw [stopped]; rfl) rfl
  | push empty launching => exact ids.push (by rw [launching]; rfl) rfl
  | give_back opened entered => exact ids.clear rfl
  | stop opened clear away =>
    dsimp only
    split
    · exact ids.clear rfl
    · exact ids
  | input rest prompt => cases r <;> exact ids
  | fork is empty clear => cases r <;> exact ids
  | signal | terminate | force => dsimp only; split <;> exact ids
  | _ => exact ids

/-! ### Processes -/

theorem Tracked.fewer (tracked : Tracked smash_pid jobs fg hand entry) (fewer : Fewer jobs' jobs) :
    Tracked smash_pid jobs' fg hand entry where
  distinct := tracked.distinct.sublist fewer.pids
  front entered away among := tracked.front entered away (fewer.pids.subset among)
  held p is among := tracked.held p is (fewer.pids.subset among)
  apart := tracked.apart
  stopped := tracked.stopped
  stopping := tracked.stopping
  launching j is :=
    have ⟨empty,job,other⟩ := tracked.launching j is
    ⟨empty,fun among => job (fewer.pids.subset among),other⟩
/-- The hand holds the same process, or none. -/
theorem Tracked.keep (tracked : Tracked smash_pid jobs fg hand entry) (held : ∀ p, hand'.held = some p → hand.held = some p)
    (apart : ∀ p, hand'.apart = some p → hand.apart = some p) : Tracked smash_pid jobs fg hand' entry :=
  { tracked with
    held := fun p is => tracked.held p (held p is)
    apart := fun p is => tracked.apart p (apart p is)
    launching := fun j is => by
      obtain ⟨empty,single⟩ := tracked.launching j is
      exact ⟨Option.eq_none_iff_forall_ne_some.mpr fun p here => absurd (empty.symm.trans (held p here)) nofun,single⟩ }
/-- A job leaves the list for the hand. -/
theorem Tracked.take (tracked : Tracked smash_pid jobs fg hand entry) (clear : entry = .none) (split : jobs = front ++ j :: back) :
    Tracked smash_pid (front ++ back) fg (.taken j) entry := by
  subst clear
  have among : j.process_id ∈ pids jobs := by rw [split]; exact mem_pids_middle.mpr (.inr rfl)
  have fewer : Fewer (front ++ back) jobs := by rw [split]; exact fewer_gone front j back
  refine { tracked.fewer fewer with held := ?_, apart := ?_, launching := by rintro _ ⟨⟩ }
  · rintro p ⟨⟩
    have distinct := tracked.distinct
    rw [split,pids,List.map_append,List.map_cons] at distinct
    rw [pids,List.map_append]
    exact (List.nodup_middle.mp distinct).notMem
  · rintro p ⟨⟩ away same
    rw [same] at among
    exact tracked.front (by rintro ⟨⟩) away among
/-- A process that is no job goes in front. -/
theorem Tracked.in_front (tracked : Tracked smash_pid jobs fg hand entry) (clear : entry = .none) (held : hand.held = some pid)
    (empty : hand'.held = none) (apart : hand'.apart = none) : Tracked smash_pid jobs pid hand' entry := by
  subst clear
  exact {
    distinct := tracked.distinct
    front := fun _ _ => tracked.held pid held
    held := fun p is => absurd (empty.symm.trans is) nofun
    apart := fun p is => absurd (apart.symm.trans is) nofun
    stopped := fun _ => nofun
    stopping := nofun
    launching := fun _ => nofun }
/-- The foreground process becomes a job, and nothing else does meanwhile. -/
theorem Tracked.enter (tracked : Tracked smash_pid jobs fg hand (.stopped j)) (same : ∀ p, hand.held = some p → hand.apart = some p) :
    Tracked smash_pid (jobs ++ [j]) fg hand .entered := by
  obtain ⟨away,is_front⟩ := tracked.stopped j rfl
  have absent : j.process_id ∉ pids jobs := by
    rw [is_front]
    exact tracked.front nofun away
  refine {
    distinct := ?_
    front := fun other => absurd rfl other
    held := fun p is among => ?_
    apart := tracked.apart
    stopped := fun _ => nofun
    stopping := nofun
    launching := fun _ => nofun }
  · rw [pids,List.map_append,List.map_singleton,← List.concat_eq_append]
    exact tracked.distinct.concat absent
  · rcases mem_pids_snoc.mp among with before | here
    · exact tracked.held p is before
    · exact tracked.apart p (same p is) away (here.trans is_front)
theorem Tracked.give_back (tracked : Tracked smash_pid jobs fg hand .entered) : Tracked smash_pid jobs smash_pid hand .none where
  distinct := tracked.distinct
  front _ away := absurd rfl away
  held := tracked.held
  apart _ _ away := absurd rfl away
  stopped _ := nofun
  stopping := nofun
  launching _ := nofun
theorem Tracked.push (tracked : Tracked smash_pid jobs fg hand (.launching j)) (empty : hand = .empty) :
    Tracked smash_pid (jobs ++ [j]) fg hand .none := by
  subst empty
  obtain ⟨_,absent,other⟩ := tracked.launching j rfl
  refine {
    distinct := ?_
    front := fun _ away among => ?_
    held := fun _ => nofun
    apart := fun _ => nofun
    stopped := fun _ => nofun
    stopping := nofun
    launching := fun _ => nofun }
  · rw [pids,List.map_append,List.map_singleton,← List.concat_eq_append]
    exact tracked.distinct.concat absent
  · rcases mem_pids_snoc.mp among with before | here
    · exact tracked.front (by rintro ⟨⟩) away before
    · exact other away here.symm
/-- fork returns a process that is no job. -/
theorem Tracked.born (tracked : Tracked smash_pid jobs fg hand entry) (clear : entry = .none)
    (held : ∀ p, hand'.held = some p → p ∉ pids jobs) (apart : ∀ p, hand'.apart = some p → fg ≠ smash_pid → p ≠ fg) :
    Tracked smash_pid jobs fg hand' entry := by
  subst clear
  exact { tracked with held := held, apart := apart, launching := fun _ => nofun }

theorem step_tracks (tracks : Tracks smash_pid x) (step : Step smash_pid x a later) (new : ∀ p ∈ forks (takes a r), New smash_pid x p) :
    Tracks smash_pid (later r) := by
  cases step with
  | quiet quiet => exact tracks
  | input rest prompt => cases r <;> exact tracks
  | drop split gone => exact tracks.fewer (by rw [split]; exact fewer_gone _ _ _)
  | mark split sent => exact tracks.fewer (by rw [split]; exact fewer_signalled _ _ _ _)
  | stop opened clear away =>
    dsimp only
    split
    · exact { tracks with
        front := fun _ => tracks.front (by rw [clear]; nofun)
        stopped := fun _ => nofun
        stopping := fun _ => away
        launching := fun _ => nofun }
    · exact tracks
  | note opened stopping =>
    have away := tracks.stopping stopping
    refine { tracks with
      front := fun _ => tracks.front (by rw [stopping]; nofun)
      stopped := ?_
      stopping := nofun
      launching := fun _ => nofun }
    rintro j ⟨⟩
    exact ⟨away,rfl⟩
  | enter opened stopped =>
    rw [Tracks,stopped] at tracks
    refine tracks.enter fun p held => ?_
    -- Where the handlers run, what is held has come from the list.
    rcases opened.hand with ⟨_,empty⟩ | ⟨pid,back,waiting⟩ | ⟨pid,ending⟩
    · rw [empty] at held
      cases held
    · rw [waiting] at held ⊢
      cases back with
      | none => cases held
      | some j => exact held
    · rw [ending] at held
      cases held
  | give_back opened entered =>
    rw [Tracks,entered] at tracks
    exact tracks.give_back
  | take is empty clear split => exact tracks.take clear split
  | resume is taken =>
    rw [Tracks,taken] at tracks
    cases r with
    | true => exact tracks.keep (fun p held => held) fun p apart => apart
    | false => exact tracks.keep (fun p => nofun) fun p => nofun
  | name_job is resumed =>
    rw [Tracks,resumed] at tracks
    exact tracks.keep (fun p held => held) fun p => nofun
  | name_child is child =>
    rw [Tracks,child] at tracks
    exact tracks.keep (fun p held => held) fun p => nofun
  | remember returned clear =>
    rw [Tracks,returned] at tracks
    exact tracks.keep (fun p held => held) fun p apart => apart
  | rename recalled clear =>
    rw [Tracks,recalled] at tracks
    exact tracks.keep (fun p held => held) fun p apart => apart
  | wait_behind is resumed =>
    rw [Tracks,resumed] at tracks
    exact tracks.keep (fun p held => held) fun p apart => apart
  | wait front => exact tracks.keep (fun p => nofun) fun p => nofun
  | wake waiting clear =>
    rename_i back
    rw [Tracks,waiting] at tracks
    cases back with
    | none => exact tracks.keep (fun p => nofun) fun p => nofun
    | some j => exact tracks.keep (fun p held => held) fun p apart => apart
  | front named clear => exact tracks.in_front clear (by rw [named]; rfl) rfl rfl
  | behind renamed clear => exact tracks.in_front clear (by rw [renamed]; rfl) rfl rfl
  | fork is empty clear =>
    rename_i command in_bg
    cases r with
    | none => exact tracks
    | some pid =>
      obtain ⟨job,other⟩ := new pid (List.mem_singleton_self pid)
      refine tracks.born clear (fun p held => ?_) fun p apart => ?_
      · dsimp only at held
        split_ifs at held
        · cases held
        · cases held
          exact job
        · cases held
          exact job
      · dsimp only at apart
        split_ifs at apart with bg full
        · cases apart
        · cases apart
          exact other ⟨command,by rw [is,bg]⟩
        · cases apart
  | launch is launched clear =>
    have absent := tracks.held _ (by rw [launched]; rfl)
    have other := tracks.apart _ (by rw [launched]; rfl)
    refine { tracks with
      front := fun _ => tracks.front (by rw [clear]; nofun)
      held := fun _ => nofun
      apart := fun _ => nofun
      stopped := fun _ => nofun
      stopping := nofun
      launching := ?_ }
    rintro j ⟨⟩
    exact ⟨rfl,absent,other⟩
  | push empty launching =>
    rw [Tracks,launching] at tracks
    exact tracks.push empty
  | terminate is among empty =>
    dsimp only
    split
    · exact tracks.keep (fun p => nofun) fun p => nofun
    · exact tracks
  | force is ending =>
    dsimp only
    split
    · exact tracks
    · exact tracks.keep (fun p => nofun) fun p => nofun
  | erase is ending => exact (tracks.fewer (fewer_of_sublist (List.tail_sublist _))).keep (fun p => nofun) fun p => nofun
  | signal => dsimp only; split <;> exact tracks
  | poll => exact tracks
  | interrupt => exact tracks
  | reread => exact tracks
  | leave => exact tracks
theorem tracks_start : Tracks smash_pid (start smash_pid) where
  distinct := List.nodup_nil
  front _ away := absurd rfl away
  held _ := nofun
  apart _ := nofun
  stopped _ := nofun
  stopping := nofun
  launching _ := nofun

/-! ### Every run -/

/-- What the state and the situation keep. If fork returns new pids only, no process that is still
    to be born is named anywhere. -/
structure Steady (smash_pid : Pid) (coming : List Answer) (s : Shared) (x : Sit) : Prop where
  vars : s.vars = x.vars
  ids : Ids x.vars.jobs x.entry
  fresh : Fresh smash_pid coming → Fresh smash_pid s.coming
  named : Fresh smash_pid coming → Named smash_pid (· ∉ forks s.coming) x
  tracks : Fresh smash_pid coming → Tracks smash_pid x

theorem steady_keeps (smash_pid : Pid) (coming : List Answer) :
    (plan smash_pid).Keeps ((smash smash_pid).run ()) (Steady smash_pid coming) := by
  intro s x a later r s' steady step ran
  obtain ⟨answers,vars⟩ := step_vars steady.vars step ran
  have born : forks s.coming = forks (takes a r) ++ forks s'.coming := by
    rw [(run_effect ran).coming,forks,List.filterMap_append]
    rfl
  refine ⟨answers,vars,step_ids steady.ids step r,fun fresh => ?_,fun fresh => ?_,fun fresh => ?_⟩
  · obtain ⟨once,other⟩ := steady.fresh fresh
    rw [born] at once other
    exact ⟨once.of_append_right,fun among => other (List.mem_append_right _ among)⟩
  · have once := (steady.fresh fresh).once
    rw [born] at once
    have known : Named smash_pid (· ∉ forks s'.coming) x :=
      (steady.named fresh).mono fun p unborn among => unborn (born ▸ List.mem_append_right _ among)
    exact step_named known step r fun p among later => List.disjoint_of_nodup_append once among later
  · refine step_tracks (steady.tracks fresh) step fun p among => ?_
    have unborn : p ∈ forks s.coming := born ▸ List.mem_append_left _ among
    have named := steady.named fresh
    refine ⟨fun listed => named.listed p listed unborn,fun _ away same => ?_⟩
    exact named.front away (same ▸ unborn)
/-- What holds in every state that the shell reaches. -/
theorem reachable_steady {coming : List Answer} {c : Smash.Config} (reached : Reachable smash_pid coming c) :
    (plan smash_pid).Holds Loop (Steady smash_pid coming) c := by
  refine shell_keeps rfl (steady_keeps smash_pid coming) ?_ ?_ reached
  · rintro s x ⟨vars,ids,fresh,named,tracks⟩ _
    refine ⟨vars,ids,fresh,fun new => ?_,tracks⟩
    exact ⟨(named new).listed,(named new).front,(named new).held,(named new).entered,(named new).stopping⟩
  · refine ⟨start smash_pid,⟨rfl,⟨ordered_nil,fun _ => nofun,fun _ => nofun⟩,id,fun _ => named_start,fun _ => tracks_start⟩,?_⟩
    exact start_rest smash_pid

end StructureOfOs.JobLists
