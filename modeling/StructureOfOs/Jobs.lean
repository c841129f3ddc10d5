import Mathlib.Data.List.Basic
import Mathlib.Data.List.Induction
import Mathlib.Data.List.Nodup
import Mathlib.Order.Basic

/-!
The shell's list of jobs and the ways in which its functions look jobs up: the last
one, the first one with an id, and the stopped one with the largest id. Reading an id
where there is no last job gives 0, the size of the empty list.
-/
namespace StructureOfOs.Jobs

abbrev Pid := Int
def BACKGROUND_STATE : Nat := 2
def STOP_STATE : Nat := 3

structure Job where
  job_id : Int
  command : String
  process_id : Pid
  inserted_to_list_time : Int
  state : Nat
deriving DecidableEq, Repr

def pids (jobs : List Job) : List Pid := jobs.map Job.process_id
/-- The id read through the iterator one before `jobs.end()`. -/
def last_id (jobs : List Job) : Int := (jobs.getLast?.map Job.job_id).getD 0
/-- The loop that looks for an id, with the jobs before and after the one it finds. -/
def find_id (id : Int) : List Job → Option (List Job × Job × List Job)
  | [] => none
  | j :: jobs => if j.job_id = id then some ([],j,jobs) else (find_id id jobs).map fun (front,k,back) => (j :: front,k,back)
/-- The iterator `max_id_stopped_job` after the loop of bg, with what lies around it. A later
    stopped job replaces the one found so far when its id is larger. -/
def max_id_stopped_job : List Job → Option (List Job × Job × List Job) :=
  loop none []
where
  loop (found : Option (List Job × Job × List Job)) (front : List Job) : List Job → Option (List Job × Job × List Job)
    | [] => found
    | j :: jobs =>
      let here := (front,j,jobs)
      let found := if j.state = STOP_STATE then
          match found with
          | none => some here
          | some (_,best,_) => if best.job_id < j.job_id then some here else found
        else found
      loop found (front ++ [j]) jobs

variable {jobs jobs' front back : List Job} {j : Job} {id : Int}

theorem mem_pids_snoc {p : Pid} : p ∈ pids (jobs ++ [j]) ↔ p ∈ pids jobs ∨ p = j.process_id := by
  simp [pids]
theorem mem_pids_middle {p : Pid} : p ∈ pids (front ++ j :: back) ↔ p ∈ pids (front ++ back) ∨ p = j.process_id := by
  simp only [pids,List.map_append,List.map_cons,List.mem_append,List.mem_cons]
  tauto

theorem find_id_some (found : find_id id jobs = some (front,j,back)) : jobs = front ++ j :: back ∧ j.job_id = id := by
  induction jobs generalizing front with
  | nil => cases found
  | cons k jobs ih =>
    rw [find_id] at found
    split at found
    · cases found
      exact ⟨rfl,‹_›⟩
    · obtain ⟨⟨front',j',back'⟩,rest,same⟩ := Option.map_eq_some_iff.mp found
      cases same
      obtain ⟨split,named⟩ := ih rest
      exact ⟨by rw [split]; rfl,named⟩

theorem find_id_none (missing : find_id id jobs = none) : ∀ j ∈ jobs, j.job_id ≠ id := by
  induction jobs with
  | nil => simp
  | cons k jobs ih =>
    rw [find_id] at missing
    split at missing
    · cases missing
    · rename_i other
      have rest : ∀ j ∈ jobs, j.job_id ≠ id := ih (Option.map_eq_none_iff.mp missing)
      intro j among
      cases among with
      | head => exact other
      | tail _ later => exact rest j later

/-! ### Jobs that go -/

/-- What of a job stays for good. -/
def Job.identity (j : Job) : Int × String × Pid := (j.job_id,j.command,j.process_id)
/-- Jobs go, or change their states. -/
def Fewer (jobs' jobs : List Job) : Prop := (jobs'.map Job.identity).Sublist (jobs.map Job.identity)

theorem fewer_of_sublist (sub : jobs'.Sublist jobs) : Fewer jobs' jobs := sub.map _
theorem fewer_state (front : List Job) (j : Job) (state : Nat) (back : List Job) :
    Fewer (front ++ { j with state := state } :: back) (front ++ j :: back) := by
  simp [Fewer,Job.identity]
theorem fewer_gone (front : List Job) (j : Job) (back : List Job) : Fewer (front ++ back) (front ++ j :: back) :=
  fewer_of_sublist ((List.sublist_cons_self j back).append_left front)
theorem Fewer.refl (jobs : List Job) : Fewer jobs jobs := List.Sublist.refl _
theorem Fewer.mem (fewer : Fewer jobs' jobs) (among : j ∈ jobs') : ∃ i ∈ jobs, i.identity = j.identity :=
  List.mem_map.mp (fewer.subset (List.mem_map_of_mem among))
theorem Fewer.ids (fewer : Fewer jobs' jobs) : (jobs'.map Job.job_id).Sublist (jobs.map Job.job_id) := by
  have mapped := fewer.map Prod.fst
  simpa [List.map_map,Function.comp_def,Job.identity] using mapped
theorem Fewer.pids (fewer : Fewer jobs' jobs) : (pids jobs').Sublist (pids jobs) := by
  have mapped := fewer.map fun identity => identity.2.2
  simpa [List.map_map,Function.comp_def,Job.identity,Jobs.pids] using mapped

/-! ### Ids in order -/

/-- The ids are positive and go up from front to back. -/
structure Ordered (jobs : List Job) : Prop where
  positive : ∀ j ∈ jobs, 0 < j.job_id
  increasing : jobs.Pairwise fun i j => i.job_id < j.job_id

theorem ordered_nil : Ordered [] := ⟨by simp,.nil⟩
/-- Only the ids matter, and some may go. -/
theorem Ordered.shrink (ordered : Ordered jobs) (less : Fewer jobs' jobs) : Ordered jobs' := by
  have fewer := less.ids
  constructor
  · intro j among
    obtain ⟨k,there,named⟩ := List.mem_map.mp (fewer.subset (List.mem_map_of_mem among))
    rw [← named]
    exact ordered.positive k there
  · have ids : (jobs.map Job.job_id).Pairwise (· < ·) := List.pairwise_map.mpr ordered.increasing
    exact List.pairwise_map.mp (ids.sublist fewer)
theorem Ordered.snoc (ordered : Ordered jobs) (above : ∀ i ∈ jobs, i.job_id < j.job_id) (positive : 0 < j.job_id) :
    Ordered (jobs ++ [j]) := by
  constructor
  · intro i among
    rcases List.mem_append.mp among with before | last
    · exact ordered.positive i before
    · rw [List.mem_singleton.mp last]; exact positive
  · refine List.pairwise_append.mpr ⟨ordered.increasing,List.pairwise_singleton _ _,fun i before k last => ?_⟩
    rw [List.mem_singleton.mp last]
    exact above i before
theorem last_id_above (ordered : Ordered jobs) : 0 ≤ last_id jobs ∧ ∀ i ∈ jobs, i.job_id ≤ last_id jobs := by
  induction jobs using List.reverseRecOn with
  | nil => exact ⟨by simp [last_id],by simp⟩
  | append_singleton front j _ =>
    have last : last_id (front ++ [j]) = j.job_id := by simp [last_id]
    rw [last]
    refine ⟨Int.le_of_lt (ordered.positive j (by simp)),fun i among => ?_⟩
    rcases List.mem_append.mp among with before | here
    · exact Int.le_of_lt ((List.pairwise_append.mp ordered.increasing).2.2 i before j (by simp))
    · exact Int.le_of_eq (by rw [List.mem_singleton.mp here])
/-- The ids around a job differ from its own. -/
theorem ordered_around (ordered : Ordered (front ++ j :: back)) {i : Job} (among : i ∈ front ++ back) :
    i.job_id ≠ j.job_id := by
  obtain ⟨_,later,across⟩ := List.pairwise_append.mp ordered.increasing
  rcases List.mem_append.mp among with before | after
  · exact Int.ne_of_lt (across i before j List.mem_cons_self)
  · exact Int.ne_of_gt ((List.pairwise_cons.mp later).1 i after)

/-! ### The stopped job with the largest id -/

/-- The job between the two parts is stopped, and has a larger id than the other stopped ones. -/
structure MaxStopped (jobs front : List Job) (j : Job) (back : List Job) : Prop where
  split : jobs = front ++ j :: back
  stopped : j.state = STOP_STATE
  largest : ∀ i ∈ front ++ back, i.state = STOP_STATE → i.job_id < j.job_id

/-- What the loop has found among the jobs that it has seen. -/
def Best (jobs seen : List Job) : Option (List Job × Job × List Job) → Prop
  | none => ∀ i ∈ seen, i.state ≠ STOP_STATE
  | some (front,j,back) => jobs = front ++ j :: back ∧ j.state = STOP_STATE ∧
      ∀ i ∈ seen, i.state = STOP_STATE → i.job_id ≤ j.job_id

theorem best_loop {seen rest : List Job} {found : Option (List Job × Job × List Job)} (best : Best jobs seen found)
    (split : jobs = seen ++ rest) : Best jobs jobs (max_id_stopped_job.loop found seen rest) := by
  induction rest generalizing seen found with
  | nil =>
    rw [List.append_nil] at split
    rw [← split] at best
    exact best
  | cons j rest ih =>
    refine ih ?_ (by rw [split]; simp)
    by_cases stopped : j.state = STOP_STATE
    · cases found with
      | none =>
        rw [if_pos stopped]
        refine ⟨split,stopped,fun i among also => ?_⟩
        rcases List.mem_append.mp among with before | here
        · exact absurd also (best i before)
        · exact Int.le_of_eq (by rw [List.mem_singleton.mp here])
      | some at_ =>
        obtain ⟨front,b,back⟩ := at_
        obtain ⟨parts,halted,largest⟩ := best
        simp only [if_pos stopped]
        by_cases more : b.job_id < j.job_id
        · rw [if_pos more]
          refine ⟨split,stopped,fun i among also => ?_⟩
          rcases List.mem_append.mp among with before | here
          · exact Int.le_trans (largest i before also) (Int.le_of_lt more)
          · exact Int.le_of_eq (by rw [List.mem_singleton.mp here])
        · rw [if_neg more]
          refine ⟨parts,halted,fun i among also => ?_⟩
          rcases List.mem_append.mp among with before | here
          · exact largest i before also
          · rw [List.mem_singleton.mp here]; exact Int.not_lt.mp more
    · rw [if_neg stopped]
      cases found with
      | none =>
        intro i among
        rcases List.mem_append.mp among with before | here
        · exact best i before
        · rw [List.mem_singleton.mp here]; exact stopped
      | some at_ =>
        obtain ⟨front,b,back⟩ := at_
        refine ⟨best.1,best.2.1,fun i among also => ?_⟩
        rcases List.mem_append.mp among with before | here
        · exact best.2.2 i before also
        · rw [List.mem_singleton.mp here] at also; exact absurd also stopped

theorem max_id_stopped_job_best (jobs : List Job) : Best jobs jobs (max_id_stopped_job jobs) :=
  best_loop (show Best jobs [] none by simp [Best]) rfl
theorem max_id_stopped_job_some (found : max_id_stopped_job jobs = some (front,j,back)) :
    jobs = front ++ j :: back ∧ j.state = STOP_STATE := by
  have best := max_id_stopped_job_best jobs
  rw [found] at best
  exact ⟨best.1,best.2.1⟩
/-- With ids in order it is the stopped job with the largest id, if one is stopped. -/
theorem max_id_stopped_job_spec (ordered : Ordered jobs) {i : Job} (among : i ∈ jobs) (stopped : i.state = STOP_STATE) :
    ∃ front j back, max_id_stopped_job jobs = some (front,j,back) ∧ MaxStopped jobs front j back := by
  have best := max_id_stopped_job_best jobs
  cases found : max_id_stopped_job jobs with
  | none =>
    rw [found] at best
    exact absurd stopped (best i among)
  | some at_ =>
    obtain ⟨front,j,back⟩ := at_
    rw [found] at best
    obtain ⟨split,halted,largest⟩ := best
    refine ⟨front,j,back,rfl,⟨split,halted,fun k around also => ?_⟩⟩
    have there : k ∈ jobs := by
      rw [split]
      rcases List.mem_append.mp around with before | after
      · exact List.mem_append_left _ before
      · exact List.mem_append_right _ (List.mem_cons_of_mem _ after)
    rw [split] at ordered
    have different := ordered_around ordered around
    have below := largest k there also
    omega

end StructureOfOs.Jobs
