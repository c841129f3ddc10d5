import StructureOfOs.OwnChildren
import StructureOfOs.Recordings

/-!
The shell with a ledger. It notes the line under way, whether a ctrl-Z has stopped the
process that the shell waits for, and which processes the shell has to mind: those that
were launched with & or stopped by ctrl-Z, until fg brings them back. Three marks say
whether every step so far met a condition: `truthful` on waitpid's answers, `tidy` on how
the foreground is left, and `careful` on how entries leave the list. What the foreground
variable and the list are then good for is kept by every step of the shell.
-/
namespace StructureOfOs.ShellLedger
open StructureOfOs.Programs StructureOfOs.Plans StructureOfOs.Recordings StructureOfOs.Jobs StructureOfOs.Smash
open StructureOfOs.ShellSteps StructureOfOs.ShellFollows StructureOfOs.OwnChildren

/-- Which processes have not terminated, when so many answers of the environment are left. -/
abbrev Children := Nat → Pid → Bool
/-- What has terminated stays so, unless fork gives its pid to a new process. -/
def Persist (lives : Children) (coming : List Answer) : Prop :=
  ∀ answer later p, answer :: later <:+ coming → lives later.length p = true →
    lives (later.length + 1) p = true ∨ answer = .forked (some p)

/-- What is noted: the line under way, whether ctrl-Z has stopped a process since the last wait
    began, the processes to mind, those that quit has erased, and the three marks. -/
structure Ledger where
  doing : Option Command
  halted : Bool
  minded : List Pid
  erased : List Pid
  truthful : Bool
  tidy : Bool
  careful : Bool

namespace Ledger
def empty : Ledger := ⟨none,false,[],[],true,true,true⟩

/-- The line under way is a kill, an fg, a quit, or to be run in the background. -/
def killing (L : Ledger) : Bool := L.doing matches some (.kill _)
def resuming (L : Ledger) : Bool := L.doing matches some (.fg _)
def quitting (L : Ledger) : Bool := L.doing matches some (.quit _)
def launching (L : Ledger) : Bool := L.doing matches some (.external _ true)

/-- The signals after which the kill command takes an entry out. -/
def ends (sig : Int) : Bool := sig = SIGKILL ∨ sig = SIGBUS ∨ sig = SIGHUP ∨ sig = SIGTERM ∨ sig = SIGINT

/-- A signal has been sent. `tidy` excludes an fg without an id, `careful` an entry that the
    kill command takes out while its process lives. -/
def sent (L : Ledger) (pid : Pid) (sig : Int) (alive : Bool) : Ledger :=
  if L.killing then { L with careful := L.careful && !(ends sig && alive) }
  else if sig = SIGSTOP then { L with halted := true, minded := pid :: L.minded }
  else if sig = SIGCONT then { L with tidy := L.tidy && L.doing ≠ some (.fg []) }
  else L
/-- A signal has not been sent. `careful` excludes an fg that fails while the process lives, and
    a quit that is given up while a process that it has erased lives. -/
def refused (L : Ledger) (sig : Int) (alive : Bool) (left_alive : Bool) : Ledger :=
  if L.quitting ∧ sig ≠ SIGSTOP then { L with careful := L.careful && !left_alive }
  else if L.resuming ∧ sig = SIGCONT then { L with careful := L.careful && !alive }
  else L

/-- What an action adds, by the variables before it and the processes alive after it. `truthful`
    excludes a `WNOHANG` that does not answer 0 for a process that lives, `tidy` a wait that
    ends without a ctrl-Z, `careful` a launch that finds no room. -/
def log (vars : Vars) (alive : Pid → Bool) : (a : Act) → Res a → Ledger → Ledger
  | .input, .key _, L => { L with doing := none, erased := [] }
  | .input, .line command, L => { L with doing := some command, erased := [] }
  | .blocked pid, _, L => { L with halted := false, minded := L.minded.filter (· ≠ pid) }
  | .kill pid sig, true, L => L.sent pid sig (alive pid)
  | .kill pid sig, false, L => L.refused sig (alive pid) (L.erased.any alive)
  | .waitpid pid .WNOHANG, r, L => { L with truthful := L.truthful && (r = 0 || !alive pid) }
  | .waitpid _ .WUNTRACED, _, L => { L with tidy := L.tidy && L.halted }
  | .fork, some pid, L =>
    if L.launching then
      { L with minded := pid :: L.minded, careful := L.careful && (vars.jobs.length < MAX_JOBS || !alive pid) }
    else L
  | .set_jobs jobs, _, L =>
    if L.quitting then { L with erased := L.erased ++ (pids vars.jobs).filter (· ∉ pids jobs) } else L
  | _, _, L => L
end Ledger

/-- The shell's ledger. -/
def note (lives : Children) : Note Unit Shared Ledger Act Res :=
  fun _ a r s L => L.log s.vars (lives (s.coming.length - 1)) a r
/-- The states of the shell with these answers of its environment, and its ledger. -/
def Recorded (smash_pid : Pid) (lives : Children) (coming : List Answer)
    (c : Programs.Config Unit (Shared × Ledger) Act Res Unit) : Prop :=
  (recording (smash smash_pid) (note lives)).Reaches (attach (initial smash_pid coming) Ledger.empty) c
/-- The shell and its ledger after so many steps. -/
def recorded_after (smash_pid : Pid) (lives : Children) (coming : List Answer) (steps : Nat) :
    Option (Programs.Config Unit (Shared × Ledger) Act Res Unit) :=
  (recording (smash smash_pid) (note lives)).runs (List.replicate steps ()) (attach (initial smash_pid coming) Ledger.empty)
theorem recorded_of_after {smash_pid : Pid} {lives : Children} {coming : List Answer} {steps : Nat}
    (ran : (recorded_after smash_pid lives coming steps).isSome = true) :
    Recorded smash_pid lives coming (Option.get _ ran) :=
  ⟨List.replicate steps (),(Option.some_get ran).symm⟩

variable {smash_pid p : Pid} {lives : Children} {coming : List Answer} {s s' : Shared} {L : Ledger} {x : Sit} {a : Act} {r : Res a}
  {later : Res a → Sit} {vars : Vars} {alive : Pid → Bool}

/-! ### What an action adds -/

/-- Marks are only taken away, and what quit has erased is forgotten only at the prompt. -/
structure Marks (L L' : Ledger) : Prop where
  truthful : L'.truthful = true → L.truthful = true
  tidy : L'.tidy = true → L.tidy = true
  careful : L'.careful = true → L.careful = true

theorem marks_log (vars : Vars) (alive : Pid → Bool) (a : Act) (r : Res a) (L : Ledger) : Marks L (L.log vars alive a r) := by
  have refl : Marks L L := ⟨id,id,id⟩
  cases a with
  | input => cases r <;> exact ⟨id,id,id⟩
  | blocked pid => exact ⟨id,id,id⟩
  | kill pid sig =>
    cases r with
    | true =>
      simp only [Ledger.log,Ledger.sent]
      split_ifs
      · exact ⟨id,id,by simp; tauto⟩
      · exact ⟨id,id,id⟩
      · exact ⟨id,by simp; tauto,id⟩
      · exact refl
    | false =>
      simp only [Ledger.log,Ledger.refused]
      split_ifs
      · exact ⟨id,id,by simp; tauto⟩
      · exact ⟨id,id,by simp; tauto⟩
      · exact refl
  | waitpid pid options =>
    cases options with
    | WNOHANG => exact ⟨by simp [Ledger.log]; tauto,id,id⟩
    | WUNTRACED => exact ⟨id,by simp [Ledger.log]; tauto,id⟩
  | fork =>
    cases r with
    | none => exact refl
    | some pid =>
      simp only [Ledger.log]
      split_ifs
      · exact ⟨id,id,by simp; tauto⟩
      · exact refl
  | set_jobs jobs =>
    simp only [Ledger.log]
    split_ifs
    · exact ⟨id,id,id⟩
    · exact refl
  | _ => exact refl
theorem log_erased (other : a ≠ .input) (erased : p ∈ L.erased) : p ∈ (L.log vars alive a r).erased := by
  cases a with
  | input => exact absurd rfl other
  | kill pid sig =>
    cases r with
    | true => simp only [Ledger.log,Ledger.sent]; split_ifs <;> exact erased
    | false => simp only [Ledger.log,Ledger.refused]; split_ifs <;> exact erased
  | waitpid pid options => cases options <;> exact erased
  | fork =>
    cases r with
    | none => exact erased
    | some pid => simp only [Ledger.log]; split_ifs <;> exact erased
  | set_jobs jobs =>
    simp only [Ledger.log]
    split_ifs
    · exact List.mem_append_left _ erased
    · exact erased
  | _ => exact erased
theorem log_doing (other : a ≠ .input) : (L.log vars alive a r).doing = L.doing := by
  cases a with
  | input => exact absurd rfl other
  | kill pid sig =>
    cases r with
    | true => simp only [Ledger.log,Ledger.sent]; split_ifs <;> rfl
    | false => simp only [Ledger.log,Ledger.refused]; split_ifs <;> rfl
  | waitpid pid options => cases options <;> rfl
  | fork =>
    cases r with
    | none => rfl
    | some pid => simp only [Ledger.log]; split_ifs <;> rfl
  | set_jobs jobs => simp only [Ledger.log]; split_ifs <;> rfl
  | _ => rfl

/-- A process that lives after an action has lived before it, or fork has just returned it. -/
theorem lived_before (persist : Persist lives coming) (suffix : s.coming <:+ coming) (effect : Effect s a r s')
    (alive : lives s'.coming.length p = true) : lives s.coming.length p = true ∨ p ∈ forks (takes a r) := by
  have takes_one : takes a r = [] ∨ ∃ answer, takes a r = [answer] := by
    cases a <;> first | exact .inl rfl | exact .inr ⟨_,rfl⟩
  rcases takes_one with none_ | ⟨answer,one⟩
  · rw [effect.coming,none_]
    exact .inl alive
  · have first : s.coming = answer :: s'.coming := by rw [effect.coming,one,List.singleton_append]
    rw [first] at suffix ⊢
    refine (persist answer s'.coming p suffix alive).imp id ?_
    rintro rfl
    rw [one]
    exact List.mem_singleton_self p

/-! ### The line under way -/

section
variable (coming : List Answer)

/-- The situation has the shell's variables and the ledger's line. -/
structure Agrees (s : Shared) (L : Ledger) (x : Sit) : Prop where
  vars : s.vars = x.vars
  suffix : s.coming <:+ coming
  key : x.doing = .key → L.doing = none
  line : ∀ c, x.doing = .line c → L.doing = some c
end

theorem agrees_step (agrees : Agrees coming s L x) (step : Step smash_pid x a later) (ran : run () a s = some (r,s')) :
    Answers x a r ∧ Agrees coming s' (note lives () a r s L) (later r) := by
  obtain ⟨answers,vars⟩ := step_vars agrees.vars step ran
  have suffix : s'.coming <:+ s.coming := ⟨takes a r,(run_effect ran).coming.symm⟩
  by_cases input : a = .input
  · subst input
    cases step with
    | quiet quiet => exact quiet.elim
    | input rest prompt =>
      refine ⟨answers,vars,suffix.trans agrees.suffix,?_,?_⟩
      · cases r with
        | key key => exact fun _ => rfl
        | line c => exact nofun
      · cases r with
        | key key => exact fun _ => nofun
        | line c =>
          rintro _ ⟨⟩
          rfl
  · have doing : (note lives () a r s L).doing = L.doing := log_doing input
    refine ⟨answers,vars,suffix.trans agrees.suffix,?_,?_⟩
    · rw [doing]
      rcases step_doing (r := r) step input with same | past
      · rw [same]; exact agrees.key
      · rw [past]; exact nofun
    · rw [doing]
      rcases step_doing (r := r) step input with same | past
      · rw [same]; exact agrees.line
      · rw [past]; exact fun _ => nofun
theorem Agrees.unkilled (agrees : Agrees coming s L x) (opened : x.Open) : L.killing = false := by
  rcases opened.doing with key | ⟨c,line,other⟩
  · rw [Ledger.killing,agrees.key key]
  · rw [Ledger.killing,agrees.line c line]
    cases c with
    | kill args => exact absurd rfl (other args)
    | _ => rfl

/-! ### The foreground -/

/-- What a tidy shell has in front, by what it has in its hand. -/
def Places (smash_pid fg : Pid) (doing : Doing) (entry : Entry) (halted : Bool) : Hand → Prop
  | .empty | .launched _ | .child _ | .taken _ | .ending _ => fg = smash_pid
  | .resumed _ => fg = smash_pid ∧ doing ≠ .line (.fg [])
  | .named _ => True
  | .front pid => fg = pid
  | .waiting _ none => entry = .none → halted = true → fg = smash_pid
  | .waiting _ (some _) | .returned _ | .recalled _ _ | .renamed _ => False
def Placed (smash_pid : Pid) (L : Ledger) (x : Sit) : Prop :=
  L.tidy = true → Places smash_pid x.vars.Fg_Proccss_Pid x.doing x.entry L.halted x.hand

/-- Only a wait that begins and ctrl-Z's signal touch what is halted. -/
theorem log_halted (waits : ∀ pid, a ≠ .blocked pid) (stops : ∀ pid, a = .kill pid SIGSTOP → L.killing = true) :
    (L.log vars alive a r).halted = L.halted := by
  cases a with
  | input => cases r <;> rfl
  | blocked pid => exact absurd rfl (waits pid)
  | kill pid sig =>
    cases r with
    | true =>
      simp only [Ledger.log,Ledger.sent]
      split_ifs with killing stop
      · rfl
      · exact absurd (stops pid (by rw [stop])) killing
      · rfl
      · rfl
    | false => simp only [Ledger.log,Ledger.refused]; split_ifs <;> rfl
  | waitpid pid options => cases options <;> rfl
  | fork =>
    cases r with
    | none => rfl
    | some pid => simp only [Ledger.log]; split_ifs <;> rfl
  | set_jobs jobs => simp only [Ledger.log]; split_ifs <;> rfl
  | _ => rfl
/-- What is in front stays while the hand does. -/
theorem Places.same {fg : Pid} {doing : Doing} {entry entry' : Entry} {halted halted' : Bool} {hand : Hand}
    (before : Places smash_pid fg doing entry halted hand) (same : entry' = .none → entry = .none ∧ halted' = halted) :
    Places smash_pid fg doing entry' halted' hand := by
  cases hand with
  | waiting pid back =>
    cases back with
    | none =>
      intro clear stopped
      obtain ⟨clear',same'⟩ := same clear
      exact before clear' (same' ▸ stopped)
    | some j => exact before
  | _ => exact before
/-- Where the handlers run, a tidy shell is in front itself, or waits for what is. -/
theorem Places.opened {entry : Entry} {halted : Bool} (before : Places smash_pid x.vars.Fg_Proccss_Pid x.doing entry halted x.hand)
    (opened : x.Open) : x.vars.Fg_Proccss_Pid = smash_pid ∨ ∃ pid, x.hand = .waiting pid none := by
  rcases opened.hand with ⟨_,empty⟩ | ⟨pid,back,waiting⟩ | ⟨pid,ending⟩
  · rw [empty] at before
    exact .inl before
  · cases back with
    | none => exact .inr ⟨pid,waiting⟩
    | some j =>
      rw [waiting] at before
      exact before.elim
  · rw [ending] at before
    exact .inl before

theorem placed_step (agrees : Agrees coming s L x) (placed : Placed smash_pid L x) (step : Step smash_pid x a later)
    (ran : run () a s = some (r,s')) : Placed smash_pid (note lives () a r s L) (later r) := by
  intro tidy
  have before := placed ((marks_log _ _ a r L).tidy tidy)
  have still : (∀ pid, a ≠ .blocked pid) → (∀ pid, a = .kill pid SIGSTOP → L.killing = true) → (note lives () a r s L).halted = L.halted :=
    log_halted
  cases step with
  | quiet quiet => exact before.same fun clear => ⟨clear,still (by rintro _ rfl; exact quiet) (by rintro _ rfl; exact quiet.elim)⟩
  | input rest prompt =>
    rw [rest.hand] at before
    cases r <;> exact rest.hand ▸ before
  | poll pid => exact before.same fun clear => ⟨clear,still (fun _ => nofun) fun _ => nofun⟩
  | drop split gone => exact before.same fun clear => ⟨clear,still (fun _ => nofun) fun _ => nofun⟩
  | mark split sent => exact before.same fun clear => ⟨clear,still (fun _ => nofun) fun _ => nofun⟩
  | reread is taken clear => exact before.same fun clear => ⟨clear,still (fun _ => nofun) fun _ => nofun⟩
  | interrupt opened away =>
    exact before.same fun clear => ⟨clear,still (fun _ => nofun) fun _ same => absurd (Act.kill.inj same).2 (by decide)⟩
  | stop opened clear away =>
    obtain ⟨pid,waiting⟩ := (before.opened opened).resolve_left away
    cases r with
    | true =>
      show Places _ _ _ .stopping _ x.hand
      rw [waiting]
      exact nofun
    | false =>
      refine before.same fun clear => ⟨clear,?_⟩
      simp only [note,Ledger.log,Ledger.refused]
      split_ifs <;> rfl
  | note opened stopping => exact before.same nofun
  | enter opened stopped => exact before.same nofun
  | give_back opened entered =>
    show Places smash_pid smash_pid x.doing .none _ x.hand
    rcases opened.hand with ⟨_,empty⟩ | ⟨pid,back,waiting⟩ | ⟨pid,ending⟩
    · rw [empty]
      rfl
    · rw [waiting] at before ⊢
      cases back with
      | none => exact fun _ _ => rfl
      | some j => exact before
    · rw [ending]
      rfl
  | signal among is =>
    have halted := still (fun _ => nofun) fun pid same => by
      obtain ⟨args,line⟩ | ⟨_,cont⟩ := is
      · rw [Ledger.killing,agrees.line _ line]
      · exact absurd ((Act.kill.inj same).2.symm.trans cont) (by decide)
    cases r <;> exact before.same fun clear => ⟨clear,halted⟩
  | take is empty clear split =>
    rw [empty] at before
    exact before
  | resume is taken =>
    rw [taken] at before
    cases r with
    | true =>
      refine ⟨before,fun last => ?_⟩
      have line : L.doing = some (.fg []) := agrees.line _ last
      simp [note,Ledger.log,Ledger.sent,Ledger.killing,line,SIGCONT,SIGSTOP] at tidy
    | false => exact before
  | name_job => trivial
  | name_child => trivial
  | front => rfl
  | wait front => exact fun _ => nofun
  | wait_behind is resumed =>
    rw [resumed] at before
    exact absurd is before.2
  | wake waiting clear =>
    rw [waiting] at before
    rename_i pid back
    cases back with
    | none =>
      have both : L.tidy = true ∧ L.halted = true := by simpa [note,Ledger.log] using tidy
      exact before clear both.2
    | some j => exact before.elim
  | remember returned clear =>
    rw [returned] at before
    exact before
  | rename recalled clear =>
    rw [recalled] at before
    exact before
  | behind renamed clear =>
    rw [renamed] at before
    exact before.elim
  | fork is empty clear =>
    rw [empty] at before
    cases r with
    | none => exact empty ▸ before
    | some pid =>
      dsimp only
      split_ifs <;> exact before
  | launch is launched clear =>
    rw [launched] at before
    exact before
  | push empty launching =>
    rw [empty] at before
    exact empty ▸ before
  | terminate is among empty =>
    rw [empty] at before
    cases r with
    | true => exact before
    | false => exact empty ▸ before
  | force is ending =>
    rw [ending] at before
    cases r with
    | true => exact ending ▸ before
    | false => exact before
  | erase is ending =>
    rw [ending] at before
    exact before
  | leave => cases ran

/-! ### The processes to mind -/

/-- The process in the hand that has no entry, and is not yet waited for. -/
def absent : Hand → Option Pid
  | .launched pid | .child pid | .named pid | .front pid => some pid
  | .taken j | .resumed j => some j.process_id
  | .empty | .waiting _ _ | .returned _ | .recalled _ _ | .renamed _ | .ending _ => none
/-- Why a process may have no entry for the time being. -/
inductive Excused (L : Ledger) (x : Sit) (p : Pid) : Prop
  | hand (is : absent x.hand = some p)
  | stopping (is : x.entry = .stopping) (front : x.vars.Fg_Proccss_Pid = p)
  | entry {j : Job} (is : x.entry.job = some j) (same : j.process_id = p)
  | erased {args : List String} (is : x.doing = .line (.quit args)) (among : p ∈ L.erased)

section
variable (lives : Children) (L : Ledger) (left : Nat)

/-- A process that lives has an entry, but for a while. -/
def Watched (x : Sit) (p : Pid) : Prop := lives left p = true → p ∈ pids x.vars.jobs ∨ Excused L x p
/-- Whom waitpid has found, and whom the kill command has ended, does not live. -/
structure Dead (gone : Option Pid) (sent : Option (Pid × Int)) : Prop where
  gone : ∀ p, gone = some p → L.truthful = true → lives left p = false
  sent : ∀ p sig, sent = some (p,sig) → Ledger.ends sig = true → L.careful = true → lives left p = false
end

/-- An excuse stays while what it is about does; what is entered counts only where something is. -/
theorem Excused.keep {L' : Ledger} {x' : Sit} (excused : Excused L x p) (hand : absent x.hand = some p → absent x'.hand = some p)
    (entry : x.entry = .none ∨ x'.entry = x.entry ∧ x'.vars.Fg_Proccss_Pid = x.vars.Fg_Proccss_Pid) (doing : x'.doing = x.doing)
    (erased : p ∈ L.erased → p ∈ L'.erased) : Excused L' x' p := by
  cases excused with
  | hand is => exact .hand (hand is)
  | stopping is same =>
    rcases entry with clear | ⟨still,front⟩
    · rw [clear] at is; cases is
    · exact .stopping (still.trans is) (front.trans same)
  | entry is same =>
    rcases entry with clear | ⟨still,_⟩
    · rw [clear] at is; cases is
    · exact .entry (by rw [still]; exact is) same
  | erased is among => exact .erased (doing.trans is) (erased among)

/-- At rest nothing is excused. -/
theorem Excused.rest (excused : Excused L x p) (rest : x.Rest) : False := by
  cases excused with
  | hand is => rw [rest.hand] at is; cases is
  | stopping is same => rw [rest.entry] at is; cases is
  | entry is same => rw [rest.entry] at is; cases is
  | erased is among => exact rest.doing _ is

/-- The kill command's signal takes no process out that lives. -/
theorem mem_signalled {front back : List Job} {j : Job} {sig : Int} (stays : Ledger.ends sig = true → p ≠ j.process_id)
    (among : p ∈ pids (front ++ j :: back)) : p ∈ pids (signalled sig front j back) := by
  unfold signalled
  split_ifs with stop ends cont
  · simpa [pids] using among
  · have other := stays (by simpa [Ledger.ends] using ends)
    simpa [pids,other] using among
  · simpa [pids] using among
  · exact among

/-- The answer of an action is gone from the list. -/
theorem left_pred (effect : Effect s a r s') {answer : Answer} (one : takes a r = [answer]) : s.coming.length - 1 = s'.coming.length := by
  rw [effect.coming,one]
  simp

/-- A process that fork has returned is in the hand, unless it finds no room. -/
theorem absent_born {command : String} {in_bg : Bool} {pid : Pid} (agrees : Agrees coming s L x)
    (is : x.doing = .line (.external command in_bg)) (effect : Effect s .fork (some pid) s')
    (careful : (note lives () .fork (some pid) s L).careful = true) (alive : lives s'.coming.length pid = true) :
    absent (if in_bg then if MAX_JOBS ≤ x.vars.jobs.length then .empty else .launched pid else .child pid) = some pid := by
  split_ifs with bg full
  · rw [← left_pred effect rfl] at alive
    simp [note,Ledger.log,Ledger.launching,agrees.line _ is,bg,alive,agrees.vars] at careful
    omega
  · rfl
  · rfl

section
variable (persist : Persist lives coming) (agrees : Agrees coming s L x)
include persist agrees

/-- Whoever lives after an action has lived before it, unless fork returns him. -/
theorem lived (effect : Effect s a r s') (none_ : forks (takes a r) = []) (alive : lives s'.coming.length p = true) :
    lives s.coming.length p = true := by
  rcases lived_before persist agrees.suffix effect alive with before | born
  · exact before
  · rw [none_] at born
    cases born

theorem dead_step (dead : Dead lives L s.coming.length x.gone x.sent) (step : Step smash_pid x a later) (ran : run () a s = some (r,s')) :
    Dead lives (note lives () a r s L) s'.coming.length (later r).gone (later r).sent := by
  have effect := run_effect ran
  have marks := marks_log s.vars (lives (s.coming.length - 1)) a r L
  have fades : forks (takes a r) = [] → ∀ q, lives s.coming.length q = false → lives s'.coming.length q = false := by
    intro none_ q was
    by_contra now
    rw [lived persist agrees effect none_ (by simpa using now)] at was
    cases was
  have same : forks (takes a r) = [] → Dead lives (note lives () a r s L) s'.coming.length x.gone x.sent := fun none_ =>
    ⟨fun q is truthful => fades none_ q (dead.gone q is (marks.truthful truthful)),
      fun q sig is ends careful => fades none_ q (dead.sent q sig is ends (marks.careful careful))⟩
  cases step with
  | quiet quiet => cases a <;> first | exact same rfl | exact quiet.elim
  | input rest prompt => cases r <;> exact same rfl
  | stop | terminate | force => dsimp only; split <;> exact same rfl
  | leave => cases ran
  | fork is empty clear =>
    cases r with
    | none => exact same rfl
    | some pid => exact ⟨fun _ => nofun,fun _ _ => nofun⟩
  | poll pid =>
    refine ⟨fun q is truthful => ?_,(same rfl).sent⟩
    have found : L.truthful = true ∧ ((r : Int) = 0 ∨ lives (s.coming.length - 1) pid = false) := by
      simpa [note,Ledger.log] using truthful
    rw [← left_pred effect rfl]
    dsimp only at is
    split at is
    · cases is
    · rename_i gone
      cases is
      exact found.2.resolve_left gone
  | signal among is =>
    rename_i pid sig
    cases r with
    | false => exact same rfl
    | true =>
      refine ⟨(same rfl).gone,?_⟩
      rintro _ _ ⟨⟩ ends careful
      obtain ⟨args,line⟩ | ⟨_,cont⟩ := is
      · rw [← left_pred effect rfl]
        have killing : L.killing = true := by rw [Ledger.killing,agrees.line _ line]
        have spared : L.careful = true ∧ (Ledger.ends sig = false ∨ lives (s.coming.length - 1) pid = false) := by
          simpa [note,Ledger.log,Ledger.sent,killing] using careful
        exact spared.2.resolve_left (by rw [ends]; nofun)
      · rw [cont] at ends
        cases ends
  | _ => exact same rfl

omit persist agrees in
/-- A quit that is given up leaves nobody behind if the shell is careful. -/
theorem unerased {args : List String} {pid : Pid} {sig : Int} (effect : Effect s (.kill pid sig) false s') (other : sig ≠ SIGSTOP)
    (line : L.doing = some (.quit args)) (careful : (note lives () (.kill pid sig) false s L).careful = true) (among : p ∈ L.erased) :
    ¬ lives s'.coming.length p = true := by
  rw [← left_pred effect rfl]
  simp only [note,Ledger.log,Ledger.refused,Ledger.quitting,line,other,ne_eq,not_false_eq_true,and_self,if_true,Bool.and_eq_true,
    Bool.not_eq_true',List.any_eq_false] at careful
  exact careful.2 p among

/-- Who has an entry keeps it, but for a process that has terminated, and one whose job is in the hand
    or erased by quit. -/
theorem listed_step (dead : Dead lives L s.coming.length x.gone x.sent) (truthful : (note lives () a r s L).truthful = true)
    (careful : x.sent ≠ none → (note lives () a r s L).careful = true) (step : Step smash_pid x a later)
    (ran : run () a s = some (r,s')) (alive : lives s'.coming.length p = true) (listed : p ∈ pids x.vars.jobs) :
    p ∈ pids (later r).vars.jobs ∨ Excused (note lives () a r s L) (later r) p := by
  have dead' := dead_step persist agrees dead step ran
  have same : (∀ jobs, a ≠ .set_jobs jobs) → p ∈ pids (later r).vars.jobs := by
    intro other
    rw [step_assigns step]
    cases a with
    | set_jobs jobs => exact absurd rfl (other jobs)
    | _ => exact listed
  cases step with
  | drop split gone =>
    rw [split] at listed
    refine .inl ((mem_pids_middle.mp listed).resolve_right ?_)
    rintro rfl
    rw [dead'.gone _ gone truthful] at alive
    cases alive
  | mark split sent =>
    rw [split] at listed
    refine .inl (mem_signalled (fun ends => ?_) listed)
    rintro rfl
    rw [dead'.sent _ _ sent ends (careful (by rw [sent]; nofun))] at alive
    cases alive
  | enter opened stopped => exact .inl (mem_pids_snoc.mpr (.inl listed))
  | push empty launching => exact .inl (mem_pids_snoc.mpr (.inl listed))
  | take is empty clear split =>
    rw [split] at listed
    exact (mem_pids_middle.mp listed).imp_right fun here => .hand (congrArg some here.symm)
  | erase is ending =>
    by_cases still : p ∈ pids x.vars.jobs.tail
    · exact .inl still
    · refine .inr (.erased is ?_)
      have line := agrees.line _ is
      simp only [ShellLedger.note,Ledger.log,Ledger.quitting,line,agrees.vars,if_true]
      exact List.mem_append_right _ (List.mem_filter.mpr ⟨listed,by simpa using still⟩)
  | quiet quiet => exact .inl (same (by rintro _ rfl; exact quiet))
  | leave => cases ran
  | _ => exact .inl (same fun _ => nofun)
omit persist in
/-- Who is excused stays so or gets an entry, but for an fg that fails and a quit that is given up. -/
theorem excused_step (careful : (∃ c, x.doing = .line c) → (note lives () a r s L).careful = true) (unwaited : a ≠ .blocked p)
    (step : Step smash_pid x a later) (ran : run () a s = some (r,s')) (alive : lives s'.coming.length p = true)
    (excused : Excused L x p) : p ∈ pids (later r).vars.jobs ∨ Excused (note lives () a r s L) (later r) p := by
  have effect := run_effect ran
  have erased : a ≠ .input → p ∈ L.erased → p ∈ (note lives () a r s L).erased := log_erased
  cases step with
  | input rest prompt => exact (excused.rest rest).elim
  | take is empty clear split => exact (excused.rest ⟨empty,clear,by rw [is]; exact fun _ => nofun⟩).elim
  | fork is empty clear => exact (excused.rest ⟨empty,clear,by rw [is]; exact fun _ => nofun⟩).elim
  | leave => cases ran
  -- neither the hand nor what is to be entered changes
  | quiet quiet =>
    refine .inr (excused.keep id (.inr ⟨rfl,rfl⟩) rfl (erased ?_))
    rintro rfl
    exact quiet
  | poll | reread | interrupt | drop | mark => exact .inr (excused.keep id (.inr ⟨rfl,rfl⟩) rfl (erased nofun))
  | signal => cases r <;> exact .inr (excused.keep id (.inr ⟨rfl,rfl⟩) rfl (erased nofun))
  -- ctrl-Z
  | stop opened clear away => cases r <;> exact .inr (excused.keep id (.inl clear) rfl (erased nofun))
  | note opened stopping =>
    right
    cases excused with
    | hand is => exact .hand is
    | stopping is same => exact .entry rfl same
    | entry is same => rw [stopping] at is; cases is
    | erased is among => exact .erased is (erased nofun among)
  | enter opened stopped =>
    cases excused with
    | hand is => exact .inr (.hand is)
    | stopping is same => rw [stopped] at is; cases is
    | entry is same =>
      rw [stopped] at is
      cases is
      exact .inl (mem_pids_snoc.mpr (.inr same.symm))
    | erased is among => exact .inr (.erased is (erased nofun among))
  | give_back opened entered =>
    right
    cases excused with
    | hand is => exact .hand is
    | stopping is same => rw [entered] at is; cases is
    | entry is same => rw [entered] at is; cases is
    | erased is among => exact .erased is (erased nofun among)
  -- fg
  | resume is taken =>
    rename_i j args
    right
    cases r with
    | true => exact excused.keep (fun held => by rw [taken] at held; exact held) (.inr ⟨rfl,rfl⟩) rfl (erased nofun)
    | false =>
      refine excused.keep (fun held => ?_) (.inr ⟨rfl,rfl⟩) rfl (erased nofun)
      rw [taken] at held
      obtain rfl : j.process_id = p := Option.some.inj held
      have line := agrees.line _ is
      have gone := careful ⟨_,is⟩
      rw [← left_pred effect rfl] at alive
      simp [ShellLedger.note,Ledger.log,Ledger.refused,Ledger.quitting,Ledger.resuming,line,alive] at gone
  | name_job is held | name_child is held =>
    exact .inr (excused.keep (fun is => by rw [held] at is; exact is) (.inr ⟨rfl,rfl⟩) rfl (erased nofun))
  | front named clear => exact .inr (excused.keep (fun held => by rw [named] at held; exact held) (.inl clear) rfl (erased nofun))
  | wait held | wait_behind _ held =>
    refine .inr (excused.keep (fun is => ?_) (.inr ⟨rfl,rfl⟩) rfl (erased nofun))
    rw [held] at is
    exact absurd (congrArg Act.blocked (Option.some.inj is)) unwaited
  | wake held clear | remember held clear | rename held clear | behind held clear =>
    exact .inr (excused.keep (fun is => by rw [held] at is; cases is) (.inl clear) rfl (erased nofun))
  -- ExeExternal
  | launch is launched clear =>
    right
    cases excused with
    | hand held =>
      rw [launched] at held
      exact .entry rfl (Option.some.inj held)
    | stopping entry same => rw [clear] at entry; cases entry
    | entry entry same => rw [clear] at entry; cases entry
    | erased quits among => rw [is] at quits; cases quits
  | push empty launching =>
    cases excused with
    | hand held => rw [empty] at held; cases held
    | stopping entry same => rw [launching] at entry; cases entry
    | entry entry same =>
      rw [launching] at entry
      cases entry
      exact .inl (mem_pids_snoc.mpr (.inr same.symm))
    | erased quits among => exact .inr (.erased quits (erased nofun among))
  -- quit
  | terminate is among empty =>
    right
    cases r with
    | true => exact excused.keep (fun held => by rw [empty] at held; cases held) (.inr ⟨rfl,rfl⟩) rfl (erased nofun)
    | false =>
      cases excused with
      | hand held => exact .hand held
      | stopping entry same => exact .stopping entry same
      | entry entry same => exact .entry entry same
      | erased quits among => exact absurd alive (unerased effect (by decide) (agrees.line _ is) (careful ⟨_,is⟩) among)
  | force is ending =>
    right
    cases r with
    | true => exact excused.keep id (.inr ⟨rfl,rfl⟩) rfl (erased nofun)
    | false =>
      cases excused with
      | hand held => rw [ending] at held; cases held
      | stopping entry same => exact .stopping entry same
      | entry entry same => exact .entry entry same
      | erased quits among => exact absurd alive (unerased effect (by decide) (agrees.line _ is) (careful ⟨_,is⟩) among)
  | erase is ending => exact .inr (excused.keep (fun held => by rw [ending] at held; cases held) (.inr ⟨rfl,rfl⟩) rfl (erased nofun))

theorem watched_step (dead : Dead lives L s.coming.length x.gone x.sent) (truthful : (note lives () a r s L).truthful = true)
    (careful : (∃ c, x.doing = .line c) ∨ x.sent ≠ none → (note lives () a r s L).careful = true) (unwaited : a ≠ .blocked p)
    (watched : Watched lives L s.coming.length x p) (step : Step smash_pid x a later) (ran : run () a s = some (r,s')) :
    Watched lives (note lives () a r s L) s'.coming.length (later r) p := by
  intro alive
  have effect := run_effect ran
  rcases lived_before persist agrees.suffix effect alive with before | born
  · rcases watched before with listed | excused
    · exact listed_step persist agrees dead truthful (fun sent => careful (.inr sent)) step ran alive listed
    · exact excused_step agrees (fun line => careful (.inl line)) unwaited step ran alive excused
  · -- fork has just returned it
    cases a with
    | fork =>
      cases r with
      | none => cases born
      | some pid =>
        obtain rfl : p = pid := List.mem_singleton.mp born
        cases step with
        | quiet quiet => exact quiet.elim
        | fork is empty clear => exact .inr (.hand (absent_born agrees is effect (careful (.inl ⟨_,is⟩)) alive))
    | _ => cases born
end

/-! ### Processes that the shell begins to mind -/

/-- The process that ctrl-Z stops, or a line launches. -/
def newly (L : Ledger) : (a : Act) → Res a → List Pid
  | .kill pid sig, true => if L.killing = false ∧ sig = SIGSTOP then [pid] else []
  | .fork, some pid => if L.launching then [pid] else []
  | _, _ => []

theorem log_minded (minded : p ∈ (L.log vars alive a r).minded) : p ∈ newly L a r ∨ p ∈ L.minded ∧ a ≠ .blocked p := by
  cases a with
  | input => cases r <;> exact .inr ⟨minded,nofun⟩
  | blocked pid =>
    obtain ⟨before,other⟩ := List.mem_filter.mp minded
    refine .inr ⟨before,?_⟩
    rintro ⟨⟩
    simp at other
  | kill pid sig =>
    cases r with
    | false =>
      simp only [Ledger.log,Ledger.refused] at minded
      split_ifs at minded <;> exact .inr ⟨minded,nofun⟩
    | true =>
      simp only [Ledger.log,Ledger.sent] at minded
      split_ifs at minded with killing stop cont
      · exact .inr ⟨minded,nofun⟩
      · rcases List.mem_cons.mp minded with rfl | before
        · exact .inl (by simp [newly,killing,stop])
        · exact .inr ⟨before,nofun⟩
      · exact .inr ⟨minded,nofun⟩
      · exact .inr ⟨minded,nofun⟩
  | waitpid pid options => cases options <;> exact .inr ⟨minded,nofun⟩
  | fork =>
    cases r with
    | none => exact .inr ⟨minded,nofun⟩
    | some pid =>
      simp only [Ledger.log] at minded
      split_ifs at minded with launching
      · rcases List.mem_cons.mp minded with rfl | before
        · exact .inl (by simp [newly,launching])
        · exact .inr ⟨before,nofun⟩
      · exact .inr ⟨minded,nofun⟩
  | set_jobs jobs =>
    simp only [Ledger.log] at minded
    split_ifs at minded <;> exact .inr ⟨minded,nofun⟩
  | _ => exact .inr ⟨minded,nofun⟩
theorem watched_newly (agrees : Agrees coming s L x) (step : Step smash_pid x a later) (ran : run () a s = some (r,s'))
    (careful : (note lives () a r s L).careful = true) (new : p ∈ newly L a r) :
    Watched lives (note lives () a r s L) s'.coming.length (later r) p := by
  intro alive
  have effect := run_effect ran
  cases step with
  | quiet quiet => cases a <;> first | cases new | exact quiet.elim
  | stop opened clear away =>
    cases r with
    | false => cases new
    | true =>
      simp only [newly,agrees.unkilled opened,and_self,if_true,List.mem_singleton] at new
      exact .inr (.stopping rfl new.symm)
  | signal among is =>
    cases r with
    | false => cases new
    | true =>
      obtain ⟨args,line⟩ | ⟨_,rfl⟩ := is
      · simp [newly,Ledger.killing,agrees.line _ line] at new
      · simp [newly,SIGCONT,SIGSTOP] at new
  | interrupt | resume | terminate | force =>
    cases r with
    | false => cases new
    | true => simp [newly,SIGKILL,SIGCONT,SIGTERM,SIGSTOP] at new
  | fork is empty clear =>
    rename_i command in_bg
    cases r with
    | none => cases new
    | some pid =>
      simp only [newly,Ledger.launching,agrees.line _ is] at new
      split_ifs at new
      · obtain rfl : p = pid := List.mem_singleton.mp new
        exact .inr (.hand (absent_born agrees is effect careful alive))
      · cases new
  | _ => cases new

/-! ### Every run -/

section
variable (smash_pid : Pid) (lives : Children) (coming : List Answer)

/-- What the shell and its ledger keep. -/
structure Kept (s : Shared × Ledger) (x : Sit) : Prop where
  agrees : Agrees coming s.1 s.2 x
  placed : Placed smash_pid s.2 x
  named : smash_pid ∉ forks coming → Named smash_pid (· ≠ smash_pid) x
  dead : Persist lives coming → Dead lives s.2 s.1.coming.length x.gone x.sent
  watched : Persist lives coming → s.2.truthful = true → s.2.careful = true →
    ∀ p ∈ s.2.minded, Watched lives s.2 s.1.coming.length x p
end

theorem keeps_kept : (plan smash_pid).Keeps ((recording (smash smash_pid) (note lives)).run ()) (Kept smash_pid lives coming) := by
  rintro ⟨s,L⟩ x a later _ _ kept step ran
  obtain ⟨⟨r,s'⟩,did,same⟩ := Option.map_eq_some_iff.mp ran
  cases same
  have effect := run_effect did
  have marks := marks_log s.vars (lives (s.coming.length - 1)) a r L
  have ⟨answers,agrees⟩ : Answers x a r ∧ Agrees coming s' (note lives () a r s L) (later r) := agrees_step kept.agrees step did
  refine ⟨answers,agrees,placed_step kept.agrees kept.placed step did,fun apart => ?_,fun persist => ?_,?_⟩
  · refine step_named (kept.named apart) step r fun p born => ?_
    rintro rfl
    have among : (takes a r).Sublist coming := (effect.coming ▸ List.sublist_append_left _ _).trans kept.agrees.suffix.sublist
    exact apart ((among.filterMap _).subset born)
  · exact dead_step persist kept.agrees (kept.dead persist) step did
  · intro persist truthful careful p among
    rcases log_minded among with new | ⟨before,unwaited⟩
    · exact watched_newly kept.agrees step did careful new
    · refine watched_step persist kept.agrees (kept.dead persist) truthful (fun _ => careful) unwaited ?_ step did
      exact kept.watched persist (marks.truthful truthful) (marks.careful careful) p before
theorem Kept.at_prompt {s : Shared × Ledger} (kept : Kept smash_pid lives coming s x) (rest : x.Rest) :
    Kept smash_pid lives coming s x.at_prompt where
  agrees := ⟨kept.agrees.vars,kept.agrees.suffix,nofun,fun _ => nofun⟩
  placed tidy := by
    have before := kept.placed tidy
    rw [rest.hand] at before
    exact rest.hand ▸ before
  named apart := ⟨(kept.named apart).listed,(kept.named apart).front,(kept.named apart).held,(kept.named apart).entered,
    (kept.named apart).stopping⟩
  dead := kept.dead
  watched persist truthful careful p among alive :=
    .inl ((kept.watched persist truthful careful p among alive).resolve_right fun excused => excused.rest rest)
theorem kept_start : Kept smash_pid lives coming ((initial smash_pid coming).shared,Ledger.empty) (start smash_pid) where
  agrees := ⟨rfl,List.suffix_rfl,nofun,fun _ => nofun⟩
  placed _ := rfl
  named _ := named_start
  dead _ := ⟨fun _ => nofun,fun _ _ => nofun⟩
  watched _ _ _ _ := nofun

/-- At the prompt a tidy shell is in front itself, and every process to mind that lives has an entry;
    where it waits for a process, this is in front. -/
theorem recorded_home {c : Programs.Config Unit (Shared × Ledger) Act Res Unit} (recorded : Recorded smash_pid lives coming c) :
    (AtPrompt (forget c) → (c.shared.2.tidy = true → c.shared.1.vars.Fg_Proccss_Pid = smash_pid) ∧
      (Persist lives coming → c.shared.2.truthful = true → c.shared.2.careful = true →
        ∀ p ∈ c.shared.2.minded, lives c.shared.1.coming.length p = true → p ∈ pids c.shared.1.vars.jobs)) ∧
    ∀ p, (c.thread ()).prog.action = some (.blocked p) →
      (c.shared.2.tidy = true → c.shared.1.vars.Fg_Proccss_Pid = p) ∧ (smash_pid ∉ forks coming → p ≠ smash_pid) := by
  have begun : (plan smash_pid).Holds Loop (Kept smash_pid lives coming) (attach (initial smash_pid coming) Ledger.empty) :=
    ⟨start smash_pid,kept_start,start_rest smash_pid⟩
  obtain ⟨x,kept,follows⟩ := shell_keeps (M := recording (smash smash_pid) (note lives)) rfl keeps_kept Kept.at_prompt begun recorded
  have vars := kept.agrees.vars
  refine ⟨fun prompt => ⟨fun tidy => ?_,fun persist truthful careful p among alive => ?_⟩,fun p blocked => ⟨fun tidy => ?_,fun apart => ?_⟩⟩
  · have rest := holds_at_prompt follows prompt
    have placed := kept.placed tidy
    rw [rest.hand] at placed
    exact (congrArg Vars.Fg_Proccss_Pid vars).trans placed
  · have rest := holds_at_prompt follows prompt
    have watched := kept.watched persist truthful careful p among alive
    rw [vars]
    exact watched.resolve_right fun excused => excused.rest rest
  · obtain ⟨later,step⟩ := follows_steps follows blocked
    have placed := kept.placed tidy
    rw [vars]
    cases step with
    | quiet quiet => exact quiet.elim
    | wait front => rwa [front] at placed
    | wait_behind is resumed =>
      rw [resumed] at placed
      exact absurd is placed.2
  · obtain ⟨later,step⟩ := follows_steps follows blocked
    have other := known_of_blocked (kept.named apart) step
    exact other

end StructureOfOs.ShellLedger
