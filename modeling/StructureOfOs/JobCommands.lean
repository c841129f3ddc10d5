import StructureOfOs.InputLines
import StructureOfOs.JobLists
import StructureOfOs.Recordings

/-!
The command that a job remembers. The shell keeps a record of which line each process was
started with. A command's text comes from `ExeExternal`, where in the foreground it is the line
that `strtok` has cut behind its first word, and goes with its process through the list and the
foreground variables. It never changes on the way but in an fg without an id, which takes the
text from the element of the list that it has erased.
-/
namespace StructureOfOs.JobCommands
open StructureOfOs.Programs StructureOfOs.Plans StructureOfOs.Recordings StructureOfOs.Jobs StructureOfOs.Smash
open StructureOfOs.Streams (Text bytes string)
open StructureOfOs.CStrings (through_first)
open StructureOfOs.ShellLines StructureOfOs.InputLines
open StructureOfOs.ShellSteps StructureOfOs.ShellFollows StructureOfOs.JobLists

/-- The built-in command of a line, by its words. -/
def built_in : List Text → Command
  | [] => .other
  | cmd :: args =>
    if cmd = bytes "jobs" then .jobs
    else if cmd = bytes "kill" then .kill (args.map string)
    else if cmd = bytes "fg" then .fg (args.map string)
    else if cmd = bytes "bg" then .bg (args.map string)
    else if cmd = bytes "quit" then .quit (args.map string)
    else .other
/-- What BgCmd has of a line after so many turns of fgets on it: the next part, less its last character. -/
def part_of (line : Text) (turns : Nat) : Text :=
  (fgets_chars (MAX_LINE_SIZE - 1) ((line ++ [newline]).drop (turns * (MAX_LINE_SIZE - 1)))).1.dropLast
/-- A line as typed, of any length, and the part of it that the shell has read. -/
structure Part where
  line : Text
  turns : Nat
  solid : 0 ∉ line
  single : newline ∉ line
  some_ : part_of line turns ≠ []
def Part.text (part : Part) : Text := part_of part.line part.turns
/-- What a part is for the shell. -/
def command (part : Part) : Command :=
  match parsed part.text with
  | .nothing => .other
  | .built_in args => built_in (args.filterMap id)
  | .external e => .external (string e.full_command) e.in_bg
/-- The lines among the answers that are to come. -/
def typed (coming : List Answer) : List Command :=
  coming.filterMap fun
    | .typed (.line command) => some command
    | _ => none

/-- The parts to come, the one under way, the one that each process was started with, and the text
    that an fg without an id has found last where the process's entry was.
    `fresh`: fork has given no process a pid that a job has, nor one in the background the pid that
    `Fg_Proccss_Pid` was left with. -/
structure Record where
  lines : List Part
  line : Option Part
  started : Pid → Option Part
  found : Pid → Option String
  fresh : Bool
def Record.launching (R : Record) : Bool := (R.line.map command) matches some (.external _ true)
def Record.log (vars : Vars) : (a : Act) → Res a → Record → Record
  | .input, .line _, R => { R with lines := R.lines.tail, line := R.lines.head? }
  | .fork, some pid, R =>
    { R with
      started := Function.update R.started pid R.line
      found := Function.update R.found pid none
      fresh := R.fresh && pid ∉ pids vars.jobs && !(R.launching && pid = vars.Fg_Proccss_Pid) }
  | .freed j, text, R => { R with found := Function.update R.found j.process_id (some text) }
  | _, _, R => R
def note : Note Unit Shared Record Act Res := fun _ a r s R => R.log s.vars a r
def nothing_noted (lines : List Part) : Record := ⟨lines,none,fun _ => none,fun _ => none,true⟩
/-- The states of the shell with these lines and answers, and its record. -/
def Recorded (smash_pid : Pid) (lines : List Part) (coming : List Answer)
    (c : Programs.Config Unit (Shared × Record) Act Res Unit) : Prop :=
  (recording (smash smash_pid) note).Reaches (attach (initial smash_pid coming) (nothing_noted lines)) c

/-- The text is what `ExeExternal` has been given for the process's line, or what fg has found since. -/
def Tells (R : Record) (text : String) (pid : Pid) : Prop :=
  ∀ part, R.started pid = some part → match R.found pid with
    | some found => text = found
    | none => ∃ e, parsed part.text = .external e ∧ text = string e.full_command

variable {smash_pid pid : Pid} {s s' : Shared} {R : Record} {x : Sit} {a : Act} {r : Res a} {later : Res a → Sit} {vars : Vars}
  {text : String}

/-! ### What an action adds -/

/-- The processes of which an action adds something. -/
def touched : (a : Act) → Res a → List Pid
  | .fork, some pid => [pid]
  | .freed j, _ => [j.process_id]
  | _, _ => []

theorem tells_log (tells : Tells R text pid) (other : pid ∉ touched a r) : Tells (R.log vars a r) text pid := by
  cases a with
  | input => cases r <;> exact tells
  | fork =>
    cases r with
    | none => exact tells
    | some p =>
      have apart : pid ≠ p := by simpa [touched] using other
      simpa [Tells,Record.log,apart] using tells
  | freed j =>
    have apart : pid ≠ j.process_id := by simpa [touched] using other
    simpa [Tells,Record.log,apart] using tells
  | _ => exact tells
theorem command_external {part : Part} {full_command : String} {in_bg : Bool} (is : command part = .external full_command in_bg) :
    ∃ e, parsed part.text = .external e ∧ full_command = string e.full_command := by
  unfold command at is
  split at is
  · cases is
  · unfold built_in at is
    split at is
    · cases is
    · split_ifs at is
  · rename_i e runs
    cases is
    exact ⟨e,runs,rfl⟩

/-- The situation has the shell's variables, and the record has the line under way. -/
structure Agrees (s : Shared) (R : Record) (x : Sit) : Prop where
  vars : s.vars = x.vars
  lines : typed s.coming = R.lines.map command
  line : ∀ c, x.doing = .line c → ∃ part, R.line = some part ∧ c = command part

theorem typed_log (agree : typed s.coming = R.lines.map command) (effect : Effect s a r s') :
    typed s'.coming = (R.log vars a r).lines.map command := by
  rw [effect.coming,typed,List.filterMap_append] at agree
  cases a with
  | input =>
    cases r with
    | key key => exact agree
    | line c =>
      have tail := congrArg List.tail agree
      rwa [← List.map_tail] at tail
  | fork => cases r <;> exact agree
  | _ => exact agree
theorem line_log (other : a ≠ .input) : (R.log vars a r).line = R.line := by
  cases a with
  | input => exact absurd rfl other
  | fork => cases r <;> rfl
  | _ => rfl
theorem agrees_step (agrees : Agrees s R x) (step : Step smash_pid x a later) (ran : run () a s = some (r,s')) :
    Answers x a r ∧ Agrees s' (note () a r s R) (later r) := by
  obtain ⟨answers,vars⟩ := step_vars agrees.vars step ran
  refine ⟨answers,vars,typed_log agrees.lines (run_effect ran),?_⟩
  by_cases input : a = .input
  · subst input
    cases step with
    | quiet quiet => exact quiet.elim
    | input rest prompt =>
      cases r with
      | key key => exact fun _ => nofun
      | line c =>
        rintro _ ⟨⟩
        have agree := agrees.lines
        rw [(run_effect ran).coming] at agree
        cases lines : R.lines with
        | nil => simp [takes,typed,lines] at agree
        | cons part rest =>
          simp only [takes,typed,lines,List.singleton_append,List.filterMap_cons,List.map_cons,List.cons.injEq] at agree
          exact ⟨part,by simp [note,Record.log,lines],agree.1⟩
  · have line : (note () a r s R).line = R.line := line_log input
    rw [line]
    rcases step_doing (r := r) step input with same | past
    · rw [same]
      exact agrees.line
    · rw [past]
      rintro _ ⟨⟩
/-- As long as the record is fresh, fork returns what it may. -/
theorem fresh_log (agrees : Agrees s R x) (fresh : (note () a r s R).fresh = true) :
    R.fresh = true ∧ ∀ p ∈ forks (takes a r), New smash_pid x p := by
  cases a with
  | input => cases r <;> exact ⟨fresh,fun _ => nofun⟩
  | fork =>
    cases r with
    | none => exact ⟨fresh,fun _ => nofun⟩
    | some pid =>
      simp only [note,Record.log,Bool.and_eq_true,decide_eq_true_eq,Bool.not_eq_true',Bool.and_eq_false_iff,decide_eq_false_iff_not,
        agrees.vars] at fresh
      refine ⟨fresh.1.1,fun p among => ?_⟩
      obtain rfl : p = pid := List.mem_singleton.mp among
      refine ⟨fresh.1.2,?_⟩
      rintro ⟨c,is⟩ _
      obtain ⟨part,line,runs⟩ := agrees.line _ is
      have launching : R.launching = true := by simp [Record.launching,line,← runs]
      exact fresh.2.resolve_left (by simp [launching])
  | _ => exact ⟨fresh,fun _ => nofun⟩

/-! ### What every step keeps -/

/-- The hand has none of the foreground variables in it. -/
def Settled : Hand → Prop
  | .child _ | .named _ | .renamed _ => False
  | _ => True
/-- What is in the hand tells its command as well, or is about to. -/
def HandTells (R : Record) (fg_cmd : String) (doing : Doing) : Hand → Prop
  | .launched pid | .child pid => ∀ command in_bg, doing = .line (.external command in_bg) → Tells R command pid
  | .taken j | .resumed j => doing ≠ .line (.fg []) → Tells R j.command j.process_id
  | .named pid => Tells R fg_cmd pid
  | .recalled j text => R.found j.process_id = some text
  | .renamed j => R.found j.process_id = some fg_cmd
  | .empty | .front _ | .waiting _ _ | .returned _ | .ending _ => True
section
variable (smash_pid : Pid)

/-- Every job tells its process's command, and so do the foreground variables while they are settled. -/
structure Told (R : Record) (x : Sit) : Prop where
  jobs : ∀ j ∈ x.vars.jobs, Tells R j.command j.process_id
  hand : HandTells R x.vars.L_Fg_Cmd x.doing x.hand
  front : Settled x.hand → x.vars.Fg_Proccss_Pid ≠ smash_pid → Tells R x.vars.L_Fg_Cmd x.vars.Fg_Proccss_Pid
  entry : ∀ j ∈ x.entry.job, Tells R j.command j.process_id
end

theorem Told.fewer {jobs : List Job} (told : Told smash_pid R x) (fewer : Fewer jobs x.vars.jobs) :
    Told smash_pid R (x.with_jobs jobs) where
  jobs j among := by
    obtain ⟨i,there,same⟩ := fewer.mem among
    simp only [Job.identity,Prod.mk.injEq] at same
    rw [← same.2.1,← same.2.2]
    exact told.jobs i there
  hand := told.hand
  front := told.front
  entry := told.entry
theorem Told.push {j : Job} {entry : Entry} (told : Told smash_pid R x) (is : x.entry.job = some j) (none_ : entry.job = none) :
    Told smash_pid R { x.with_jobs (x.vars.jobs ++ [j]) with entry := entry } where
  jobs i among := by
    rcases List.mem_append.mp among with before | last
    · exact told.jobs i before
    · rw [List.mem_singleton.mp last]
      exact told.entry j is
  hand := told.hand
  front := told.front
  entry _ is := absurd (none_.symm.trans is) nofun
/-- Something is done with the hand, and the foreground is as settled as before. -/
theorem Told.hold {hand : Hand} (told : Told smash_pid R x) (tells : HandTells R x.vars.L_Fg_Cmd x.doing hand)
    (settled : Settled hand → Settled x.hand) :
    Told smash_pid R { x with hand := hand } :=
  ⟨told.jobs,tells,fun here => told.front (settled here),told.entry⟩
/-- An action adds something to the record of processes that are no jobs. -/
theorem Told.log {hand : Hand} (told : Told smash_pid R x) (clear : x.entry = .none)
    (hand_tells : HandTells (R.log vars a r) x.vars.L_Fg_Cmd x.doing hand)
    (settled : Settled hand → Settled x.hand) (absent : ∀ p ∈ touched a r, p ∉ pids x.vars.jobs)
    (front : Settled hand → ∀ p ∈ touched a r, x.vars.Fg_Proccss_Pid ≠ smash_pid → p ≠ x.vars.Fg_Proccss_Pid) :
    Told smash_pid (R.log vars a r) { x with hand := hand } where
  jobs j among := tells_log (told.jobs j among) fun there => absent _ there (List.mem_map_of_mem among)
  hand := hand_tells
  front here away := tells_log (told.front (settled here) away) fun there => front here _ there away rfl
  entry _ is := absurd ((congrArg Entry.job clear).symm.trans is) nofun

/-- Where the handlers run the foreground variables are settled. -/
theorem settled_opened (opened : x.Open) : Settled x.hand := by
  rcases opened.hand with ⟨_,empty⟩ | ⟨pid,back,waiting⟩ | ⟨pid,ending⟩
  · rw [empty]; trivial
  · rw [waiting]; trivial
  · rw [ending]; trivial
theorem tells_of_found (found : R.found pid = some text) : Tells R text pid := by
  intro part _
  rw [found]
/-- What fork returns has been started with the line under way. -/
theorem tells_born {command : String} {in_bg : Bool} (agrees : Agrees s R x) (is : x.doing = .line (.external command in_bg)) :
    Tells (R.log vars .fork (some pid)) command pid := by
  obtain ⟨part,line,runs⟩ := agrees.line _ is
  obtain ⟨e,parsed,text⟩ := command_external runs.symm
  intro part' started
  obtain rfl : part' = part := by simpa [Record.log,line] using started.symm
  simpa [Record.log] using ⟨e,parsed,text⟩

theorem told_step (agrees : Agrees s R x) (tracks : Tracks smash_pid x) (told : Told smash_pid R x) (step : Step smash_pid x a later)
    (new : ∀ p ∈ forks (takes a r), New smash_pid x p) : Told smash_pid (R.log vars a r) (later r) := by
  have hand := told.hand
  cases step with
  | quiet quiet => cases a <;> first | exact told | exact quiet.elim
  | input rest prompt =>
    have hand : ∀ R' doing, HandTells R' x.vars.L_Fg_Cmd doing x.hand := by
      rw [rest.hand]
      exact fun _ _ => trivial
    cases r <;> exact ⟨told.jobs,hand _ _,told.front,told.entry⟩
  | drop split gone => exact told.fewer (by rw [split]; exact fewer_gone _ _ _)
  | mark split sent => exact told.fewer (by rw [split]; exact fewer_signalled _ _ _ _)
  | stop opened clear away =>
    dsimp only
    split
    · exact ⟨told.jobs,told.hand,told.front,fun _ => nofun⟩
    · exact told
  | note opened stopping =>
    refine ⟨told.jobs,told.hand,told.front,?_⟩
    rintro j ⟨⟩
    exact told.front (settled_opened opened) (tracks.stopping stopping)
  | enter opened stopped => exact told.push (by rw [stopped]; rfl) rfl
  | push empty launching => exact told.push (by rw [launching]; rfl) rfl
  | give_back opened entered => exact ⟨told.jobs,told.hand,fun _ away => absurd rfl away,fun _ => nofun⟩
  | take is empty clear split =>
    have among := told.jobs _ (by rw [split]; exact List.mem_append_right _ List.mem_cons_self)
    refine (told.fewer (by rw [split]; exact fewer_gone _ _ _)).hold (fun _ => among) fun _ => ?_
    show Settled x.hand
    rw [empty]
    trivial
  | reread is taken clear =>
    refine told.log clear ?_ id ?_ ?_
    · rw [taken]
      exact fun other => absurd is other
    · simpa [touched] using tracks.held _ (by rw [taken]; rfl)
    · simpa [touched] using fun _ => tracks.apart _ (by rw [taken]; rfl)
  | resume is taken =>
    rw [taken] at hand
    refine told.hold ?_ fun _ => by rw [taken]; trivial
    cases r with
    | true => exact hand
    | false => trivial
  | name_job is resumed =>
    rw [resumed] at hand
    exact ⟨told.jobs,hand (by rw [is]; simp),False.elim,told.entry⟩
  | name_child is child =>
    rw [child] at hand
    exact ⟨told.jobs,hand _ _ is,False.elim,told.entry⟩
  | front named clear =>
    rw [named] at hand
    exact ⟨told.jobs,trivial,fun _ _ => hand,told.entry⟩
  | wait front => exact told.hold trivial fun _ => by rw [front]; trivial
  | wait_behind is resumed => exact told.hold trivial fun _ => by rw [resumed]; trivial
  | wake waiting clear =>
    rename_i back
    refine told.hold ?_ fun _ => by rw [waiting]; trivial
    cases back <;> trivial
  | remember returned clear =>
    refine told.log clear ?_ (fun _ => by rw [returned]; trivial) ?_ ?_
    · simp [HandTells,Record.log]
    · simpa [touched] using tracks.held _ (by rw [returned]; rfl)
    · simpa [touched] using fun _ => tracks.apart _ (by rw [returned]; rfl)
  | rename recalled clear =>
    rw [recalled] at hand
    exact ⟨told.jobs,hand,False.elim,told.entry⟩
  | behind renamed clear =>
    rw [renamed] at hand
    exact ⟨told.jobs,trivial,fun _ _ => tells_of_found hand,told.entry⟩
  | fork is empty clear =>
    rename_i command in_bg
    have settled : Settled x.hand := by rw [empty]; trivial
    cases r with
    | none => exact told
    | some pid =>
      obtain ⟨job,other⟩ := new pid (List.mem_singleton_self pid)
      let hand := if in_bg then if MAX_JOBS ≤ x.vars.jobs.length then Hand.empty else .launched pid else .child pid
      have told' : Told smash_pid (R.log vars .fork (some pid)) { x with hand := hand } := by
        refine told.log clear ?_ (fun _ => settled) ?_ ?_
        · have born : ∀ command' in_bg', x.doing = .line (.external command' in_bg') → Tells (R.log vars .fork (some pid)) command' pid :=
            fun _ _ => tells_born agrees
          dsimp only [hand]
          split_ifs
          · trivial
          · exact born
          · exact born
        · simpa [touched] using job
        · dsimp only [hand]
          split_ifs with bg full
          · simpa [touched] using fun _ => other ⟨command,by rw [is,bg]⟩
          · simpa [touched] using fun _ => other ⟨command,by rw [is,bg]⟩
          · exact False.elim
      exact ⟨told'.jobs,told'.hand,told'.front,told'.entry⟩
  | launch is launched clear =>
    rw [launched] at hand
    refine ⟨told.jobs,trivial,fun _ => told.front (by rw [launched]; trivial),?_⟩
    rintro j ⟨⟩
    exact hand _ _ is
  | terminate is among empty =>
    dsimp only
    split
    · exact told.hold trivial fun _ => by rw [empty]; trivial
    · exact ⟨told.jobs,by rw [empty]; trivial,told.front,told.entry⟩
  | force is ending =>
    dsimp only
    split
    · exact told
    · exact ⟨told.jobs,trivial,fun _ => told.front (by rw [ending]; trivial),told.entry⟩
  | erase is ending =>
    refine (told.fewer (fewer_of_sublist (List.tail_sublist _))).hold trivial fun _ => ?_
    show Settled x.hand
    rw [ending]
    trivial
  | signal => dsimp only; split <;> exact ⟨told.jobs,told.hand,told.front,told.entry⟩
  | poll => exact ⟨told.jobs,told.hand,told.front,told.entry⟩
  | interrupt => exact told
  | leave => exact told

/-! ### Every run -/

/-- What the shell and its record keep. -/
structure Kept (smash_pid : Pid) (s : Shared × Record) (x : Sit) : Prop where
  agrees : Agrees s.1 s.2 x
  tracks : s.2.fresh = true → Tracks smash_pid x
  told : s.2.fresh = true → Told smash_pid s.2 x

theorem keeps_kept (smash_pid : Pid) : (plan smash_pid).Keeps ((recording (smash smash_pid) note).run ()) (Kept smash_pid) := by
  rintro ⟨s,R⟩ x a later _ _ kept step ran
  obtain ⟨⟨r,s'⟩,did,same⟩ := Option.map_eq_some_iff.mp ran
  cases same
  obtain ⟨answers,agrees⟩ := agrees_step kept.agrees step did
  refine ⟨answers,agrees,fun fresh => ?_,fun fresh => ?_⟩
  · obtain ⟨before,new⟩ := fresh_log kept.agrees fresh
    exact step_tracks (kept.tracks before) step new
  · obtain ⟨before,new⟩ := fresh_log kept.agrees fresh
    exact told_step kept.agrees (kept.tracks before) (kept.told before) step new
theorem Kept.at_prompt {s : Shared × Record} (kept : Kept smash_pid s x) (rest : x.Rest) : Kept smash_pid s x.at_prompt where
  agrees := ⟨kept.agrees.vars,kept.agrees.lines,fun _ => nofun⟩
  tracks := kept.tracks
  told fresh := by
    have told := kept.told fresh
    refine ⟨told.jobs,?_,told.front,told.entry⟩
    show HandTells s.2 x.vars.L_Fg_Cmd .prompt x.hand
    rw [rest.hand]
    trivial
/-- In every state each job tells its process's command. -/
theorem recorded_told {lines : List Part} {coming : List Answer} {c : Programs.Config Unit (Shared × Record) Act Res Unit}
    (agree : typed coming = lines.map command) (recorded : Recorded smash_pid lines coming c) (fresh : c.shared.2.fresh = true) :
    ∀ j ∈ c.shared.1.vars.jobs, Tells c.shared.2 j.command j.process_id := by
  have begun : (plan smash_pid).Holds Loop (Kept smash_pid) (attach (initial smash_pid coming) (nothing_noted lines)) := by
    refine ⟨start smash_pid,⟨⟨rfl,agree,fun _ => nofun⟩,fun _ => tracks_start,fun _ => ⟨fun _ => nofun,trivial,?_,fun _ => nofun⟩⟩,?_⟩
    · exact fun _ away => absurd rfl away
    · exact start_rest smash_pid
  obtain ⟨x,kept,_⟩ := shell_keeps (M := recording (smash smash_pid) note) rfl (keeps_kept smash_pid) Kept.at_prompt begun recorded
  rw [kept.agrees.vars]
  exact (kept.told fresh).jobs

/-! ### What a text says -/

theorem string_injective : Function.Injective string := by
  intro s t same
  have chars : Function.Injective fun c : UInt8 => Char.ofNat c.toNat := by
    intro c d same
    have code : ∀ e : UInt8, (Char.ofNat e.toNat).toNat = e.toNat := by
      intro e
      have valid : e.toNat.isValidChar := Or.inl (by have := e.toNat_lt; omega)
      rw [Char.ofNat,dif_pos valid]
      rfl
    have codes := congrArg Char.toNat same
    dsimp only at codes
    rw [code,code] at codes
    exact UInt8.toNat_inj.mp codes
  exact List.map_injective_iff.mpr chars (String.ofList_injective same)
theorem through_first_prefix (delimiter : UInt8 → Bool) (s : Text) : through_first delimiter s <+: s := by
  have split := List.takeWhile_append_dropWhile (p := delimiter) (l := s)
  rw [through_first]
  conv => rhs; rw [← split]
  exact (List.prefix_append_right_inj _).mpr (List.takeWhile_prefix _)
theorem fgets_chars_length (n : Nat) (input : Text) : (fgets_chars n input).1.length ≤ n := by
  induction n generalizing input with
  | zero => simp [fgets_chars]
  | succ n ih =>
    cases input with
    | nil => simp [fgets_chars]
    | cons c input =>
      rw [fgets_chars]
      split
      · simp
      · simpa using ih input
theorem part_short (part : Part) : part.text.length + 1 < MAX_LINE_SIZE := by
  have most := fgets_chars_length (MAX_LINE_SIZE - 1) ((part.line ++ [newline]).drop (part.turns * (MAX_LINE_SIZE - 1)))
  have some_ := List.length_pos_iff.mpr part.some_
  simp only [Part.text,part_of,List.length_dropLast,MAX_LINE_SIZE] at some_ most ⊢
  omega
/-- A line that fits is read in one turn. -/
theorem part_whole (part : Part) (fits : part.line.length + 1 < MAX_LINE_SIZE) : part.text = part.line := by
  have some_ := part.some_
  cases turns : part.turns with
  | zero =>
    have took := fgets_chars_line (n := MAX_LINE_SIZE - 1) part.single (by simp only [MAX_LINE_SIZE] at fits ⊢; omega) []
    rw [Part.text,part_of,turns,Nat.zero_mul,List.drop_zero,took]
    simp
  | succ turns' =>
    have beyond : (part.line ++ [newline]).drop (part.turns * (MAX_LINE_SIZE - 1)) = [] := by
      rw [turns]
      apply List.drop_eq_nil_of_le
      simp only [MAX_LINE_SIZE,List.length_append,List.length_singleton] at fits ⊢
      omega
    rw [part_of,beyond] at some_
    exact absurd rfl some_

/-- The line fits, and it is run in the background or nothing stands behind its first word. -/
def Whole (line : Text) : Prop :=
  line.length + 1 < MAX_LINE_SIZE ∧ (line.getLast? = some ampersand ∨ through_first delimiters line = line)
theorem parsed_full_command {s : Text} {e : External} (runs : parsed s = .external e) :
    e.full_command = if s.getLast? = some ampersand then s else through_first delimiters s := by
  unfold parsed at runs
  split at runs
  · rw [(command_of_external runs).2,if_pos ‹_›]
  · rw [(command_of_external runs).2,if_neg ‹_›]
/-- What `ExeExternal` is given is the whole line. -/
theorem full_command_iff {part : Part} {e : External} (runs : parsed part.text = .external e) :
    e.full_command = part.line ↔ Whole part.line := by
  have text := parsed_full_command runs
  by_cases fits : part.line.length + 1 < MAX_LINE_SIZE
  · rw [part_whole part fits] at text
    rw [text]
    constructor
    · intro same
      refine ⟨fits,?_⟩
      split at same
      · exact .inl ‹_›
      · exact .inr same
    · rintro ⟨_,amp | alone⟩
      · rw [if_pos amp]
      · split
        · rfl
        · exact alone
  · refine ⟨fun same => ?_,fun whole => absurd whole.1 fits⟩
    have within : e.full_command <+: part.text := by
      rw [text]
      split
      · exact List.prefix_rfl
      · exact through_first_prefix _ _
    have most := within.length_le
    have short := part_short part
    rw [same] at most
    omega

/-- The process's text is the line as typed: if fg has found a text where the process's entry was, it is
    this one, and otherwise the line has arrived whole. -/
def AsTyped (R : Record) (pid : Pid) (line : Text) : Prop :=
  match R.found pid with
  | some found => found = string line
  | none => Whole line

/-- In every state of the shell an entry's text is the line that started its process, exactly when the
    line has arrived whole, or fg without an id has found it since. -/
theorem remembered_iff (smash_pid : Pid) (lines : List Part) (coming : List Answer) (agree : typed coming = lines.map command)
    (c : Programs.Config Unit (Shared × Record) Act Res Unit) (recorded : Recorded smash_pid lines coming c)
    (fresh : c.shared.2.fresh = true) :
    ∀ j ∈ c.shared.1.vars.jobs, ∀ part, c.shared.2.started j.process_id = some part →
      (j.command = string part.line ↔ AsTyped c.shared.2 j.process_id part.line) := by
  intro j among part started
  have told := recorded_told agree recorded fresh j among part started
  unfold AsTyped
  split
  · rename_i found is
    rw [is] at told
    rw [told]
  · rename_i none_
    rw [none_] at told
    obtain ⟨e,runs,text⟩ := told
    rw [text,← full_command_iff runs]
    exact string_injective.eq_iff

/-- The shell and its record after so many steps. -/
def recorded_after (smash_pid : Pid) (lines : List Part) (coming : List Answer) (steps : Nat) :
    Option (Programs.Config Unit (Shared × Record) Act Res Unit) :=
  (recording (smash smash_pid) note).runs (List.replicate steps ()) (attach (initial smash_pid coming) (nothing_noted lines))
theorem recorded_of_after {smash_pid : Pid} {lines : List Part} {coming : List Answer} {steps : Nat}
    (ran : (recorded_after smash_pid lines coming steps).isSome = true) : Recorded smash_pid lines coming (Option.get _ ran) :=
  ⟨List.replicate steps (),(Option.some_get ran).symm⟩

/-- `sleep 9 &` and `fg`. -/
def long_nap : Part := ⟨bytes "sleep 9 &",0,by decide,by decide,by decide⟩
def bring_back : Part := ⟨bytes "fg",0,by decide,by decide,by decide⟩
/-- fg finds another text, and the process, stopped from outside, is stopped again at the prompt. -/
def brought_back : List Answer :=
  [.typed (.line (.external "sleep 9 &" true)),.forked (some 7),.now 0,
    .typed (.line (.fg [])),.waited 0,.freed "sleep 9 &",.killed true,.pressed [],.waited 7,.freed "p",
    .typed (.key .ctrl_z),.killed true,.now 5]
theorem brought_back_returns : (recorded_after 5 [long_nap,bring_back] brought_back 34).isSome = true := by decide +kernel
theorem remembered_iff_brought_back :
    (Option.get _ brought_back_returns).shared.1.vars.jobs = [⟨1,"p",7,5,STOP_STATE⟩] ∧
      ¬ AsTyped (Option.get _ brought_back_returns).shared.2 7 long_nap.line := by
  refine ⟨by decide +kernel,fun typed => ?_⟩
  have told := remembered_iff 5 [long_nap,bring_back] brought_back (by decide) _ (recorded_of_after brought_back_returns)
    (by decide +kernel) ⟨1,"p",7,5,STOP_STATE⟩ (by decide +kernel) long_nap rfl
  exact absurd (told.mpr typed) (by decide)

/-- `sleep 9` -/
def nap : Part := ⟨bytes "sleep 9",0,by decide,by decide,by decide⟩
/-- It is stopped while the shell waits for it. -/
def stopped_nap : List Answer :=
  [.typed (.line (.external "sleep" false)),.forked (some 7),.pressed [.ctrl_z],.killed true,.now 3]
theorem stopped_nap_waits : (recorded_after 5 [nap] stopped_nap 16).isSome = true := by decide
theorem nap_cut : ¬ ∀ smash_pid lines coming, typed coming = lines.map command → ∀ c, Recorded smash_pid lines coming c →
    c.shared.2.fresh = true → ∀ j ∈ c.shared.1.vars.jobs, ∀ part, c.shared.2.started j.process_id = some part →
      j.command = string part.line := by
  intro claimed
  have told := claimed 5 [nap] stopped_nap (by decide) _ (recorded_of_after stopped_nap_waits) (by decide) ⟨1,"sleep",7,3,STOP_STATE⟩
    (by decide) nap rfl
  exact absurd told (by decide)

end StructureOfOs.JobCommands
