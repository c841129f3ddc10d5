import StructureOfOs.CStrings
import StructureOfOs.ShellLines
import StructureOfOs.Smash

/-!
The cd command. It keeps the path of the directory that it leaves in a buffer as long as a line,
and never looks whether `getcwd` could write it there. Beside it stands what cd is for: a shell
that keeps the directory itself. The two agree exactly as long as the directories that are left
have paths for which the buffer has room.
-/
namespace StructureOfOs.Directories
open StructureOfOs.Streams (Text bytes string)
open StructureOfOs.CStrings StructureOfOs.ShellLines
open StructureOfOs.Smash (SUCCESS FAILURE)

/-- `"-"` -/
def dash : Text := [45]

/-- Directories with their absolute paths. A path leads somewhere from a directory, an absolute
    one, if anywhere, to its directory. -/
structure FileSystem (Dir : Type) where
  path : Dir → Text
  resolve : Dir → Text → Option Dir
  named : ∀ d, path d ≠ []
  solid : ∀ d, 0 ∉ path d
  absolute : ∀ from_ d d', resolve from_ (path d) = some d' → d' = d
/-- A cd with one argument: what lies in `temp_path` when it is declared, and whether the system
    lets chdir succeed. -/
structure Cd where
  arg : Text
  leftover : Text
  allowed : Bool
  size : leftover.length = MAX_LINE_SIZE
structure Shell (Dir : Type) where
  cwd : Dir
  previous_path : Text
  printed : List String

section
variable {Dir : Type} (fs : FileSystem Dir)

/-- The buffer after `getcwd`, which fails when the path and its NUL do not fit. -/
def getcwd (d : Dir) (buffer : Text) : Text :=
  if (fs.path d).length < buffer.length then fs.path d ++ 0 :: buffer.drop ((fs.path d).length + 1) else buffer
def chdir (allowed : Bool) (d : Dir) (path : Text) : Option Dir := if allowed then fs.resolve d path else none
/-- `none` when no NUL ends what is copied. -/
def strcpy (mem : Text) : Option Text := if 0 ∈ mem then some (cstr mem) else none
/-- The cd command with its arguments, `none` when it reads beyond an array or through NULL. perror
    prints the reason as well. -/
def cd (args : List Text) (leftover : Text) (allowed : Bool) (s : Shell Dir) : Option (Nat × Shell Dir) :=
  match args with
  | [] => none
  | [arg] =>
    let temp_path := getcwd fs s.cwd leftover
    if arg = dash then
      if s.previous_path = [] then
        some (FAILURE,{ s with printed := s.printed ++ ["smah error: OLDPWD not set"] })
      else
        match chdir fs allowed s.cwd s.previous_path with
        | some d => (strcpy temp_path).map fun previous_path => (SUCCESS,{ s with cwd := d, previous_path := previous_path })
        | none => some (FAILURE,{ s with printed := s.printed ++ ["smash error: chdir failed"] })
    else
      match chdir fs allowed s.cwd arg with
      | none => some (FAILURE,{ s with printed := s.printed ++ ["smash error: chdir failed"] })
      | some d => (strcpy temp_path).map fun previous_path => (SUCCESS,{ s with cwd := d, previous_path := previous_path })
  | _ => some (FAILURE,{ s with printed := s.printed ++ ["smash error: cd: too many arguments"] })

/-- A cd that has returned. -/
structure Step (Dir : Type) where
  before : Shell Dir
  cd : Cd
  result : Nat
  after : Shell Dir
/-- What a row of cds does, `none` when one of them reads beyond an array. -/
def run : List Cd → Shell Dir → Option (List (Step Dir))
  | [],_ => some []
  | c :: cds,s => do
    let (result,after) ← cd fs [c.arg] c.leftover c.allowed s
    let later ← run cds after
    return ⟨s,c,result,after⟩ :: later
def start (d : Dir) : Shell Dir := ⟨d,[],[]⟩

/-! ### Going back -/

/-- The directory before the last cd that has succeeded. -/
def came_from (d : Option Dir) : List (Step Dir) → Option Dir
  | [] => d
  | step :: steps => came_from (if step.result = SUCCESS then some step.before.cwd else d) steps
/-- What a cd does, when the last one that has succeeded has left this directory. -/
structure Good (d : Option Dir) (step : Step Dir) : Prop where
  remembers : step.result = SUCCESS → step.after.previous_path = fs.path step.before.cwd
  returns : step.result = SUCCESS → step.cd.arg = dash → d = some step.after.cwd
  unchanged : step.result ≠ SUCCESS → step.after.cwd = step.before.cwd ∧ step.after.previous_path = step.before.previous_path
def AllGood (d : Option Dir) (steps : List (Step Dir)) : Prop :=
  ∀ front step back, steps = front ++ step :: back → Good fs (came_from d front) step
/-- Each cd does what it should, and two `cd -` in a row return. -/
structure GoesBack (steps : List (Step Dir)) : Prop where
  each : AllGood fs none steps
  twice : ∀ front first second back, steps = front ++ first :: second :: back → first.cd.arg = dash → second.cd.arg = dash →
    first.result = SUCCESS → second.result = SUCCESS → second.after.cwd = first.before.cwd

/-- What the shell should know: where it is, and where it was before the last cd that has succeeded. -/
structure Place (Dir : Type) where
  cwd : Dir
  came_from : Option Dir
/-- Where a cd leads from a place, if it succeeds. -/
def leads (p : Place Dir) (c : Cd) : Option Dir :=
  if c.arg = dash then p.came_from.bind fun d => chdir fs c.allowed p.cwd (fs.path d) else chdir fs c.allowed p.cwd c.arg
def next (p : Place Dir) (c : Cd) : Place Dir :=
  match leads fs p c with
  | some d => ⟨d,some p.cwd⟩
  | none => p
/-- Every cd that succeeds leaves a directory whose path fits the buffer. -/
def Short : Place Dir → List Cd → Prop
  | _,[] => True
  | p,c :: cds => ((leads fs p c).isSome → (fs.path p.cwd).length < MAX_LINE_SIZE) ∧ Short (next fs p c) cds
end

variable {Dir : Type} {fs : FileSystem Dir} {s : Shell Dir} {p : Place Dir} {d : Option Dir} {step : Step Dir} {steps : List (Step Dir)}
  {leftover : Text}

/-! ### The buffer -/

theorem strcpy_short {d : Dir} (size : leftover.length = MAX_LINE_SIZE) (short : (fs.path d).length < MAX_LINE_SIZE) :
    strcpy (getcwd fs d leftover) = some (fs.path d) := by
  rw [getcwd,size,if_pos short,strcpy,if_pos (by simp),cstr_append (fs.solid d)]
/-- What is copied from a buffer that `getcwd` has left alone is not the path. -/
theorem strcpy_long {d : Dir} (size : leftover.length = MAX_LINE_SIZE) (long : ¬ (fs.path d).length < MAX_LINE_SIZE) :
    strcpy (getcwd fs d leftover) ≠ some (fs.path d) := by
  rw [getcwd,size,if_neg long,strcpy]
  split
  · rename_i ended
    intro same
    have shorter : (cstr leftover).length < leftover.length := by
      have prefix_ := List.takeWhile_prefix (l := leftover) (· ≠ (0 : UInt8))
      refine Nat.lt_of_le_of_ne prefix_.length_le fun all => ?_
      have whole : cstr leftover = leftover := prefix_.eq_of_length all
      rw [← whole] at ended
      simpa using List.mem_takeWhile_imp ended
    rw [Option.some.inj same,size] at shorter
    exact long shorter
  · simp

/-! ### One cd -/

/-- The shell is at the place, and has its path. -/
structure Mirrors (fs : FileSystem Dir) (s : Shell Dir) (p : Place Dir) : Prop where
  here : s.cwd = p.cwd
  path : s.previous_path = (p.came_from.map fs.path).getD []

theorem cd_fails (mirrors : Mirrors fs s p) {c : Cd} (fails : leads fs p c = none) :
    ∃ printed, cd fs [c.arg] c.leftover c.allowed s = some (FAILURE,{ s with printed := printed }) := by
  simp only [leads] at fails
  simp only [cd,mirrors.here,mirrors.path]
  split at fails
  · rw [if_pos ‹_›]
    cases back : p.came_from with
    | none => exact ⟨_,rfl⟩
    | some d =>
      rw [back] at fails
      have fails : chdir fs c.allowed p.cwd (fs.path d) = none := fails
      simp only [Option.map_some,Option.getD_some,if_neg (fs.named d),fails]
      exact ⟨_,rfl⟩
  · rw [if_neg ‹_›,fails]
    exact ⟨_,rfl⟩
theorem cd_succeeds (mirrors : Mirrors fs s p) {c : Cd} {d : Dir} (there : leads fs p c = some d) :
    cd fs [c.arg] c.leftover c.allowed s =
      (strcpy (getcwd fs s.cwd c.leftover)).map fun previous_path => (SUCCESS,{ s with cwd := d, previous_path := previous_path }) := by
  simp only [leads] at there
  simp only [cd,mirrors.here,mirrors.path]
  split at there
  · rw [if_pos ‹_›]
    obtain ⟨from_,back,there⟩ := Option.bind_eq_some_iff.mp there
    simp only [back,Option.map_some,Option.getD_some,if_neg (fs.named from_),there]
  · rw [if_neg ‹_›,there]
/-- `cd -` leads to the directory that the place was left for. -/
theorem leads_back {c : Cd} {d : Dir} (back : c.arg = dash) (there : leads fs p c = some d) : p.came_from = some d := by
  rw [leads,if_pos back] at there
  obtain ⟨from_,came,there⟩ := Option.bind_eq_some_iff.mp there
  rw [chdir] at there
  split at there
  · rw [came,fs.absolute p.cwd from_ d there]
  · cases there

/-! ### A row of cds -/

theorem all_good_cons : AllGood fs d (step :: steps) ↔
    Good fs d step ∧ AllGood fs (if step.result = SUCCESS then some step.before.cwd else d) steps := by
  constructor
  · intro all
    exact ⟨all [] step steps rfl,fun front later back split => all (step :: front) later back (by rw [split]; rfl)⟩
  · rintro ⟨first,rest⟩ front later back split
    cases front with
    | nil =>
      cases split
      exact first
    | cons step' front =>
      cases split
      exact rest front later back rfl
theorem came_from_append (front : List (Step Dir)) (step : Step Dir) (succeeded : step.result = SUCCESS) :
    came_from d (front ++ [step]) = some step.before.cwd := by
  induction front generalizing d with
  | nil => rw [List.nil_append,came_from,if_pos succeeded,came_from]
  | cons first front ih => exact ih
theorem goes_back_of_all_good (all : AllGood fs none steps) : GoesBack fs steps := by
  refine ⟨all,fun front first second back split _ returning succeeded succeeded' => ?_⟩
  have returned := (all (front ++ [first]) second back (by rw [split]; simp)).returns succeeded' returning
  rw [came_from_append front first succeeded] at returned
  exact (Option.some.inj returned).symm

theorem run_cons {c : Cd} {cds : List Cd} : (∃ steps, run fs (c :: cds) s = some steps ∧ AllGood fs d steps) ↔
    ∃ result after, cd fs [c.arg] c.leftover c.allowed s = some (result,after) ∧ Good fs d ⟨s,c,result,after⟩ ∧
      ∃ later, run fs cds after = some later ∧ AllGood fs (if result = SUCCESS then some s.cwd else d) later := by
  constructor
  · rintro ⟨steps,ran,all⟩
    obtain ⟨⟨result,after⟩,did,ran⟩ := Option.bind_eq_some_iff.mp ran
    obtain ⟨later,went,same⟩ := Option.bind_eq_some_iff.mp ran
    cases same
    obtain ⟨first,rest⟩ := all_good_cons.mp all
    exact ⟨result,after,did,first,later,went,rest⟩
  · rintro ⟨result,after,did,first,later,ran,rest⟩
    exact ⟨_,by rw [run,did]; simp only [Option.bind_eq_bind,Option.bind_some,ran]; rfl,all_good_cons.mpr ⟨first,rest⟩⟩
theorem goes_back_from {cds : List Cd} (mirrors : Mirrors fs s p) :
    (∃ steps, run fs cds s = some steps ∧ AllGood fs p.came_from steps) ↔ Short fs p cds := by
  induction cds generalizing s p with
  | nil => exact ⟨fun _ => trivial,fun _ => ⟨[],rfl,fun front step back split => by cases front <;> cases split⟩⟩
  | cons c cds ih =>
    rw [run_cons,Short,next]
    cases there : leads fs p c with
    | none =>
      obtain ⟨printed,did⟩ := cd_fails mirrors there
      have mirrors' : Mirrors fs { s with printed := printed } p := ⟨mirrors.here,mirrors.path⟩
      constructor
      · rintro ⟨result,after,did',_,later⟩
        rw [did] at did'
        cases did'
        exact ⟨by simp,(ih mirrors').mp later⟩
      · rintro ⟨_,short⟩
        have failed : FAILURE ≠ SUCCESS := by decide
        exact ⟨_,_,did,⟨fun succeeded => absurd succeeded failed,fun succeeded => absurd succeeded failed,fun _ => ⟨rfl,rfl⟩⟩,
          (ih mirrors').mpr short⟩
    | some d =>
      have did := cd_succeeds mirrors there
      have path := mirrors.here
      constructor
      · rintro ⟨result,after,did',good,later⟩
        rw [did] at did'
        obtain ⟨previous_path,copied,same⟩ := Option.map_eq_some_iff.mp did'
        cases same
        have remembered : previous_path = fs.path s.cwd := good.remembers rfl
        subst remembered
        refine ⟨fun _ => ?_,?_⟩
        · rw [← path]
          exact not_not.mp fun long => strcpy_long c.size long copied
        · rw [path] at later
          have mirrors' : Mirrors fs { s with cwd := d, previous_path := fs.path p.cwd } ⟨d,some p.cwd⟩ := ⟨rfl,rfl⟩
          exact (ih mirrors').mp later
      · rintro ⟨short,rest⟩
        have copied := strcpy_short c.size (by rw [path]; exact short rfl : (fs.path s.cwd).length < MAX_LINE_SIZE)
        rw [copied] at did
        refine ⟨_,_,did,⟨fun _ => rfl,fun _ back => leads_back back there,fun failed => absurd rfl failed⟩,?_⟩
        rw [if_pos rfl,path]
        have mirrors' : Mirrors fs { s with cwd := d, previous_path := fs.path p.cwd } ⟨d,some p.cwd⟩ := ⟨rfl,rfl⟩
        exact (ih mirrors').mpr rest

/-- cd goes back, in a row of any length, exactly when each one that succeeds leaves a directory with a path
    that fits. -/
theorem goes_back_iff (fs : FileSystem Dir) (d : Dir) (cds : List Cd) :
    (∃ steps, run fs cds (start d) = some steps ∧ GoesBack fs steps) ↔ Short fs ⟨d,none⟩ cds := by
  rw [← goes_back_from (⟨rfl,rfl⟩ : Mirrors fs (start d) ⟨d,none⟩)]
  constructor
  · rintro ⟨steps,ran,good⟩
    exact ⟨steps,ran,good.each⟩
  · rintro ⟨steps,ran,all⟩
    exact ⟨steps,ran,goes_back_of_all_good all⟩

/-- Forty letters. -/
def name : Text := List.replicate 40 97
/-- The paths of the root, of a directory in it, and of one in that one. -/
def nested_path (d : Fin 3) : Text := if d = 0 then [47] else (List.replicate d.val (47 :: name)).flatten
def nested : FileSystem (Fin 3) where
  path := nested_path
  resolve d path :=
    if path = name then if d = 0 then some 1 else if d = 1 then some 2 else none
    else [0,1,2].find? fun d' => nested_path d' = path
  named := by decide
  solid := by decide
  absolute := by decide
/-- A cd that the system permits, with a buffer of zeros. -/
def plain (arg : Text) : Cd := ⟨arg,List.replicate MAX_LINE_SIZE 0,true,by decide⟩
/-- Down twice, up to the root, and back. -/
def descending : List Cd := [plain name,plain name,plain [47],plain dash]
theorem deep_directory_lost :
    ¬ ∀ (Dir : Type) (fs : FileSystem Dir) d cds, ∃ steps, run fs cds (start d) = some steps ∧ GoesBack fs steps := by
  intro claimed
  obtain ⟨steps,ran,good⟩ := claimed (Fin 3) nested 0 descending
  have short : Short nested ⟨0,none⟩ descending := (goes_back_from ⟨rfl,rfl⟩).mp ⟨steps,ran,good.each⟩
  have fits : (nested_path 2).length < MAX_LINE_SIZE := short.2.2.1 (by decide)
  exact absurd fits (by decide)

end StructureOfOs.Directories
