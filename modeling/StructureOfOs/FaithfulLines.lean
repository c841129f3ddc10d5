import StructureOfOs.Contracts
import StructureOfOs.ShellProgram

/-!
Which texts the shell reads faithfully. The loop never looks at what `fgets` returns and always
takes the last character off, so a line arrives as typed exactly when it fits the buffer and is
ended by a newline; and the shell has to be left by a quit before the input is at its end, and
to come that far without a command that misuses memory.
-/
namespace StructureOfOs.FaithfulLines
open StructureOfOs.Programs StructureOfOs.Jobs StructureOfOs.Smash StructureOfOs.ShellProgram StructureOfOs.Contracts
open StructureOfOs.Streams (Text bytes string getlines chars)
open StructureOfOs.CStrings (cstr strlen Holds)
open StructureOfOs.ShellLines (Line Parsed parsed take_line take_line_spec newline MAX_LINE_SIZE)
open StructureOfOs.InputLines (fgets fgets_chars fgets_chars_line fgets_chars_ended)
open StructureOfOs.JobCommands (built_in)
open StructureOfOs.Directories (FileSystem)

variable {Dir : Type} {α β : Type}

/-! ### What the lines are -/

/-- Every round so far has read the next line of the text with its newline, and interpreted the line. -/
structure InStep (text : Text) (s : Shell Dir) : Prop where
  reads : s.reads = s.lines.map (· ++ [newline])
  lines : s.lines <+: getlines text

section
variable (fs : FileSystem Dir) (smash_pid : Pid) (e : Nat → Surroundings) (d : Dir) (text : Text)

/-- With whatever answers, the shell is in step with the text wherever it is, in every round by one
    line, and does not stop but by an exit or in a call. -/
def Faithful : Prop :=
  ∀ coming n, Ensures (rounds fs smash_pid e n) (start smash_pid d text coming) (fun _ s => InStep text s ∧ s.lines.length = n)
    fun why s => InStep text s ∧ why ≠ .misuse

/-- Where cd leads with one argument, if it leads anywhere. -/
def leads (now : Surroundings) (s : Shell Dir) (arg : Text) : Option Dir :=
  if arg = Directories.dash then
    if s.previous_path = [] then none else Directories.chdir fs now.allowed s.cwd s.previous_path
  else Directories.chdir fs now.allowed s.cwd arg
/-- The commands that read through NULL or beyond an array: a cd alone; a cd that succeeds and a pwd
    when the path is too long for a buffer in which no NUL happens to be; and a diff of files of one
    size where the second one has no more characters than blanks to compare with. -/
def Misuses (now : Surroundings) (s : Shell Dir) : List Text → Prop
  | [] => False
  | cmd :: args =>
    cmd = bytes "pwd" ∧ MAX_LINE_SIZE + 1 ≤ (fs.path s.cwd).length ∧ 0 ∉ now.current_path ∨
    cmd = bytes "cd" ∧ (args = [] ∨ ∃ arg, args = [arg] ∧ (leads fs now s arg).isSome ∧
      MAX_LINE_SIZE ≤ (fs.path s.cwd).length ∧ 0 ∉ now.temp_path) ∨
    cmd = bytes "diff" ∧ ∃ name1 name2 f1 f2, args.map string = [name1,name2] ∧ now.files name1 = some f1 ∧ now.files name2 = some f2 ∧
      f1.length = f2.length ∧ chars f2 <+: chars f1 ∧ ¬ chars f1 <+: chars f2
/-- The words of a line that names a built-in command. -/
def words_of : Parsed → List Text
  | .built_in args => args.filterMap id
  | _ => []
/-- In every round that the shell gets to, the input goes on with the next line of the text, which fits
    the buffer, is ended by a newline, and runs no command that misuses memory. -/
def Served : Prop :=
  ∀ coming n s, after fs smash_pid e n d text coming = .ok () s →
    ∃ (line : Line) (rest : Text), (e n).rewound.getD s.input = line.text ++ newline :: rest ∧
      (getlines text)[n]? = some line.text ∧ ¬ Misuses fs (e n) s (words_of (parsed line.text))
end

variable {fs : FileSystem Dir} {smash_pid : Pid} {e : Nat → Surroundings} {d : Dir} {text : Text} {s s' : Shell Dir} {now : Surroundings}
  {n : Nat}

/-! ### What a command leaves alone -/

/-- What a command leaves alone, and what a function on jobs does. -/
structure SameText (s s' : Shell Dir) : Prop where
  lineSize : s'.lineSize = s.lineSize
  input : s'.input = s.input
  reads : s'.reads = s.reads
  lines : s'.lines = s.lines
structure Beside (s s' : Shell Dir) : Prop extends SameText s s' where
  cwd : s'.cwd = s.cwd
  previous_path : s'.previous_path = s.previous_path

theorem SameText.refl (s : Shell Dir) : SameText s s := ⟨rfl,rfl,rfl,rfl⟩
theorem SameText.in_step (same : SameText s s') : InStep text s' ↔ InStep text s := by
  constructor
  · rintro ⟨reads,lines⟩
    rw [same.reads,same.lines] at reads
    rw [same.lines] at lines
    exact ⟨reads,lines⟩
  · rintro ⟨reads,lines⟩
    rw [← same.reads,← same.lines] at reads
    rw [← same.lines] at lines
    exact ⟨reads,lines⟩
theorem Beside.refl (s : Shell Dir) : Beside s s := ⟨.refl s,rfl,rfl⟩
theorem Beside.trans {s'' : Shell Dir} (first : Beside s s') (second : Beside s' s'') : Beside s s'' where
  lineSize := second.lineSize.trans first.lineSize
  input := second.input.trans first.input
  reads := second.reads.trans first.reads
  lines := second.lines.trans first.lines
  cwd := second.cwd.trans first.cwd
  previous_path := second.previous_path.trans first.previous_path

theorem performs_beside (args : List (Option Text)) (p : Smash.Code α) (s : Shell Dir) :
    Ensures (perform args p) s (fun _ s' => Beside s s') fun why s' => Beside s s' ∧ why ≠ .misuse := by
  induction p generalizing s with
  | ret value => exact .refl s
  | act a next ih =>
    refine ensures_bind ?_
    unfold Ensures act
    split
    · rename_i r s' did
      split at did
      · cases did
        refine ensures_mono (ih r _) (fun _ _ later => ?_) fun _ _ later => ?_
        · exact ⟨⟨later.lineSize,later.input,later.reads,later.lines⟩,later.cwd,later.previous_path⟩
        · exact ⟨⟨⟨later.1.lineSize,later.1.input,later.1.reads,later.1.lines⟩,later.1.cwd,later.1.previous_path⟩,later.2⟩
      · cases did
    · rename_i why s' did
      split at did
      · cases did
      · cases did
        refine ⟨.refl s,?_⟩
        cases a <;> exact nofun

/-! ### What a command misuses -/

/-- The command leaves the text alone, and stops at a misuse exactly as said. -/
def Uses (fs : FileSystem Dir) (now : Surroundings) (words : List Text) (P : Process Dir α) (s : Shell Dir) : Prop :=
  Ensures P s (fun _ s' => SameText s s' ∧ ¬ Misuses fs now s words) fun why s' => SameText s s' ∧ (why = .misuse ↔ Misuses fs now s words)

theorem zero_getcwd {dir : Dir} {buffer : Text} :
    0 ∉ Directories.getcwd fs dir buffer ↔ buffer.length ≤ (fs.path dir).length ∧ 0 ∉ buffer := by
  unfold Directories.getcwd
  split
  · rename_i fits
    simp only [List.mem_append,List.mem_cons,true_or,or_true,not_true_eq_false,false_iff,not_and]
    omega
  · rename_i long
    simp only [iff_and_self]
    omega
theorem uses_perform {words : List Text} (safe : ¬ Misuses fs now s words) (args : List (Option Text)) (p : Smash.Code α) :
    Uses fs now words (perform args p) s :=
  ensures_mono (performs_beside args p s) (fun _ _ beside => ⟨beside.toSameText,safe⟩)
    fun _ _ ⟨beside,other⟩ => ⟨beside.toSameText,iff_of_false other safe⟩
theorem uses_print_all {words : List Text} (safe : ¬ Misuses fs now s words) (lines : List String) (result : Nat) :
    Uses fs now words (do print_all lines; return result : Process Dir Nat) s := by
  have printed : ∀ s' : Shell Dir, SameText s s' → Ensures (do print_all lines; return result : Process Dir Nat) s'
      (fun _ s'' => SameText s s'' ∧ ¬ Misuses fs now s words)
      fun why s'' => SameText s s'' ∧ (why = .misuse ↔ Misuses fs now s words) := by
    induction lines with
    | nil => exact fun _ same => ⟨same,safe⟩
    | cons line lines ih => exact fun s' same => ih _ ⟨same.lineSize,same.input,same.reads,same.lines⟩
  exact printed s (.refl s)

theorem uses_pwd (args : List Text) : Uses fs now (bytes "pwd" :: args) (pwd fs now) s := by
  have misuses : Misuses fs now s (bytes "pwd" :: args) ↔ 0 ∉ Directories.getcwd fs s.cwd now.current_path := by
    rw [zero_getcwd,now.size_pwd]
    simp [Misuses,bytes]
  refine ensures_get ?_
  dsimp only
  split
  · rename_i ended
    exact uses_print_all (by rw [misuses]; exact not_not.mpr ended) [_] SUCCESS
  · rename_i endless
    exact ensures_throw ⟨.refl s,iff_of_true rfl (misuses.mpr endless)⟩

theorem cd_none {printed : List String} {args : List Text} :
    Directories.cd fs args now.temp_path now.allowed ⟨s.cwd,s.previous_path,printed⟩ = none ↔
      args = [] ∨ ∃ arg, args = [arg] ∧ (leads fs now s arg).isSome ∧ MAX_LINE_SIZE ≤ (fs.path s.cwd).length ∧ 0 ∉ now.temp_path := by
  have copies : Directories.strcpy (Directories.getcwd fs s.cwd now.temp_path) = none ↔
      MAX_LINE_SIZE ≤ (fs.path s.cwd).length ∧ 0 ∉ now.temp_path := by
    rw [← now.size,← zero_getcwd,Directories.strcpy]
    simp
  rcases args with _ | ⟨arg,_ | ⟨more,args⟩⟩
  · simp [Directories.cd]
  · simp only [Directories.cd,leads,reduceCtorEq,List.cons.injEq,and_true,exists_eq_left',false_or]
    split_ifs with dash first
    · simp
    · cases Directories.chdir fs now.allowed s.cwd s.previous_path <;> simp [copies]
    · cases Directories.chdir fs now.allowed s.cwd arg <;> simp [copies]
  · simp [Directories.cd]
theorem uses_cd (args : List Text) : Uses fs now (bytes "cd" :: args) (cd fs now args) s := by
  have misuses : Misuses fs now s (bytes "cd" :: args) ↔
      Directories.cd fs args now.temp_path now.allowed ⟨s.cwd,s.previous_path,s.shared.printed⟩ = none := by
    rw [cd_none]
    simp [Misuses,bytes]
  cases did : Directories.cd fs args now.temp_path now.allowed ⟨s.cwd,s.previous_path,s.shared.printed⟩ with
  | some out =>
    have ran : cd fs now args s = .ok out.1
        { s with cwd := out.2.cwd, previous_path := out.2.previous_path, shared := { s.shared with printed := out.2.printed } } := by
      rw [cd,did]
    exact (ensures_ok ran).mpr ⟨⟨rfl,rfl,rfl,rfl⟩,by rw [misuses,did]; nofun⟩
  | none =>
    have failed : cd fs now args s = .error .misuse s := by rw [cd,did]
    exact (ensures_error failed).mpr ⟨.refl s,iff_of_true rfl (misuses.mpr did)⟩
theorem compare_error {f1 f2 : Text} :
    (∃ why, Diff.compare_files f1 f2 = .error why) ↔ f1.length = f2.length ∧ chars f2 <+: chars f1 ∧ ¬ chars f1 <+: chars f2 := by
  by_cases sizes : f1.length = f2.length
  · rw [Diff.same_size sizes]
    split_ifs with early beyond
    · simp [early]
    · exact iff_of_true ⟨_,rfl⟩ ⟨sizes,beyond,early⟩
    · simp [beyond]
  · rw [Diff.compare_files,if_pos sizes]
    simp [sizes]
theorem diff_error {names : List String} : (∃ why, Diff.diff_command now.files names = .error why) ↔
    ∃ name1 name2 f1 f2, names = [name1,name2] ∧ now.files name1 = some f1 ∧ now.files name2 = some f2 ∧
      f1.length = f2.length ∧ chars f2 <+: chars f1 ∧ ¬ chars f1 <+: chars f2 := by
  match names with
  | [] => simp [Diff.diff_command]
  | [_] => simp [Diff.diff_command]
  | _ :: _ :: _ :: _ => simp [Diff.diff_command]
  | [name1,name2] =>
    cases first : now.files name1 with
    | none => simp [Diff.diff_command,first]
    | some f1 =>
      cases second : now.files name2 with
      | none => simp [Diff.diff_command,first,second]
      | some f2 =>
        simp only [Diff.diff_command,first,second,compare_error]
        constructor
        · exact fun differ => ⟨name1,name2,f1,f2,rfl,first,second,differ⟩
        · rintro ⟨_,_,f1',f2',⟨⟩,is1,is2,differ⟩
          cases first.symm.trans is1
          cases second.symm.trans is2
          exact differ
theorem uses_diff (args : List Text) : Uses fs now (bytes "diff" :: args) (diff now args) s := by
  have misuses : Misuses fs now s (bytes "diff" :: args) ↔ ∃ why, Diff.diff_command now.files (args.map string) = .error why := by
    rw [diff_error]
    simp only [Misuses,true_and]
    refine ⟨fun either => ?_,fun differ => .inr (.inr differ)⟩
    rcases either with ⟨other,_⟩ | ⟨other,_⟩ | differ
    · exact absurd other (by decide)
    · exact absurd other (by decide)
    · exact differ
  unfold diff
  split
  · rename_i outcome did
    exact uses_print_all (by rw [misuses,did]; rintro ⟨_,⟨⟩⟩) _ _
  · rename_i why did
    exact ensures_throw ⟨.refl s,iff_of_true rfl (misuses.mpr ⟨why,did⟩)⟩
theorem uses_execute (x : Parsed) : Uses fs now (words_of x) (execute fs smash_pid now x) s := by
  cases x with
  | nothing => exact ⟨.refl s,id⟩
  | external x => exact uses_perform id _ _
  | built_in args =>
    show Uses fs now (args.filterMap id) (ShellProgram.ExeCmd fs smash_pid now (args.filterMap id)) s
    generalize args.filterMap id = ws
    cases ws with
    | nil => exact ⟨.refl s,id⟩
    | cons cmd rest =>
      rw [ShellProgram.ExeCmd]
      split_ifs with showpid pwd_ cd_ diff_
      · subst showpid
        exact uses_print_all (by rintro (⟨other,_⟩ | ⟨other,_⟩ | ⟨other,_⟩) <;> exact absurd other (by decide)) [_] SUCCESS
      · subst pwd_
        exact uses_pwd rest
      · subst cd_
        exact uses_cd rest
      · subst diff_
        exact uses_diff rest
      · refine uses_perform ?_ _ _
        rintro (⟨other,_⟩ | ⟨other,_⟩ | ⟨other,_⟩)
        · exact pwd_ other
        · exact cd_ other
        · exact diff_ other

/-! ### One round -/

theorem InStep.line {line : Text} (in_step : InStep text s) (count : s.lines.length = n) (next : (getlines text)[n]? = some line)
    (reads : s'.reads = s.reads ++ [line ++ [newline]]) (lines : s'.lines = s.lines ++ [line]) :
    InStep text s' ∧ s'.lines.length = n + 1 := by
  refine ⟨⟨?_,?_⟩,by rw [lines,List.length_append,count]; rfl⟩
  · rw [reads,lines,in_step.reads,List.map_append]
    rfl
  · obtain ⟨inside,is⟩ := List.getElem?_eq_some_iff.mp next
    have before : s.lines = (getlines text).take n := by rw [← count]; exact List.prefix_iff_eq_take.mp in_step.lines
    rw [lines,before,← is,List.take_append_getElem inside]
    exact List.take_prefix _ _
/-- A line that fits is read with its newline, and left to be interpreted without it. -/
theorem read_line {line : Line} {input rest : Text} (given : input = line.text ++ newline :: rest) :
    (s.read input).reads = s.reads ++ [line.text ++ [newline]] ∧ (s.read input).lines = s.lines ++ [line.text] ∧
      Holds (s.read input).lineSize (line.text ++ [newline]) := by
  have took := fgets_chars_line (n := MAX_LINE_SIZE - 1) line.single (by have := line.short; omega) rest
  have solid : 0 ∉ line.text ++ [newline] := by simpa [newline] using line.solid
  have some_ : line.text ++ newline :: rest ≠ [] := by simp
  rw [given]
  simp only [Shell.read,fgets,if_neg some_,took,CStrings.cstr_append solid,List.dropLast_concat,true_and]
  exact ⟨solid,_,rfl⟩
theorem misuses_same {words : List Text} (cwd : s'.cwd = s.cwd) (previous_path : s'.previous_path = s.previous_path) :
    Misuses fs now s' words ↔ Misuses fs now s words := by
  cases words with
  | nil => rfl
  | cons cmd args => simp only [Misuses,leads,cwd,previous_path]
theorem round_served {line : Line} {rest : Text} (in_step : InStep text s) (count : s.lines.length = n)
    (given : now.rewound.getD s.input = line.text ++ newline :: rest) (next : (getlines text)[n]? = some line.text)
    (safe : ¬ Misuses fs now s (words_of (parsed line.text))) :
    Ensures (main_round fs smash_pid now) s (fun _ s' => InStep text s' ∧ s'.lines.length = n + 1)
      fun why s' => InStep text s' ∧ why ≠ .misuse := by
  refine ensures_bind (ensures_mono (performs_beside [] _ s) ?_ fun _ _ ⟨beside,other⟩ => ⟨beside.in_step.mpr in_step,other⟩)
  rintro ⟨⟩ s₁ beside₁
  refine ensures_bind (ensures_modify (ensures_get ?_))
  rw [← beside₁.input] at given
  obtain ⟨reads,lines,holds⟩ := read_line given
  have same : (s₁.read (now.rewound.getD s₁.input)).cwd = s₁.cwd ∧
      (s₁.read (now.rewound.getD s₁.input)).previous_path = s₁.previous_path := ⟨rfl,rfl⟩
  generalize s₁.read (now.rewound.getD s₁.input) = s₂ at reads lines holds same
  have went : InStep text s₂ ∧ s₂.lines.length = n + 1 :=
    in_step.line count next (by rw [reads,beside₁.reads]) (by rw [lines,beside₁.lines])
  have some_ : strlen s₂.lineSize ≠ 0 := by rw [strlen,holds.cstr]; simp
  rw [if_neg some_]
  refine ensures_bind (ensures_mono (performs_beside [] _ s₂) ?_ fun _ _ ⟨beside,other⟩ => ⟨beside.in_step.mpr went.1,other⟩)
  rintro ⟨⟩ s₃ beside₃
  obtain ⟨left,taken⟩ := take_line_spec holds line.some_
  rw [taken]
  refine ensures_bind (ensures_modify (ensures_bind ?_))
  let s₄ : Shell Dir := { s₃ with lineSize := left }
  have safe₄ : ¬ Misuses fs now s₄ (words_of (parsed line.text)) := by
    have cwd : s₄.cwd = s.cwd := (beside₃.cwd.trans same.1).trans beside₁.cwd
    have previous_path : s₄.previous_path = s.previous_path := (beside₃.previous_path.trans same.2).trans beside₁.previous_path
    rwa [misuses_same cwd previous_path]
  have in_step₃ := beside₃.in_step.mpr went.1
  have in_step₄ : InStep text s₄ := ⟨in_step₃.reads,in_step₃.lines⟩
  have count₄ : s₄.lines.length = n + 1 := (congrArg List.length beside₃.lines).trans went.2
  refine ensures_mono (uses_execute (parsed line.text)) ?_ ?_
  · rintro _ s₅ ⟨same,_⟩
    exact ⟨same.in_step.mpr in_step₄,(congrArg List.length same.lines).trans count₄⟩
  · rintro why s₅ ⟨same,misused⟩
    exact ⟨same.in_step.mpr in_step₄,fun is => safe₄ (misused.mp is)⟩

/-! ### Answers that are not used -/

/-- The shell with these answers to come. -/
def answered (s : Shell Dir) (coming : List Answer) : Shell Dir := { s with shared := { s.shared with coming := coming } }
/-- A program that returns has used the first of its answers, and looks at none behind them. -/
def Frugal (P : Process Dir α) : Prop :=
  ∀ s value s', P s = .ok value s' → ∃ used, s.shared.coming = used ++ s'.shared.coming ∧
    ∀ behind, P (answered s (used ++ behind)) = .ok value (answered s' behind)

theorem frugal_bind {P : Process Dir α} {f : α → Process Dir β} (first : Frugal P) (rest : ∀ value, Frugal (f value)) :
    Frugal (P >>= f) := by
  intro s value s'' ran
  cases did : P s with
  | error why s' => rw [Loops.bind_error did] at ran; cases ran
  | ok middle s' =>
    rw [Loops.bind_ok did] at ran
    obtain ⟨used,coming,again⟩ := first s middle s' did
    obtain ⟨used',coming',again'⟩ := rest middle s' value s'' ran
    refine ⟨used ++ used',by rw [coming,coming',List.append_assoc],fun behind => ?_⟩
    rw [List.append_assoc,Loops.bind_ok (again (used' ++ behind))]
    exact again' behind
/-- A change that leaves the answers alone. -/
theorem frugal_modify {change : Shell Dir → Shell Dir} (same : ∀ s coming, change (answered s coming) = answered (change s) coming) :
    Frugal (modify change : Process Dir PUnit) := by
  rintro s _ s' ⟨⟩
  have here : change s = answered (change s) s.shared.coming := same s s.shared.coming
  refine ⟨[],by rw [here]; rfl,fun behind => ?_⟩
  show EStateM.Result.ok PUnit.unit (change (answered s behind)) = _
  rw [same]
/-- What is done next does not depend on the answers. -/
theorem frugal_get {f : Shell Dir → Process Dir α} (same : ∀ s coming, f (answered s coming) = f s) (rest : ∀ s, Frugal (f s)) :
    Frugal (get >>= f) := by
  intro s value s' ran
  obtain ⟨used,coming,again⟩ := rest s s value s' ran
  refine ⟨used,coming,fun behind => ?_⟩
  show f (answered s (used ++ behind)) (answered s (used ++ behind)) = _
  rw [same]
  exact again behind
theorem frugal_pure (value : α) : Frugal (pure value : Process Dir α) := by
  rintro s _ s' ⟨⟩
  exact ⟨[],rfl,fun _ => rfl⟩
theorem frugal_throw (why : Stop) : Frugal (throw why : Process Dir α) := by
  rintro s _ s' ⟨⟩

theorem frugal_perform (args : List (Option Text)) (p : Smash.Code α) : Frugal (perform args p : Process Dir α) := by
  induction p with
  | ret value => exact frugal_pure value
  | act a next ih =>
    refine frugal_bind ?_ ih
    intro s r s' did
    unfold act at did
    split at did
    · rename_i r' v ran
      cases did
      have effect := run_effect ran
      refine ⟨takes a r,effect.coming,fun behind => ?_⟩
      have given : Given (answered s (takes a r ++ behind)).shared a r := by
        have given := effect.given
        cases a <;> exact given
      simp only [act,run_given given rfl]
      obtain ⟨vars,coming,signals,printed⟩ := v
      obtain ⟨_,rfl,_,rfl,rfl⟩ := effect
      rfl
    · cases did


theorem frugal_print_all (lines : List String) (result : Nat) : Frugal (do print_all lines; return result : Process Dir Nat) := by
  refine frugal_bind ?_ fun _ => frugal_pure result
  induction lines with
  | nil => exact frugal_pure ()
  | cons line lines ih => exact frugal_bind (frugal_modify fun _ _ => rfl) fun _ => ih
theorem frugal_pwd : Frugal (pwd fs now) := by
  refine frugal_get (fun _ _ => rfl) fun s => ?_
  dsimp only
  split
  · exact frugal_print_all [_] SUCCESS
  · exact frugal_throw _
theorem frugal_cd (args : List Text) : Frugal (cd fs now args) := by
  intro s value s' ran
  unfold cd at ran
  split at ran
  · rename_i result after did
    cases ran
    refine ⟨[],rfl,fun behind => ?_⟩
    simp only [cd,answered,did]
    rfl
  · cases ran
theorem frugal_diff (args : List Text) : Frugal (diff now args : Process Dir Nat) := by
  unfold diff
  split
  · exact frugal_print_all _ _
  · exact frugal_throw _
theorem frugal_execute (x : Parsed) : Frugal (execute fs smash_pid now x) := by
  cases x with
  | nothing => exact frugal_pure _
  | external x => exact frugal_perform _ _
  | built_in args =>
    show Frugal (ShellProgram.ExeCmd fs smash_pid now (args.filterMap id))
    generalize args.filterMap id = ws
    cases ws with
    | nil => exact frugal_pure _
    | cons cmd rest =>
      rw [ShellProgram.ExeCmd]
      split_ifs
      · exact frugal_print_all [_] SUCCESS
      · exact frugal_pwd
      · exact frugal_cd rest
      · exact frugal_diff rest
      · exact frugal_perform _ _
theorem frugal_main_round : Frugal (main_round fs smash_pid now) := by
  refine frugal_bind (frugal_perform _ _) fun _ => frugal_bind (frugal_modify fun _ _ => rfl) fun _ => ?_
  refine frugal_get (fun _ _ => rfl) fun s => ?_
  split
  · exact frugal_throw _
  · refine frugal_bind (frugal_perform _ _) fun _ => ?_
    split
    · exact frugal_throw _
    · exact frugal_bind (frugal_modify fun _ _ => rfl) fun _ => frugal_bind (frugal_execute _) fun _ => frugal_pure _
theorem frugal_rounds (n : Nat) : Frugal (rounds fs smash_pid e n) := by
  induction n with
  | zero => exact frugal_pure _
  | succ n ih => exact frugal_bind ih fun _ => frugal_main_round

/-! ### A round to its line -/

/-- Answers with which the next round gets to its command: no key's signal is sent, and no job has ended. -/
def friendly (smash_pid : Pid) (keys : List Key) (vars : Vars) : List Answer :=
  (if vars.Fg_Proccss_Pid = smash_pid then [] else List.replicate keys.length (.killed false)) ++
    List.replicate vars.jobs.length (.waited 0)

/-- What a function that does not fork does to the jobs, it does to the shell. -/
theorem perform_exec {p : Smash.Code α} {value : α} {shared : Shared} (args : List (Option Text))
    (ran : p.exec (run ()) s.shared = some (value,shared)) :
    ∃ children, perform args p s = .ok value { s with shared := shared, children := children } := by
  induction p generalizing s with
  | ret value' => cases ran; exact ⟨s.children,rfl⟩
  | act a next ih =>
    obtain ⟨⟨r,middle⟩,did,rest⟩ := Option.bind_eq_some_iff.mp ran
    obtain ⟨children,performed⟩ := ih r (s := { s with shared := middle, children := s.children ++ born args a r }) rest
    refine ⟨children,?_⟩
    have acted : act args a s = .ok r { s with shared := middle, children := s.children ++ born args a r } := by
      simp only [act,did]
    exact (Loops.bind_ok acted).trans performed
/-- A handler whose kill fails, if it calls it. -/
theorem handle_refused {key : Key} {shared : Shared} {later : List Answer}
    (answers : shared.coming = (if shared.vars.Fg_Proccss_Pid = smash_pid then [] else [.killed false]) ++ later) :
    ∃ after, (handle smash_pid key).exec (run ()) shared = some ((),after) ∧ after.vars = shared.vars ∧ after.coming = later := by
  by_cases front : shared.vars.Fg_Proccss_Pid = smash_pid
  · have coming : shared.coming = later := by simpa [front] using answers
    cases key with
    | ctrl_c => simp [handle,ctrl_c_hanlder,Smash.print,Smash.get,run,front,coming]
    | ctrl_z => simp [handle,ctrl_z_hanlder,Smash.print,Smash.get,run,front,coming]
  · have coming : shared.coming = .killed false :: later := by simpa [front] using answers
    cases key with
    | ctrl_c => simp [handle,ctrl_c_hanlder,Smash.print,Smash.get,Smash.kill,run,front,coming,SIGINT]
    | ctrl_z => simp [handle,ctrl_z_hanlder,Smash.print,Smash.get,Smash.kill,run,front,coming,SIGTSTP]
theorem handle_all_refused {keys : List Key} {shared : Shared} {later : List Answer}
    (answers : shared.coming =
      (if shared.vars.Fg_Proccss_Pid = smash_pid then [] else List.replicate keys.length (.killed false)) ++ later) :
    ∃ after, (handle_all smash_pid keys).exec (run ()) shared = some ((),after) ∧ after.vars = shared.vars ∧ after.coming = later := by
  induction keys generalizing shared with
  | nil => exact ⟨shared,rfl,rfl,by simpa using answers⟩
  | cons key keys ih =>
    let behind := (if shared.vars.Fg_Proccss_Pid = smash_pid then [] else List.replicate keys.length (.killed false)) ++ later
    have split : shared.coming = (if shared.vars.Fg_Proccss_Pid = smash_pid then [] else [.killed false]) ++ behind := by
      rw [answers]
      dsimp only [behind]
      split_ifs
      · rfl
      · rfl
    obtain ⟨middle,did,vars,coming⟩ := handle_refused split
    obtain ⟨after,rest,vars',coming'⟩ := @ih middle (by rw [coming,vars])
    refine ⟨after,?_,vars'.trans vars,coming'⟩
    rw [handle_all,Prog.exec_bind,did]
    exact rest
theorem update_from_idle (kept rest : List Job) {shared : Shared} {later : List Answer}
    (answers : shared.coming = List.replicate rest.length (.waited 0) ++ later) :
    (update_from kept rest).exec (run ()) shared = some ((),{ shared with coming := later }) := by
  induction rest generalizing kept shared with
  | nil =>
    obtain rfl : shared.coming = later := by simpa using answers
    rfl
  | cons j rest ih =>
    have polled : run () (.waitpid j.process_id .WNOHANG) shared =
        some ((0 : Int),{ shared with coming := List.replicate rest.length (.waited 0) ++ later }) := by
      simp [run,answers,List.replicate_succ]
    rw [update_from,Prog.exec_bind,Prog.exec_call,polled]
    exact ih (kept ++ [j]) rfl
/-- What a round has read and interpreted is a line that fits, if it is in step. -/
theorem line_of_read {input : Text} {t : ShellLines.Taken} (in_step : InStep text s) (count : s.lines.length = n)
    (after : InStep text (s.read input)) (taken : take_line (s.read input).lineSize = some t) :
    ∃ (line : Line) (rest : Text), input = line.text ++ newline :: rest ∧ (getlines text)[n]? = some line.text ∧
        t.parsed = parsed line.text := by
  generalize is : (cstr (s.read input).lineSize).dropLast = l
  have lines : (s.read input).lines = s.lines ++ [l] := by rw [← is]; rfl
  have read : (fgets_chars (MAX_LINE_SIZE - 1) input).1 = l ++ [newline] := by
    have all := after.reads
    rw [lines,List.map_append,← in_step.reads] at all
    exact List.singleton_inj.mp (List.append_cancel_left all)
  obtain ⟨rest,split,single,short⟩ := fgets_chars_ended read
  have solid : 0 ∉ l := by
    intro among
    rw [← is] at among
    have other := List.mem_takeWhile_imp (List.dropLast_subset _ among)
    simp at other
  have holds : Holds (s.read input).lineSize (l ++ [newline]) := by
    have some_ : input ≠ [] := by rw [split]; simp
    refine ⟨by simpa [newline] using solid,?_⟩
    simp only [Shell.read,fgets,if_neg some_,read]
    exact ⟨_,rfl⟩
  have some_ : l ≠ [] := by
    rintro rfl
    have failed : take_line (s.read input).lineSize = none := by rw [take_line,ShellLines.BgCmd_empty holds]; rfl
    rw [failed] at taken
    cases taken
  obtain ⟨left,same⟩ := take_line_spec holds some_
  have fits : l.length + 1 < MAX_LINE_SIZE := by omega
  refine ⟨⟨l,some_,solid,single,fits⟩,rest,split,?_,?_⟩
  · obtain ⟨behind,all⟩ := after.lines
    rw [lines] at all
    show (getlines text)[n]? = some l
    rw [← all,← count]
    simp
  · rw [taken] at same
    rw [Option.some.inj same]
theorem fits_of_round (in_step : InStep text s) (count : s.lines.length = n)
    (answers : s.shared.coming = friendly smash_pid now.keys s.shared.vars)
    (went : Ensures (main_round fs smash_pid now) s (fun _ s' => InStep text s') fun why s' => InStep text s' ∧ why ≠ .misuse) :
    ∃ (line : Line) (rest : Text), now.rewound.getD s.input = line.text ++ newline :: rest ∧ (getlines text)[n]? = some line.text ∧
      ¬ Misuses fs now s (words_of (parsed line.text)) := by
  obtain ⟨after₁,handled,vars,polls⟩ := handle_all_refused answers
  obtain ⟨children₁,did₁⟩ := perform_exec [] handled
  let s₁ : Shell Dir := { s with shared := after₁, children := children₁ }
  have went₁ := ensures_after did₁ went
  let s₂ := s₁.read (now.rewound.getD s₁.input)
  have went₂ : Ensures (if strlen s₂.lineSize = 0 then throw .misuse else _ : Process Dir Unit) s₂ _ _ := went₁
  by_cases empty : strlen s₂.lineSize = 0
  · rw [if_pos empty] at went₂
    exact absurd rfl went₂.2
  rw [if_neg empty] at went₂
  have updated : update_list.exec (run ()) s₂.shared = some ((),{ after₁ with coming := [] }) := by
    rw [update_list,Prog.exec_bind,exec_get]
    refine update_from_idle [] _ ?_
    show after₁.coming = List.replicate after₁.vars.jobs.length (.waited 0) ++ []
    rw [List.append_nil,vars,polls]
  obtain ⟨children₃,did₃⟩ := perform_exec [] updated
  have went₃ := ensures_after did₃ went₂
  cases taken : take_line s₂.lineSize with
  | none =>
    rw [taken] at went₃
    exact absurd rfl went₃.2
  | some t =>
    rw [taken] at went₃
    let s₄ : Shell Dir := { s₂ with lineSize := t.lineSize, shared := { after₁ with coming := [] }, children := children₃ }
    have went₄ : Ensures (do let _ ← execute fs smash_pid now t.parsed; return) s₄ _ _ := went₃
    have uses : Uses fs now (words_of t.parsed) (execute fs smash_pid now t.parsed) s₄ := uses_execute _
    have both : InStep text s₄ ∧ ¬ Misuses fs now s₄ (words_of t.parsed) := by
      cases ran : execute fs smash_pid now t.parsed s₄ with
      | ok r s₅ =>
        obtain ⟨same,safe⟩ := (ensures_ok ran).mp uses
        exact ⟨same.in_step.mp (ensures_after ran went₄),safe⟩
      | error why s₅ =>
        obtain ⟨same,misused⟩ := (ensures_error ran).mp uses
        rw [Ensures,Loops.bind_error ran] at went₄
        exact ⟨same.in_step.mp went₄.1,fun misuses => went₄.2 (misused.mpr misuses)⟩
    obtain ⟨in_step₄,safe⟩ := both
    have in_step₂ : InStep text (s₁.read (now.rewound.getD s₁.input)) := ⟨in_step₄.reads,in_step₄.lines⟩
    have in_step₁ : InStep text s₁ := ⟨in_step.reads,in_step.lines⟩
    obtain ⟨line,rest,given,next,is⟩ := line_of_read in_step₁ count in_step₂ taken
    refine ⟨line,rest,given,next,?_⟩
    rw [← is]
    exact fun misused => safe ((misuses_same rfl rfl).mpr misused)

/-- The shell reads a text faithfully exactly when it gets by lines that fit, are ended and misuse
    nothing to one that ends it. -/
theorem faithful_iff (fs : FileSystem Dir) (smash_pid : Pid) (e : Nat → Surroundings) (d : Dir) (text : Text) :
    Faithful fs smash_pid e d text ↔ Served fs smash_pid e d text := by
  constructor
  · intro faithful coming n s came
    obtain ⟨used,uses,again⟩ := frugal_rounds n _ _ _ came
    let coming' := used ++ friendly smash_pid (e n).keys s.shared.vars
    have came' : after fs smash_pid e n d text coming' = .ok () (answered s (friendly smash_pid (e n).keys s.shared.vars)) := again _
    obtain ⟨in_step,count⟩ := (ensures_ok came').mp (faithful coming' n)
    have went := ensures_after came' (faithful coming' (n + 1))
    have went : Ensures (main_round fs smash_pid (e n)) (answered s (friendly smash_pid (e n).keys s.shared.vars))
        (fun _ s' => InStep text s') fun why s' => InStep text s' ∧ why ≠ .misuse :=
      ensures_mono went (fun _ _ both => both.1) fun _ _ both => both
    obtain ⟨line,rest,given,next,safe⟩ := fits_of_round in_step count rfl went
    exact ⟨line,rest,given,next,fun misused => safe ((misuses_same rfl rfl).mpr misused)⟩
  · intro served coming n
    induction n with
    | zero => exact ⟨⟨rfl,List.nil_prefix⟩,rfl⟩
    | succ n ih =>
      refine ensures_bind ?_
      cases came : rounds fs smash_pid e n (start smash_pid d text coming) with
      | error why s => exact (ensures_error came).mpr ((ensures_error came).mp ih)
      | ok value s =>
        obtain ⟨in_step,count⟩ := (ensures_ok came).mp ih
        obtain ⟨line,rest,given,next,safe⟩ := served coming n s came
        exact (ensures_ok came).mpr (round_served in_step count given next safe)

/-- One directory, and nothing that happens beside the shell. -/
def lone_root : FileSystem Unit where
  path _ := bytes "/"
  resolve _ _ := some ()
  named _ := by decide
  solid _ := by decide
  absolute _ _ _ _ := rfl
theorem zeros_fit : (List.replicate MAX_LINE_SIZE 0 : Text).length = MAX_LINE_SIZE := List.length_replicate
def all_quiet (_ : Nat) : Surroundings :=
  ⟨[],none,true,fun _ => none,List.replicate MAX_LINE_SIZE 0,List.replicate (MAX_LINE_SIZE + 1) 0,zeros_fit,List.length_replicate⟩
/-- An empty line, then a quit. -/
def pressed_enter : Text := bytes "\nquit\n"
theorem empty_line_indexed :
    ¬ ∀ (fs : FileSystem Unit) smash_pid e d text, Faithful fs smash_pid e d text := by
  intro claimed
  have all := claimed lone_root 1 all_quiet () pressed_enter [] 1
  have failed : ∃ s, after lone_root 1 all_quiet 1 () pressed_enter [] = .error .misuse s := ⟨_,rfl⟩
  obtain ⟨s,failed⟩ := failed
  exact ((ensures_error failed).mp all).2 rfl

/-- The last character of a text is lost if it is no newline. -/
example : (final (after lone_root 1 all_quiet 1 () (bytes "quit") [])).lines = [bytes "qui"] := by decide

end StructureOfOs.FaithfulLines
