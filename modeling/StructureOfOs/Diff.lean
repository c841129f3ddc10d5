import StructureOfOs.Streams
import StructureOfOs.Smash

/-!
The diff command of commands.cpp. Files of one size are compared by iterators that skip
whitespace, so it is only their other characters that are compared, and files of one size
need not have equally many of these.
-/
namespace StructureOfOs.Diff
open StructureOfOs.Streams StructureOfOs.Smash

/-- What the command prints and returns. -/
structure Outcome where
  printed : List String
  status : Nat
deriving DecidableEq, Repr
/-- The comparison of two files that are open. `f1` and `f2` are opened at their ends, for
    their sizes; the iterator on `f1` is therefore past the end. -/
def compare_files (f1 f2 : Text) : Except Misuse Outcome :=
  if f1.length ≠ f2.length then .ok ⟨["1"],FAILURE⟩
  else do
    let f1_start_iterator := istream_iterator (opened f1)
    let f2_iterator := istream_iterator (opened f2)
    let f1_iterator := istream_iterator (opened (f1.drop f1.length))
    if ← equal f1_start_iterator f1_iterator f2_iterator then return ⟨["0"],SUCCESS⟩ else return ⟨["1"],SUCCESS⟩
/-- `files` gives the bytes of the files that can be opened. -/
def diff_command (files : String → Option Text) : List String → Except Misuse Outcome
  | [name1,name2] =>
    match files name1,files name2 with
    | some f1,some f2 => compare_files f1 f2
    | _,_ => .ok ⟨["smash error: fopen failed"],FAILURE⟩
  | _ => .ok ⟨["smash error: diff: invalid arguments"],FAILURE⟩

/-- The command says whether the files are equal, and uses no iterator beyond its end. -/
def Decides (f1 f2 : Text) : Except Misuse Outcome → Prop
  | .ok outcome => outcome.printed = ["0"] ↔ f1 = f2
  | .error .exhausted => False
/-- The other characters of neither file are a beginning of those of the other. -/
def DifferEarly (f1 f2 : Text) : Prop := ¬ chars f1 <+: chars f2 ∧ ¬ chars f2 <+: chars f1

variable {f1 f2 : Text}

/-- Files of one size. -/
theorem same_size (sizes : f1.length = f2.length) :
    compare_files f1 f2 =
      if chars f1 <+: chars f2 then .ok ⟨["0"],SUCCESS⟩
      else if chars f2 <+: chars f1 then .error .exhausted
      else .ok ⟨["1"],SUCCESS⟩ := by
  have last : istream_iterator (opened (f1.drop f1.length)) = .end_ := by
    rw [List.drop_length]
    rfl
  rw [compare_files,if_neg (not_not.mpr sizes),last]
  dsimp only
  rw [equal_spec (iterator_good f1) (iterator_good f2),iterator_chars,iterator_chars]
  split_ifs <;> rfl
theorem compare_decides_iff (f1 f2 : Text) :
    Decides f1 f2 (compare_files f1 f2) ↔ f1.length ≠ f2.length ∨ f1 = f2 ∨ DifferEarly f1 f2 := by
  by_cases sizes : f1.length = f2.length
  · by_cases same : f1 = f2
    · subst same
      rw [same_size sizes,if_pos (List.prefix_refl _)]
      simp [Decides]
    · rw [same_size sizes,DifferEarly]
      split_ifs with early beyond
      · simp [Decides,sizes,same,early]
      · simp [Decides,sizes,same,beyond]
      · simp [Decides,sizes,same,early,beyond]
  · have differ : f1 ≠ f2 := fun same => sizes (congrArg List.length same)
    rw [compare_files,if_pos sizes]
    simp [Decides,sizes,differ]

/-- diff decides equality exactly when the sizes differ, the files are equal, or they differ in
    their other characters before either of them has no more of these. -/
theorem diff_decides_iff (files : String → Option Text) (name1 name2 : String) (f1 f2 : Text)
    (readable1 : files name1 = some f1) (readable2 : files name2 = some f2) :
    Decides f1 f2 (diff_command files [name1,name2]) ↔ f1.length ≠ f2.length ∨ f1 = f2 ∨ DifferEarly f1 f2 := by
  rw [diff_command,readable1,readable2]
  exact compare_decides_iff f1 f2

/-- Two files of two bytes, "a" and a blank in either order. -/
def two_files (name : String) : Option Text :=
  if name = "left" then some [97,32] else if name = "right" then some [32,97] else none
theorem blanks_moved : ¬ ∀ files name1 name2 f1 f2, files name1 = some f1 → files name2 = some f2 →
    Decides f1 f2 (diff_command files [name1,name2]) := by
  intro claimed
  have decides := claimed two_files "left" "right" _ _ rfl rfl
  have either := (compare_decides_iff [97,32] [32,97]).mp decides
  revert either
  simp only [DifferEarly]
  decide

theorem diff_decides_iff_left : Decides [97,32] [97,32] (diff_command two_files ["left","left"]) :=
  (diff_decides_iff two_files "left" "left" [97,32] [97,32] rfl rfl).mpr (.inr (.inl rfl))

end StructureOfOs.Diff
