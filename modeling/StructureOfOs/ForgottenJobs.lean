import StructureOfOs.ShellLedger

/-!
Jobs that are forgotten. An entry leaves the list because of what was asked for and not
because of what became of the process: the kill command takes it out after any of five
signals, which the process may survive, fg takes it out before `kill` may fail, and quit
may be given up after it has taken some out. A launch that finds the list full enters
nothing. `update_list` alone asks first.
-/
namespace StructureOfOs.ForgottenJobs
open StructureOfOs.Programs StructureOfOs.Plans StructureOfOs.Recordings StructureOfOs.Jobs StructureOfOs.Smash
open StructureOfOs.ShellSteps StructureOfOs.ShellFollows StructureOfOs.ShellLedger

variable {smash_pid : Pid} {lives : Children} {s s' : Shared × Ledger} {x : Sit} {a : Act} {r : Res a} {later : Res a → Sit} {α : Type}

/-! ### What removes entries -/

/-- The situation of `update_list` and of the kill command: nothing is in the hand or to be entered. -/
structure Idle (x : Sit) : Prop where
  hand : x.hand = .empty
  entry : x.entry = .none
  doing : x.doing = .past ∧ x.sent = none ∨ ∃ args, x.doing = .line (.kill args)

theorem Idle.closed (idle : Idle x) : ¬ x.Open := by
  intro opened
  rcases idle.doing with ⟨past,_⟩ | ⟨args,killing⟩
  · rcases opened.doing with key | ⟨c,line,_⟩
    · rw [past] at key; cases key
    · rw [past] at line; cases line
  · rcases opened.doing with key | ⟨c,line,other⟩
    · rw [killing] at key; cases key
    · rw [killing] at line; cases line; exact other args rfl
theorem Idle.line {c : Command} (idle : Idle x) (is : x.doing = .line c) : ∃ args, c = .kill args := by
  rcases idle.doing with ⟨past,_⟩ | ⟨args,killing⟩
  · rw [past] at is; cases is
  · rw [killing] at is; cases is; exact ⟨args,rfl⟩
section
variable (lives : Children) (began : Shared × Ledger) (doing : Doing)

end

/-- Process 7 ends with the last of these answers. -/
def ending_last (left : Nat) (p : Pid) : Bool := p ≠ 7 || 0 < left
end StructureOfOs.ForgottenJobs
