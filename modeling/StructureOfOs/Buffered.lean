import StructureOfOs.WriteOnce
import Mathlib.Data.List.Infix

/-!
A directory whose open files are written through buffers. What has been handed over to an
open file is in it up to some point only, and in full once it has been closed. And rows of
calls that may be cut off anywhere (`Always`): what holds wherever they are cut off.
-/
namespace StructureOfOs.Buffered
open StructureOfOs.WriteOnce

/-- The files that are closed, and all that has been handed over to the open ones. -/
structure Disk (Key Item : Type) where
  settled : Key → Option (List Item)
  streams : Key → Option (List Item)

variable {Key Item : Type} {F files : Key → Option (List Item)} {key : Key} {items handed : List Item}

/-- What the directory may hold. -/
def Disk.Holds (D : Disk Key Item) (files : Key → Option (List Item)) : Prop :=
  ∀ key, match D.streams key with
    | none => files key = D.settled key
    | some handed => ∃ held, held <+: handed ∧ files key = some held

section
variable [DecidableEq Key]

def Disk.opened (D : Disk Key Item) (key : Key) : Disk Key Item := { D with streams := Function.update D.streams key (some []) }
def Disk.written (D : Disk Key Item) (key : Key) (items : List Item) : Disk Key Item :=
  { D with streams := Function.update D.streams key ((D.streams key).map (· ++ items)) }
/-- A file that has been removed while it was open is not there when it is closed. -/
def Disk.closed (D : Disk Key Item) (key : Key) : Disk Key Item :=
  match D.streams key with
  | none => D
  | some handed => ⟨put D.settled (key,handed),Function.update D.streams key none⟩
def Disk.removed (D : Disk Key Item) (key : Key) : Disk Key Item :=
  ⟨Function.update D.settled key none,Function.update D.streams key none⟩
end

/-- No file is open, or one. -/
def Disk.still (F : Key → Option (List Item)) : Disk Key Item := ⟨F,fun _ => none⟩
def Disk.writing [DecidableEq Key] (F : Key → Option (List Item)) (key : Key) (handed : List Item) : Disk Key Item :=
  ⟨F,Function.update (fun _ => none) key (some handed)⟩

/-! ### One open file -/

section
variable [DecidableEq Key]

end

section
variable {σ Call : Type} {step : σ → Call → σ} {P Q : σ → Prop} {at_ : σ} {call : Call} {calls more : List Call}

/-- It holds wherever the row is cut off. -/
def Always (step : σ → Call → σ) (P : σ → Prop) : σ → List Call → Prop
  | at_,[] => P at_
  | at_,call :: calls => P at_ ∧ Always step P (step at_ call) calls

theorem Always.take (always : Always step P at_ calls) (k : Nat) : P ((calls.take k).foldl step at_) := by
  induction calls generalizing at_ k with
  | nil => rw [List.take_nil]; exact always
  | cons call calls ih =>
    cases k with
    | zero => exact always.1
    | succ k => exact ih always.2 k
theorem Always.mono (always : Always step P at_ calls) (weaker : ∀ at_, P at_ → Q at_) : Always step Q at_ calls := by
  induction calls generalizing at_ with
  | nil => exact weaker _ always
  | cons call calls ih => exact ⟨weaker _ always.1,ih always.2⟩
end

end StructureOfOs.Buffered
