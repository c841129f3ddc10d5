import StructureOfOs.Loops

/-!
What a program that changes a state or fails leaves behind: one condition on its value and the
state for the case that it returns, one on the error and the state for the case that it fails.
There is a rule for every way in which programs are put together.
-/
namespace StructureOfOs.Contracts
open StructureOfOs.Loops

variable {ε ω α β : Type}

/-- From this state the program returns as the first condition says, or fails as the second says. -/
def Ensures (x : EStateM ε ω α) (w : ω) (returned : α → ω → Prop) (failed : ε → ω → Prop) : Prop :=
  match x w with
  | .ok r w' => returned r w'
  | .error e w' => failed e w'

variable {x : EStateM ε ω α} {f : α → EStateM ε ω β} {w w' : ω} {e : ε} {r : α}
  {returned returned' : α → ω → Prop} {failed failed' : ε → ω → Prop}

theorem ensures_ok (ran : x w = .ok r w') : Ensures x w returned failed ↔ returned r w' := by rw [Ensures,ran]
theorem ensures_error (ran : x w = .error e w') : Ensures x w returned failed ↔ failed e w' := by rw [Ensures,ran]
theorem ensures_throw (holds : failed e w) : Ensures (throw e : EStateM ε ω α) w returned failed := holds
theorem ensures_modify {change : ω → ω} {returned : PUnit → ω → Prop} (holds : returned ⟨⟩ (change w)) :
    Ensures (modify change) w returned failed := holds
theorem ensures_get {f : ω → EStateM ε ω α} (rest : Ensures (f w) w returned failed) : Ensures (get >>= f) w returned failed := rest
theorem ensures_bind {returned : β → ω → Prop} (first : Ensures x w (fun r w' => Ensures (f r) w' returned failed) failed) :
    Ensures (x >>= f) w returned failed := by
  cases ran : x w with
  | ok r w' =>
    rw [ensures_ok ran] at first
    rw [Ensures,bind_ok ran]
    exact first
  | error e w' =>
    rw [ensures_error ran] at first
    rw [Ensures,bind_error ran]
    exact first
/-- What a program ensures when its first part has returned. -/
theorem ensures_after {returned : β → ω → Prop} (did : x w = .ok r w') (all : Ensures (x >>= f) w returned failed) :
    Ensures (f r) w' returned failed := by
  rwa [Ensures,bind_ok did] at all
theorem ensures_mono (ensures : Ensures x w returned failed) (weaker : ∀ r w', returned r w' → returned' r w')
    (weaker_failed : ∀ e w', failed e w' → failed' e w') : Ensures x w returned' failed' := by
  cases ran : x w with
  | ok r w' => exact (ensures_ok ran).mpr (weaker r w' ((ensures_ok ran).mp ensures))
  | error e w' => exact (ensures_error ran).mpr (weaker_failed e w' ((ensures_error ran).mp ensures))

end StructureOfOs.Contracts
