import StructureOfOs.Loops
import Mathlib.Order.Defs.Unbundled

/-!
What a program does to its world, as a relation between the world it starts from and the
one it leaves, whichever way it ends. A relation that is reflexive and transitive is kept
by the ways in which programs are put together, loops included, so it is proved for a
program by proving it for the few operations it is made of.
-/
namespace StructureOfOs.Frames
open StructureOfOs.Loops

variable {ε ω σ α β : Type}

/-- However the program ends, the relation holds from the world before to the world after. -/
structure Moves (R : ω → ω → Prop) (x : EStateM ε ω α) : Prop where
  ok : ∀ {w r w'}, x w = .ok r w' → R w w'
  error : ∀ {w e w'}, x w = .error e w' → R w w'

variable {R : ω → ω → Prop} {x y : EStateM ε ω α} {f : α → EStateM ε ω β}

theorem moves_ite {condition : Prop} [Decidable condition] (yes : Moves R x) (no : Moves R y) :
    Moves R (if condition then x else y) := by
  split
  · exact yes
  · exact no
theorem moves_modify {change : ω → ω} (changes : ∀ w, R w (change w)) : Moves R (modify change : EStateM ε ω PUnit) := by
  constructor
  · rintro w r w' ⟨⟩
    exact changes w
  · rintro w e w' ⟨⟩

section
variable [IsPreorder ω R]

theorem moves_pure (r : α) : Moves R (pure r : EStateM ε ω α) := by
  constructor
  · rintro w r' w' ⟨⟩
    exact refl w
  · rintro w e w' ⟨⟩
theorem moves_throw (e : ε) : Moves R (throw e : EStateM ε ω α) := by
  constructor
  · rintro w r w' ⟨⟩
  · rintro w e' w' ⟨⟩
    exact refl w
theorem moves_bind (first : Moves R x) (rest : ∀ r, Moves R (f r)) : Moves R (x >>= f) := by
  constructor
  · intro w r w' ran
    cases before : x w with
    | ok r' v =>
      rw [bind_ok before] at ran
      exact IsTrans.trans _ _ _ (first.ok before) ((rest r').ok ran)
    | error e v => rw [bind_error before] at ran; cases ran
  · intro w e w' fails
    cases before : x w with
    | ok r' v =>
      rw [bind_ok before] at fails
      exact IsTrans.trans _ _ _ (first.ok before) ((rest r').error fails)
    | error e' v =>
      rw [bind_error before] at fails
      cases fails
      exact first.error before

/-! ### Loops whose passes are programs -/

variable {pass : σ → EStateM ε ω (σ ⊕ β)} {L : Loop (σ × ω) (EStateM.Result ε ω β)} {at_ at' : σ × ω}

theorem moves_leads (body : L.body = passBody pass) (passes : ∀ s, Moves R (pass s)) (leads : Leads L at_ at') :
    R at_.2 at'.2 := by
  refine leads.invariant (I := fun v => R at_.2 v.2) (refl at_.2) fun v v' before next => ?_
  rw [body] at next
  exact IsTrans.trans _ _ _ before ((passes v.1).ok (passBody_inl next))
theorem moves_run (body : L.body = passBody pass) (passes : ∀ s, Moves R (pass s)) (s : σ) :
    Moves R (fun w => L.run (s,w)) := by
  have ends : ∀ w, ∃ v, R w v.2 ∧ passBody pass v = .inr (L.run (s,w)) := by
    intro w
    obtain ⟨v,leads,left⟩ := run_leads L (s,w)
    rw [body] at left
    exact ⟨v,moves_leads body passes leads,left⟩
  constructor
  · intro w r w' ran
    obtain ⟨v,before,left⟩ := ends w
    rcases passBody_inr left with ⟨r',w'',last,out⟩ | ⟨e,w'',_,out⟩
    · cases out.symm.trans ran
      exact IsTrans.trans _ _ _ before ((passes v.1).ok last)
    · cases out.symm.trans ran
  · intro w e w' fails
    obtain ⟨v,before,left⟩ := ends w
    rcases passBody_inr left with ⟨r',w'',_,out⟩ | ⟨e',w'',last,out⟩
    · cases out.symm.trans fails
    · cases out.symm.trans fails
      exact IsTrans.trans _ _ _ before ((passes v.1).error last)
end

end StructureOfOs.Frames
