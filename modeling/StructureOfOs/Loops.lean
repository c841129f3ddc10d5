import Mathlib.Logic.Basic

/-!
Loops as iterated passes. A pass of the body goes on from a new state or leaves the
loop with a result; a size that every pass shrinks makes the loop total. Facts about
runs come from facts about one pass: a run leads through states (`Leads`), and what
every pass keeps holds in them (`Leads.invariant`) and gives the result
(`Loop.ensures`). A pass may also be a program that changes a state or fails
(`passBody`).
-/
namespace StructureOfOs.Loops

/-- A body, and a size that each pass that goes on makes smaller. -/
structure Loop (σ β : Type) where
  body : σ → σ ⊕ β
  size : σ → Nat
  shrinks : ∀ {s s'}, body s = .inl s' → size s' < size s

variable {σ β γ : Type} {L : Loop σ β} {s s' : σ} {r : β}

/-- The result with which the loop is left. -/
def Loop.run (L : Loop σ β) (s : σ) : β :=
  match _ : L.body s with
  | .inl s' => L.run s'
  | .inr r => r
termination_by L.size s
decreasing_by exact L.shrinks ‹_›

theorem run_next (next : L.body s = .inl s') : L.run s = L.run s' := by
  rw [Loop.run]
  split
  · rename_i also; rw [next] at also; cases also; rfl
  · rename_i also; rw [next] at also; cases also
theorem run_end (last : L.body s = .inr r) : L.run s = r := by
  rw [Loop.run]
  split
  · rename_i also; rw [last] at also; cases also
  · rename_i also; rw [last] at also; cases also; rfl

/-- Passes lead from the one state to the other. -/
inductive Leads (L : Loop σ β) : σ → σ → Prop
  | refl (s : σ) : Leads L s s
  | pass {s s' s'' : σ} (next : L.body s = .inl s') (rest : Leads L s' s'') : Leads L s s''

/-- One more pass at the end. -/
theorem Leads.snoc {s'' : σ} (leads : Leads L s s') (next : L.body s' = .inl s'') : Leads L s s'' := by
  induction leads with
  | refl s => exact .pass next (.refl _)
  | pass first _ ih => exact .pass first (ih next)

/-- The rest of a run ends like the run. -/
theorem Leads.run (leads : Leads L s s') : L.run s = L.run s' := by
  induction leads with
  | refl s => rfl
  | pass next _ ih => exact (run_next next).trans ih

/-- What every pass keeps holds wherever a run leads. -/
theorem Leads.invariant {I : σ → Prop} (leads : Leads L s s') (initial : I s)
    (kept : ∀ s s', I s → L.body s = .inl s' → I s') : I s' := by
  induction leads with
  | refl s => exact initial
  | pass next _ ih => exact ih (kept _ _ initial next)

/-- A run leads to a state from which the loop is left. -/
theorem run_leads (L : Loop σ β) (s : σ) : ∃ s', Leads L s s' ∧ L.body s' = .inr (L.run s) := by
  fun_induction L.run s with
  | case1 s s' next ih =>
    obtain ⟨last,leads,left⟩ := ih
    exact ⟨last,.pass next leads,left⟩
  | case2 s r last => exact ⟨s,.refl s,last⟩

/-- An invariant of the passes, and what the last pass makes of it. -/
theorem Loop.ensures {I : σ → Prop} {Q : β → Prop} (initial : I s) (kept : ∀ s s', I s → L.body s = .inl s' → I s')
    (last : ∀ s r, I s → L.body s = .inr r → Q r) : Q (L.run s) := by
  obtain ⟨s',leads,left⟩ := run_leads L s
  exact last s' _ (leads.invariant initial kept) left

/-! ### Passes that are programs -/

section
variable {ε ω : Type}

section
variable {x : EStateM ε ω β} {f : β → EStateM ε ω γ} {w w' : ω} {e : ε}

theorem bind_ok (ran : x w = .ok r w') : (x >>= f) w = f r w' := by
  simp [bind,EStateM.bind,ran]
theorem bind_error (ran : x w = .error e w') : (x >>= f) w = .error e w' := by
  simp [bind,EStateM.bind,ran]
@[simp] theorem get_bind (f : ω → EStateM ε ω γ) (w : ω) : (get >>= f) w = f w w := rfl
@[simp] theorem modify_bind (change : ω → ω) (f : PUnit → EStateM ε ω γ) (w : ω) :
    (modify change >>= f) w = f ⟨⟩ (change w) := rfl
@[simp] theorem modify_apply (change : ω → ω) (w : ω) :
    (modify change : EStateM ε ω PUnit) w = .ok ⟨⟩ (change w) := rfl
@[simp] theorem map_get (g : ω → γ) (w : ω) : (g <$> (get : EStateM ε ω ω)) w = .ok (g w) w := rfl
@[simp] theorem map_set (g : PUnit → γ) (v w : ω) : (g <$> (set v : EStateM ε ω PUnit)) w = .ok (g ⟨⟩) v := rfl
@[simp] theorem map_modify (g : PUnit → γ) (change : ω → ω) (w : ω) :
    (g <$> (modify change : EStateM ε ω PUnit)) w = .ok (g ⟨⟩) (change w) := rfl
@[simp] theorem pure_apply (r : β) (w : ω) : (pure r : EStateM ε ω β) w = .ok r w := rfl
@[simp] theorem throw_apply (e : ε) (w : ω) : (throw e : EStateM ε ω β) w = .error e w := rfl

/-- Whenever the program ends normally, its result is as said. -/
def Returns (x : EStateM ε ω β) (said : β → Prop) : Prop := ∀ w r w', x w = .ok r w' → said r
theorem returns_pure {said : β → Prop} {r : β} (holds : said r) : Returns (pure r : EStateM ε ω β) said := by
  rintro w r' w' ⟨⟩
  exact holds
theorem returns_bind {said : γ → Prop} (rest : ∀ r, Returns (f r) said) : Returns (x >>= f) said := by
  intro w r w' ran
  cases first : x w with
  | ok r' v => rw [bind_ok first] at ran; exact rest r' v r w' ran
  | error e v => rw [bind_error first] at ran; cases ran
end

variable (pass : σ → EStateM ε ω (σ ⊕ β))

/-- The body of a loop whose passes are programs over a state; a failure leaves the loop. -/
def passBody (at_ : σ × ω) : (σ × ω) ⊕ EStateM.Result ε ω β :=
  match pass at_.1 at_.2 with
  | .ok (.inl s) w => .inl (s,w)
  | .ok (.inr r) w => .inr (.ok r w)
  | .error e w => .inr (.error e w)

variable {pass} {s s' : σ} {w w' : ω} {e : ε}

theorem passBody_next (next : pass s w = .ok (.inl s') w') : passBody pass (s,w) = .inl (s',w') := by
  simp [passBody,next]
theorem passBody_last (last : pass s w = .ok (.inr r) w') : passBody pass (s,w) = .inr (.ok r w') := by
  simp [passBody,last]
theorem passBody_fails (fails : pass s w = .error e w') : passBody pass (s,w) = .inr (.error e w') := by
  simp [passBody,fails]
theorem passBody_inl {at_ at' : σ × ω} (next : passBody pass at_ = .inl at') :
    pass at_.1 at_.2 = .ok (.inl at'.1) at'.2 := by
  unfold passBody at next
  split at next
  · rename_i s w same; cases next; exact same
  · cases next
  · cases next
theorem passBody_inr {at_ : σ × ω} {out : EStateM.Result ε ω β} (last : passBody pass at_ = .inr out) :
    (∃ r w, pass at_.1 at_.2 = .ok (.inr r) w ∧ out = .ok r w) ∨ ∃ e w, pass at_.1 at_.2 = .error e w ∧ out = .error e w := by
  unfold passBody at last
  split at last
  · cases last
  · rename_i r w same; cases last; exact .inl ⟨r,w,same,rfl⟩
  · rename_i e w same; cases last; exact .inr ⟨e,w,same,rfl⟩
end

end StructureOfOs.Loops
