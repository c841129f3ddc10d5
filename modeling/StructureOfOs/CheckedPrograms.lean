import StructureOfOs.Programs

/-!
Computations that can be misused, beside programs that cannot. The programs work on what is seen
of the computations' memory. Where a computation agrees with a program under a condition, it is
misused exactly when the condition fails, and otherwise it does what the program does. The rules
put such facts together along the way in which both are written.
-/
namespace StructureOfOs.CheckedPrograms
open StructureOfOs.Programs

/-- A value, or nothing for lack of an answer, or a misuse. -/
inductive Outcome (ε α : Type)
  | ok (value : α)
  | blocked
  | misuse (how : ε)
def Checked (ε σ α : Type) : Type := σ → Outcome ε (α × σ)
instance {ε σ : Type} : Monad (Checked ε σ) where
  pure value := fun m => .ok (value,m)
  bind P Q := fun m =>
    match P m with
    | .ok (v,m') => Q v m'
    | .blocked => .blocked
    | .misuse how => .misuse how

section
variable {ε σ τ Act α β : Type} {Res : Act → Type} (run : (a : Act) → τ → Option (Res a × τ)) (view : σ → τ)

/-- The computation has done what the program has done. -/
inductive Same : Outcome ε (α × σ) → Option (α × τ) → Prop
  | ok (value : α) (m : σ) : Same (.ok (value,m)) (some (value,view m))
  | blocked : Same .blocked none
def Follows (P : Checked ε σ α) (C : Prog Act Res α) (m : σ) : Prop := Same view (P m) (C.exec run (view m))
def Agrees (P : Checked ε σ α) (C : Prog Act Res α) (K : Prop) (m : σ) : Prop :=
  (K ∧ Follows run view P C m) ∨ (¬ K ∧ ∃ how, P m = .misuse how)
/-- What holds after the program, if it comes to its end. -/
def After (C : Prog Act Res α) (L : α → τ → Prop) (s : τ) : Prop := ∀ v s', C.exec run s = some (v,s') → L v s'
end

variable {ε σ τ Act α β : Type} {Res : Act → Type} {run : (a : Act) → τ → Option (Res a × τ)} {view : σ → τ}
  {P : Checked ε σ α} {C : Prog Act Res α} {Q : α → Checked ε σ β} {D : α → Prog Act Res β} {K K' : Prop}
  {L : α → τ → Prop} {m m' : σ} {v : α}

theorem bind_ok (did : P m = .ok (v,m')) : (P >>= Q) m = Q v m' := by
  show (match P m with | .ok (v,m') => Q v m' | .blocked => .blocked | .misuse how => .misuse how) = Q v m'
  rw [did]
theorem bind_blocked (did : P m = .blocked) : (P >>= Q) m = .blocked := by
  show (match P m with | .ok (v,m') => Q v m' | .blocked => .blocked | .misuse how => .misuse how) = .blocked
  rw [did]
theorem after_some {s' : τ} (did : C.exec run (view m) = some (v,s')) : After run C L (view m) ↔ L v s' := by
  constructor
  · exact fun after => after v s' did
  · intro holds w s'' did'
    rw [did] at did'
    cases did'
    exact holds
theorem after_none (stuck : C.exec run (view m) = none) : After run C L (view m) := by
  intro w s'' did
  rw [stuck] at did
  cases did

/-! ### Rules -/

theorem Follows.ok_cases (follows : Follows run view P C m) :
    (∃ v m', P m = .ok (v,m') ∧ C.exec run (view m) = some (v,view m')) ∨ (P m = .blocked ∧ C.exec run (view m) = none) := by
  unfold Follows at follows
  generalize P m = did at follows
  generalize C.exec run (view m) = did' at follows
  cases follows with
  | ok v m' => exact .inl ⟨v,m',rfl,rfl⟩
  | blocked => exact .inr ⟨rfl,rfl⟩
/-- A computation that has returned has not been misused. -/
theorem Agrees.ran (agrees : Agrees run view P C K m) (did : P m = .ok (v,m')) : K ∧ C.exec run (view m) = some (v,view m') := by
  rcases agrees with ⟨holds,follows⟩ | ⟨_,how,misused⟩
  · rcases follows.ok_cases with ⟨v',m'',did',ran⟩ | ⟨stuck,_⟩
    · rw [did] at did'
      cases did'
      exact ⟨holds,ran⟩
    · rw [did] at stuck
      cases stuck
  · rw [did] at misused
    cases misused
theorem agrees_congr (same : K ↔ K') : Agrees run view P C K m ↔ Agrees run view P C K' m := by
  rw [Agrees,Agrees,same]
theorem follows_agrees (follows : Follows run view P C m) (holds : K) : Agrees run view P C K m := .inl ⟨holds,follows⟩
theorem agrees_true : Agrees run view P C True m ↔ Follows run view P C m := by simp [Agrees]
/-- Both go on. -/
theorem agrees_step {γ : Type} {C : Prog Act Res γ} {D : γ → Prog Act Res β} {w : γ} (did : P m = .ok (v,m'))
    (did' : C.exec run (view m) = some (w,view m')) (later : Agrees run view (Q v) (D w) K m') :
    Agrees run view (P >>= Q) (C >>= D) K m := by
  rw [Agrees,Follows,bind_ok did,Prog.exec_bind,did']
  exact later
/-- One part after the other: the condition of the second is one on what the first leaves. -/
theorem agrees_bind (first : Follows run view P C m) (later : ∀ v m', P m = .ok (v,m') → Agrees run view (Q v) (D v) (L v (view m')) m') :
    Agrees run view (P >>= Q) (C >>= D) (After run C L (view m)) m := by
  rcases first.ok_cases with ⟨v,m',did,did'⟩ | ⟨stuck,stuck'⟩
  · rw [agrees_congr (after_some did')]
    exact agrees_step did did' (later v m' did)
  · refine follows_agrees ?_ (after_none stuck')
    rw [Follows,bind_blocked stuck,Prog.exec_bind,stuck']
    exact .blocked
theorem follows_bind (first : Follows run view P C m) (later : ∀ v m', P m = .ok (v,m') → Follows run view (Q v) (D v) m') :
    Follows run view (P >>= Q) (C >>= D) m := by
  have both := @agrees_bind ε σ τ Act α β Res run view P C Q D (fun _ _ => True) m first fun v m' did => agrees_true.mpr (later v m' did)
  refine agrees_true.mp ((agrees_congr ?_).mp both)
  exact ⟨fun _ => trivial,fun _ _ _ _ => trivial⟩
end StructureOfOs.CheckedPrograms
