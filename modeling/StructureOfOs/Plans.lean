import StructureOfOs.Programs

/-!
Plans of a program that runs by itself. A plan has situations, and says once which actions lead
from one situation to which. A program follows the plan when each of its actions is one of the
plan's steps; what every step keeps then holds wherever the program leads (`Keeps.reaches`), so
that several facts about one program share one walk through it.
-/
namespace StructureOfOs.Plans
open StructureOfOs.Programs

/-- The answers that an action may get in a situation, and the steps: an action with the situations
    that its answers lead to. -/
structure Plan (Act : Type) (Res : Act → Type) (Sit : Type) where
  Answers : Sit → (a : Act) → Res a → Prop
  Step : Sit → (a : Act) → (Res a → Sit) → Prop

variable {Act Sit Shared Ctl : Type} {Res : Act → Type} {α β : Type}

/-- Every action of the program is a step of the plan, and what it returns satisfies the condition. -/
def Plan.Follows (P : Plan Act Res Sit) : Prog Act Res α → Sit → (α → Sit → Prop) → Prop
  | .ret value, x, Q => Q value x
  | .act a next, x, Q => ∃ later, P.Step x a later ∧ ∀ r, P.Answers x a r → P.Follows (next r) (later r) Q

variable {P : Plan Act Res Sit} {x : Sit}

@[simp] theorem follows_ret (value : α) (Q : α → Sit → Prop) : P.Follows (.ret value) x Q ↔ Q value x := Iff.rfl
/-- One action, by the step that it is. -/
theorem follows_call {a : Act} {later : Res a → Sit} {Q : Res a → Sit → Prop} (step : P.Step x a later)
    (next : ∀ r, P.Answers x a r → Q r (later r)) : P.Follows (.call a) x Q :=
  ⟨later,step,next⟩
theorem follows_bind (p : Prog Act Res α) (f : α → Prog Act Res β) (Q : β → Sit → Prop) :
    P.Follows (p >>= f) x Q ↔ P.Follows p x fun value x' => P.Follows (f value) x' Q := by
  induction p generalizing x with
  | ret value => rfl
  | act a next ih =>
    simp only [Prog.act_bind,Plan.Follows]
    exact exists_congr fun later => and_congr_right fun _ => forall_congr' fun r => imp_congr_right fun _ => ih r
/-- A program, then the rest. -/
theorem follows_then {p : Prog Act Res α} {f : α → Prog Act Res β} {Q : β → Sit → Prop}
    (first : P.Follows p x fun value x' => P.Follows (f value) x' Q) : P.Follows (p >>= f) x Q :=
  (follows_bind p f Q).mpr first
theorem follows_mono {p : Prog Act Res α} {Q R : α → Sit → Prop} (weaker : ∀ value x', Q value x' → R value x')
    (follows : P.Follows p x Q) : P.Follows p x R := by
  induction p generalizing x with
  | ret value => exact weaker value x follows
  | act a next ih =>
    obtain ⟨later,step,rest⟩ := follows
    exact ⟨later,step,fun r answers => ih r (rest r answers)⟩
/-- A program is reasoned about by what it leads to. -/
theorem follows_seq {p : Prog Act Res α} {f : α → Prog Act Res β} {Q : α → Sit → Prop} {R : β → Sit → Prop}
    (first : P.Follows p x Q) (rest : ∀ value x', Q value x' → P.Follows (f value) x' R) : P.Follows (p >>= f) x R :=
  follows_then (follows_mono rest first)

/-- The next action of a program that follows the plan is a step. -/
theorem follows_steps {p : Prog Act Res α} {a : Act} {Q : α → Sit → Prop} (follows : P.Follows p x Q)
    (left : p.action = some a) : ∃ later, P.Step x a later := by
  obtain ⟨next,rfl⟩ := Prog.action_eq_some.mp left
  obtain ⟨later,step,_⟩ := follows
  exact ⟨later,step⟩

/-! ### What every step keeps -/

/-- The invariant ties the state to the situation, and every step keeps it, with an answer that the
    plan allows. -/
def Plan.Keeps {σ : Type} (P : Plan Act Res Sit) (run : (a : Act) → σ → Option (Res a × σ)) (inv : σ → Sit → Prop) : Prop :=
  ∀ {s x a later r s'}, inv s x → P.Step x a later → run a s = some (r,s') → P.Answers x a r ∧ inv s' (later r)

/-- A program that follows the plan ends, when it runs to its end, as the plan says. -/
theorem Plan.Keeps.ran {σ : Type} {Q : α → Sit → Prop} {p : Prog Act Res α} {value : α} {s s' : σ} {inv : σ → Sit → Prop}
    {run : (a : Act) → σ → Option (Res a × σ)} (keeps : P.Keeps run inv) (follows : P.Follows p x Q) (here : inv s x)
    (ran : p.exec run s = some (value,s')) : ∃ x', Q value x' ∧ inv s' x' := by
  induction p generalizing s x with
  | ret value' => cases ran; exact ⟨x,follows,here⟩
  | act a next ih =>
    obtain ⟨later,step,rest⟩ := follows
    obtain ⟨⟨r,middle⟩,did,more⟩ := Option.bind_eq_some_iff.mp ran
    obtain ⟨answers,here'⟩ := keeps here step did
    exact ih r (rest r answers) here' more

/-- The state and what is left of the program agree on a situation. -/
def Plan.Holds (P : Plan Act Res Sit) (Loop : Ctl → Sit → Prop) (inv : Shared → Sit → Prop)
    (c : Config Unit Shared Act Res Ctl) : Prop :=
  ∃ x, inv c.shared x ∧ P.Follows (c.thread ()).prog x Loop

/-- What every step keeps holds in every state that the rounds of a loop lead to. A round may begin
    with another situation than the one before has ended in. -/
theorem Plan.Keeps.reaches {M : Machine Unit Shared Act Res Ctl} {Loop : Ctl → Sit → Prop} {inv : Shared → Sit → Prop}
    {c d : Config Unit Shared Act Res Ctl} {begin_ : Sit → Sit} (keeps : P.Keeps (M.run ()) inv)
    (begins : ∀ {s point x}, inv s x → Loop point x → inv s (begin_ x))
    (rounds : ∀ {point p x}, Loop point x → M.round () point = some p → P.Follows p (begin_ x) Loop) (holds : P.Holds Loop inv c)
    (reached : M.Reaches c d) : P.Holds Loop inv d := by
  refine reached.invariant holds ?_
  rintro c t d ⟨x,here,follows⟩ stepped
  rcases step_cases stepped with ⟨point,p,left,started,rfl⟩ | ⟨a,next,r,s,left,ran,rfl⟩
  · have looped : P.Follows (.ret point) x Loop := left ▸ follows
    refine ⟨begin_ x,begins here looped,?_⟩
    simpa using rounds looped started
  · have acts : P.Follows (.act a next) x Loop := left ▸ follows
    obtain ⟨later,step,rest⟩ := acts
    obtain ⟨answers,here'⟩ := keeps here step ran
    refine ⟨later r,here',?_⟩
    simpa using rest r answers

end StructureOfOs.Plans
