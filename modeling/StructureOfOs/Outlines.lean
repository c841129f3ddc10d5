import StructureOfOs.Programs

/-!
Proof outlines for interleaved programs. Every thread is given a view: what it
holds and what it knows. An outline says which actions a view permits, how an
action and its answer change the view, and which invariant ties the shared state
to all views. Soundness of an outline is checked one action at a time, and a
program follows the outline when each of its actions is permitted by the view
reached there. Then the invariant holds under every schedule (`Sound.reaches`).
-/
namespace StructureOfOs.Outlines
open StructureOfOs.Programs

/-- An invariant over the shared state and the views, the actions a view permits,
    the views an action may lead to, and the views allowed where rounds begin. -/
structure Outline (Tid Shared Act : Type) (Res : Act → Type) (Ctl View : Type) where
  Inv : Shared → (Tid → View) → Prop
  Ok : Tid → View → Act → Prop
  Next : Tid → View → (a : Act) → Res a → View → Prop
  Loop : Tid → Ctl → View → Prop

variable {Tid Shared Act Ctl View : Type} {Res : Act → Type} {α β : Type}

/-- Every action of the program is permitted by the view it is reached with, and
    what the program returns satisfies the condition. -/
def Outline.Follows (O : Outline Tid Shared Act Res Ctl View) (t : Tid) :
    Prog Act Res α → View → (α → View → Prop) → Prop
  | .ret value, g, Q => Q value g
  | .act a next, g, Q => O.Ok t g a ∧ ∀ r g', O.Next t g a r g' → O.Follows t (next r) g' Q

variable {O : Outline Tid Shared Act Res Ctl View} {M : Machine Tid Shared Act Res Ctl} {t : Tid} {g : View}

@[simp] theorem follows_ret (value : α) (Q : α → View → Prop) :
    O.Follows t (.ret value) g Q ↔ Q value g := Iff.rfl
theorem follows_act (a : Act) (next : Res a → Prog Act Res α) (Q : α → View → Prop) :
    O.Follows t (.act a next) g Q ↔ O.Ok t g a ∧ ∀ r g', O.Next t g a r g' → O.Follows t (next r) g' Q := Iff.rfl
theorem follows_call (a : Act) (Q : Res a → View → Prop) :
    O.Follows t (.call a) g Q ↔ O.Ok t g a ∧ ∀ r g', O.Next t g a r g' → Q r g' := Iff.rfl

/-- A program followed by another: the second starts with the value and the view
    the first ends with. -/
theorem follows_bind (p : Prog Act Res α) (f : α → Prog Act Res β) (Q : β → View → Prop) :
    O.Follows t (p >>= f) g Q ↔ O.Follows t p g (fun value g' => O.Follows t (f value) g' Q) := by
  induction p generalizing g with
  | ret value => rfl
  | act a next ih =>
    simp only [Prog.act_bind,follows_act]
    exact and_congr_right fun _ => forall_congr' fun r => forall_congr' fun g' => imp_congr_right fun _ => ih r

/-- A program, then the rest. -/
theorem follows_then {p : Prog Act Res α} {f : α → Prog Act Res β} {Q : β → View → Prop}
    (first : O.Follows t p g fun value g' => O.Follows t (f value) g' Q) : O.Follows t (p >>= f) g Q :=
  (follows_bind p f Q).mpr first

theorem follows_mono {p : Prog Act Res α} {Q R : α → View → Prop} (weaker : ∀ value g', Q value g' → R value g')
    (follows : O.Follows t p g Q) : O.Follows t p g R := by
  induction p generalizing g with
  | ret value => exact weaker value g follows
  | act a next ih => exact ⟨follows.1,fun r g' reached => ih r (follows.2 r g' reached)⟩

/-- A program is reasoned about by what it leads to. -/
theorem follows_seq {p : Prog Act Res α} {f : α → Prog Act Res β} {Q : α → View → Prop} {R : β → View → Prop}
    (first : O.Follows t p g Q) (rest : ∀ value g', Q value g' → O.Follows t (f value) g' R) :
    O.Follows t (p >>= f) g R :=
  (follows_bind p f R).mpr (follows_mono rest first)

/-- Some views satisfy the invariant and every thread follows the outline from its own. -/
def Outline.Holds (O : Outline Tid Shared Act Res Ctl View) (c : Config Tid Shared Act Res Ctl) : Prop :=
  ∃ V, O.Inv c.shared V ∧ ∀ t, O.Follows t (c.thread t).prog (V t) (O.Loop t)

/-- The next action of a program that follows the outline is permitted. -/
theorem follows_permits {p : Prog Act Res α} {a : Act} {Q : α → View → Prop} (follows : O.Follows t p g Q)
    (left : p.action = some a) : O.Ok t g a := by
  obtain ⟨next,rfl⟩ := Prog.action_eq_some.mp left
  exact follows.1

/-- A program that follows an outline whose permitted actions are never blocked runs, by itself,
    to its end. -/
theorem follows_exec {Q : α → View → Prop} {p : Prog Act Res α} {s : Shared} {inv : Shared → View → Prop}
    {run : (a : Act) → Shared → Option (Res a × Shared)}
    (progress : ∀ {s g a}, inv s g → O.Ok t g a → ∃ r s' g', run a s = some (r,s') ∧ O.Next t g a r g' ∧ inv s' g')
    (follows : O.Follows t p g Q) (here : inv s g) :
    ∃ value s' g', p.exec run s = some (value,s') ∧ Q value g' ∧ inv s' g' := by
  induction p generalizing s g with
  | ret value => exact ⟨value,s,g,rfl,follows,here⟩
  | act a next ih =>
    obtain ⟨r,s',g',ran,reached,here'⟩ := progress here follows.1
    obtain ⟨value,s'',g'',rest,post,here''⟩ := ih r (follows.2 r g' reached) here'
    exact ⟨value,s'',g'',by simp [Prog.exec,ran,rest],post,here''⟩

/-- A program that follows an outline ends, when it runs by itself to its end, as the outline says. -/
theorem follows_ran {σ : Type} {Q : α → View → Prop} {p : Prog Act Res α} {value : α} {s s' : σ} {inv : σ → View → Prop}
    {run : (a : Act) → σ → Option (Res a × σ)}
    (act : ∀ {s g a r s'}, inv s g → O.Ok t g a → run a s = some (r,s') → ∃ g', O.Next t g a r g' ∧ inv s' g')
    (follows : O.Follows t p g Q) (here : inv s g) (ran : p.exec run s = some (value,s')) : ∃ g', Q value g' ∧ inv s' g' := by
  induction p generalizing s g with
  | ret value' => cases ran; exact ⟨g,follows,here⟩
  | act a next ih =>
    obtain ⟨⟨r,middle⟩,did,rest⟩ := Option.bind_eq_some_iff.mp ran
    obtain ⟨g',reached,here'⟩ := act here follows.1 did
    exact ih r (follows.2 r g' reached) here' rest

variable [DecidableEq Tid]

/-- Every permitted action leads to a view for which the invariant holds again,
    and every round follows the outline. -/
structure Outline.Sound (O : Outline Tid Shared Act Res Ctl View) (M : Machine Tid Shared Act Res Ctl) : Prop where
  act : ∀ {s V t a r s'}, O.Inv s V → O.Ok t (V t) a → M.run t a s = some (r,s') →
    ∃ g, O.Next t (V t) a r g ∧ O.Inv s' (Function.update V t g)
  round : ∀ {t point p g}, O.Loop t point g → M.round t point = some p → O.Follows t p g (O.Loop t)

theorem Outline.Sound.step (sound : O.Sound M) {c d : Config Tid Shared Act Res Ctl} (holds : O.Holds c)
    (stepped : M.step c t = some d) : O.Holds d := by
  obtain ⟨V,inv,follows⟩ := holds
  have mine := follows t
  rcases step_cases stepped with ⟨point,p,left,started,rfl⟩ | ⟨a,next,r,s,left,ran,rfl⟩
  · rw [left,follows_ret] at mine
    refine ⟨V,inv,fun u => ?_⟩
    by_cases same : u = t
    · subst same; simpa using sound.round mine started
    · simpa [same] using follows u
  · rw [left,follows_act] at mine
    obtain ⟨g,reached,inv'⟩ := sound.act inv mine.1 ran
    refine ⟨Function.update V t g,inv',fun u => ?_⟩
    by_cases same : u = t
    · subst same; simpa using mine.2 r g reached
    · simpa [same] using follows u

/-- A sound outline that holds at first holds wherever a schedule leads. -/
theorem Outline.Sound.reaches (sound : O.Sound M) {c d : Config Tid Shared Act Res Ctl} (holds : O.Holds c)
    (reached : M.Reaches c d) : O.Holds d :=
  reached.invariant holds fun _ _ _ holds stepped => sound.step holds stepped

/-! ### A further invariant -/

/-- The outline with a further invariant. -/
def Outline.keeping (O : Outline Tid Shared Act Res Ctl View) (J : Shared → (Tid → View) → Prop) :
    Outline Tid Shared Act Res Ctl View :=
  { O with Inv := fun s V => O.Inv s V ∧ J s V }

omit [DecidableEq Tid] in
/-- What a program does is the same with a further invariant. -/
theorem follows_keeping {J : Shared → (Tid → View) → Prop} {p : Prog Act Res α} {Q : α → View → Prop}
    (follows : O.Follows t p g Q) : (O.keeping J).Follows t p g Q := by
  induction p generalizing g with
  | ret value => exact follows
  | act a next ih => exact ⟨follows.1,fun r g' reached => ih r (follows.2 r g' reached)⟩

/-- A further invariant holds in every state when each permitted action keeps it. -/
theorem Outline.Sound.keeping (sound : O.Sound M) {J : Shared → (Tid → View) → Prop}
    (kept : ∀ {s V t a r s' g}, O.Inv s V → J s V → O.Ok t (V t) a → M.run t a s = some (r,s') → O.Next t (V t) a r g →
      O.Inv s' (Function.update V t g) → J s' (Function.update V t g)) : (O.keeping J).Sound M where
  act inv ok ran := by
    obtain ⟨g,reached,inv'⟩ := sound.act inv.1 ok ran
    exact ⟨g,reached,inv',kept inv.1 inv.2 ok ran reached inv'⟩
  round looped started := follows_keeping (sound.round looped started)

end StructureOfOs.Outlines
