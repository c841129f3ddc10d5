import Mathlib.Logic.Function.Basic
import Mathlib.Logic.Relation

/-!
Programs of atomic actions and their interleavings. A program is a tree: it has
returned, or it performs an action and continues with the action's result. A
machine says what an action does to the shared state (or that it is blocked) and
which program a thread runs from each point of its outermost loop. A step runs
one action of one thread, and a schedule is any list of thread names.
-/
namespace StructureOfOs.Programs

/-- A program over the actions `Act`, where the action `a` answers in `Res a`. -/
inductive Prog (Act : Type) (Res : Act → Type) (α : Type)
  | ret (value : α)
  | act (a : Act) (next : Res a → Prog Act Res α)

namespace Prog
variable {Act : Type} {Res : Act → Type} {α β γ : Type}

/-- The first program, then the one its value selects. -/
def bind : Prog Act Res α → (α → Prog Act Res β) → Prog Act Res β
  | .ret value, f => f value
  | .act a next, f => .act a (fun r => (next r).bind f)
/-- The program of one action, which returns the action's answer. -/
def call (a : Act) : Prog Act Res (Res a) := .act a .ret
instance : Monad (Prog Act Res) where
  pure := .ret
  bind := bind

@[simp] theorem pure_eq (value : α) : (pure value : Prog Act Res α) = .ret value := rfl
@[simp] theorem ret_bind (value : α) (f : α → Prog Act Res β) : (.ret value : Prog Act Res α) >>= f = f value := rfl
@[simp] theorem act_bind (a : Act) (next : Res a → Prog Act Res α) (f : α → Prog Act Res β) :
    (.act a next : Prog Act Res α) >>= f = .act a (fun r => next r >>= f) := rfl

/-- The program has returned. -/
def returned : Prog Act Res α → Bool
  | .ret _ => true
  | .act _ _ => false
/-- The action that the program performs next. -/
def action : Prog Act Res α → Option Act
  | .ret _ => none
  | .act a _ => some a

theorem action_eq_some {p : Prog Act Res α} {a : Act} : p.action = some a ↔ ∃ next, p = .act a next := by
  constructor
  · intro same
    cases p with
    | ret value => cases same
    | act b next => cases same; exact ⟨next,rfl⟩
  · rintro ⟨next,rfl⟩; rfl
theorem returned_iff {p : Prog Act Res α} : p.returned = true ↔ ∃ value, p = .ret value := by
  cases p <;> simp [returned]

/-- The run of a program by itself: its value and the state it leaves, `none` when it comes to
    a blocked action. -/
def exec {σ : Type} (run : (a : Act) → σ → Option (Res a × σ)) : Prog Act Res α → σ → Option (α × σ)
  | .ret value, s => some (value,s)
  | .act a next, s => (run a s).bind fun out => exec run (next out.1) out.2

section
variable {σ : Type} {run : (a : Act) → σ → Option (Res a × σ)}

@[simp] theorem exec_ret (value : α) (s : σ) : exec run (.ret value) s = some (value,s) := rfl
@[simp] theorem exec_call (a : Act) (s : σ) : exec run (.call a) s = run a s := by
  simp only [call,exec]
  cases run a s <;> rfl
/-- A program followed by another. -/
@[simp] theorem exec_bind (p : Prog Act Res α) (f : α → Prog Act Res β) (s : σ) :
    exec run (p >>= f) s = (exec run p s).bind fun out => exec run (f out.1) out.2 := by
  induction p generalizing s with
  | ret value => rfl
  | act a next ih =>
    simp only [act_bind,exec]
    cases run a s with
    | none => rfl
    | some out => exact ih out.1 out.2
end
end Prog

/-- A thread: the point of its outermost loop it last passed, and what is left
    of the round it is in. -/
structure Thread (Act : Type) (Res : Act → Type) (Ctl : Type) where
  point : Ctl
  prog : Prog Act Res Ctl
/-- The shared state and every thread. -/
structure Config (Tid Shared Act : Type) (Res : Act → Type) (Ctl : Type) where
  shared : Shared
  thread : Tid → Thread Act Res Ctl
/-- What an action does, `none` when it is blocked, and the round that a thread
    starts at a point of its loop, `none` when the thread has ended. -/
structure Machine (Tid Shared Act : Type) (Res : Act → Type) (Ctl : Type) where
  run : Tid → (a : Act) → Shared → Option (Res a × Shared)
  round : Tid → Ctl → Option (Prog Act Res Ctl)

variable {Tid Shared Act Ctl : Type} {Res : Act → Type} [DecidableEq Tid]

/-- One action of one thread, or the start of its next round. -/
def Machine.step (M : Machine Tid Shared Act Res Ctl) (c : Config Tid Shared Act Res Ctl) (t : Tid) :
    Option (Config Tid Shared Act Res Ctl) :=
  match (c.thread t).prog with
  | .ret point => (M.round t point).map fun p => { c with thread := Function.update c.thread t ⟨point,p⟩ }
  | .act a next => (M.run t a c.shared).map fun out =>
      ⟨out.2,Function.update c.thread t ⟨(c.thread t).point,next out.1⟩⟩
/-- The configuration after a schedule, `none` when a scheduled thread is blocked. -/
def Machine.runs (M : Machine Tid Shared Act Res Ctl) : List Tid → Config Tid Shared Act Res Ctl →
    Option (Config Tid Shared Act Res Ctl)
  | [], c => some c
  | t :: rest, c => (M.step c t).bind (M.runs rest)
/-- Some schedule leads from the one configuration to the other. -/
def Machine.Reaches (M : Machine Tid Shared Act Res Ctl) (c d : Config Tid Shared Act Res Ctl) : Prop :=
  ∃ schedule, M.runs schedule c = some d

variable {M : Machine Tid Shared Act Res Ctl} {c d e : Config Tid Shared Act Res Ctl} {t : Tid}

/-- A step is the start of a round or one unblocked action. -/
theorem step_cases (stepped : M.step c t = some d) :
    (∃ point p, (c.thread t).prog = .ret point ∧ M.round t point = some p ∧
      d = { c with thread := Function.update c.thread t ⟨point,p⟩ }) ∨
    ∃ a next r s, (c.thread t).prog = .act a next ∧ M.run t a c.shared = some (r,s) ∧
      d = ⟨s,Function.update c.thread t ⟨(c.thread t).point,next r⟩⟩ := by
  unfold Machine.step at stepped
  cases left : (c.thread t).prog with
  | ret point =>
    simp only [left,Option.map_eq_some_iff] at stepped
    obtain ⟨p,started,rfl⟩ := stepped
    exact .inl ⟨point,p,rfl,started,rfl⟩
  | act a next =>
    simp only [left,Option.map_eq_some_iff] at stepped
    obtain ⟨⟨r,s⟩,ran,rfl⟩ := stepped
    exact .inr ⟨a,next,r,s,rfl,ran,rfl⟩

/-- A thread that cannot step has ended, or waits with its next action. -/
theorem step_blocked (blocked : M.step c t = none) :
    (∃ point, (c.thread t).prog = .ret point ∧ M.round t point = none) ∨
    ∃ a, (c.thread t).prog.action = some a ∧ M.run t a c.shared = none := by
  unfold Machine.step at blocked
  cases left : (c.thread t).prog with
  | ret point =>
    simp only [left,Option.map_eq_none_iff] at blocked
    exact .inl ⟨point,rfl,blocked⟩
  | act a next =>
    simp only [left,Option.map_eq_none_iff] at blocked
    exact .inr ⟨a,rfl,blocked⟩

theorem runs_append (first second : List Tid) (c : Config Tid Shared Act Res Ctl) :
    M.runs (first ++ second) c = (M.runs first c).bind (M.runs second) := by
  induction first generalizing c with
  | nil => rfl
  | cons t rest ih =>
    simp only [List.cons_append,Machine.runs]
    cases M.step c t with
    | none => rfl
    | some d => exact ih d

theorem Machine.Reaches.trans (first : M.Reaches c d) (second : M.Reaches d e) : M.Reaches c e := by
  obtain ⟨before,ranBefore⟩ := first
  obtain ⟨after,ranAfter⟩ := second
  exact ⟨before ++ after,by rw [runs_append,ranBefore]; exact ranAfter⟩
theorem Machine.Reaches.step (reached : M.Reaches c d) (stepped : M.step d t = some e) : M.Reaches c e :=
  reached.trans ⟨[t],by simp [Machine.runs,stepped]⟩

/-- A thread that is scheduled alone comes to where `exec` says. -/
theorem exec_runs {α : Type} {p : Prog Act Res α} {f : α → Prog Act Res Ctl} {value : α} {s : Shared}
    (left : (c.thread t).prog = p >>= f) (ran : p.exec (M.run t) c.shared = some (value,s)) :
    ∃ n, M.runs (List.replicate n t) c = some ⟨s,Function.update c.thread t ⟨(c.thread t).point,f value⟩⟩ := by
  induction p generalizing c with
  | ret value' =>
    cases ran
    have here : (⟨(c.thread t).point,f value⟩ : Thread Act Res Ctl) = c.thread t := by
      rw [← Prog.ret_bind value f,← left]
    exact ⟨0,by rw [here,Function.update_eq_self]; rfl⟩
  | act a next ih =>
    obtain ⟨out,did,rest⟩ := Option.bind_eq_some_iff.mp ran
    have stepped : M.step c t = some ⟨out.2,Function.update c.thread t ⟨(c.thread t).point,next out.1 >>= f⟩⟩ := by
      simp [Machine.step,left,did]
    obtain ⟨n,later⟩ := ih out.1 (c := ⟨out.2,Function.update c.thread t ⟨(c.thread t).point,next out.1 >>= f⟩⟩) (by simp) rest
    simp only [Function.update_self,Function.update_idem] at later
    exact ⟨n + 1,by rw [List.replicate_succ,Machine.runs,stepped]; exact later⟩

/-- A schedule of such threads leads from the one configuration to the other. -/
def Machine.ReachesBy (M : Machine Tid Shared Act Res Ctl) (P : Tid → Prop) (c d : Config Tid Shared Act Res Ctl) : Prop :=
  ∃ schedule, (∀ t ∈ schedule, P t) ∧ M.runs schedule c = some d

theorem Machine.ReachesBy.refl {P : Tid → Prop} (c : Config Tid Shared Act Res Ctl) : M.ReachesBy P c c := ⟨[],by simp,rfl⟩
theorem Machine.ReachesBy.reaches {P : Tid → Prop} (reached : M.ReachesBy P c d) : M.Reaches c d :=
  let ⟨schedule,_,ran⟩ := reached
  ⟨schedule,ran⟩
theorem Machine.ReachesBy.trans {P : Tid → Prop} (first : M.ReachesBy P c d) (second : M.ReachesBy P d e) : M.ReachesBy P c e := by
  obtain ⟨before,among,ranBefore⟩ := first
  obtain ⟨after,among',ranAfter⟩ := second
  refine ⟨before ++ after,fun t member => ?_,by rw [runs_append,ranBefore]; exact ranAfter⟩
  exact (List.mem_append.mp member).elim (among t) (among' t)
theorem Machine.ReachesBy.step {P : Tid → Prop} (may : P t) (stepped : M.step c t = some d) : M.ReachesBy P c d :=
  ⟨[t],by simpa using may,by simp [Machine.runs,stepped]⟩
theorem Machine.ReachesBy.mono {P Q : Tid → Prop} (wider : ∀ t, P t → Q t) (reached : M.ReachesBy P c d) : M.ReachesBy Q c d :=
  let ⟨schedule,among,ran⟩ := reached
  ⟨schedule,fun t member => wider t (among t member),ran⟩

/-- What holds at first and is kept by every step holds wherever a schedule leads. -/
theorem Machine.Reaches.invariant {P : Config Tid Shared Act Res Ctl → Prop} (reached : M.Reaches c d) (initial : P c)
    (kept : ∀ c t d, P c → M.step c t = some d → P d) : P d := by
  obtain ⟨schedule,ran⟩ := reached
  induction schedule generalizing c with
  | nil => cases ran; exact initial
  | cons t rest ih =>
    obtain ⟨middle,stepped,ranRest⟩ := Option.bind_eq_some_iff.mp ran
    exact ih (kept c t middle initial stepped) ranRest

/-- A thread that the schedule does not name stays as it was. -/
theorem runs_frame {schedule : List Tid} (ran : M.runs schedule c = some d) (idle : t ∉ schedule) :
    d.thread t = c.thread t := by
  induction schedule generalizing c with
  | nil => cases ran; rfl
  | cons u rest ih =>
    obtain ⟨middle,stepped,ranRest⟩ := Option.bind_eq_some_iff.mp ran
    have other : t ≠ u := fun same => idle (by simp [same])
    have still : middle.thread t = c.thread t := by
      rcases step_cases stepped with ⟨_,_,_,_,rfl⟩ | ⟨_,_,_,_,_,_,rfl⟩
      · simp [other]
      · simp [other]
    exact (ih ranRest (fun member => idle (List.mem_cons_of_mem u member))).trans still

end StructureOfOs.Programs
