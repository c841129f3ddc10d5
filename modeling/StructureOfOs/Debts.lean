import StructureOfOs.Outlines
import Mathlib.Algebra.BigOperators.Group.Finset.Basic
import Mathlib.Algebra.Order.BigOperators.Group.Finset

/-!
How much a thread of a machine still has to do. A program is within `k` when it
performs at most `k` actions whatever they answer, all of them allowed. With a weight on the points where
rounds begin, a thread owes at most `k` actions when its round performs `j` of them
and comes to a point that weighs at most `k - j`. A round costs less than the point it
starts from, so every step of a thread lowers what it owes, and a schedule of threads
that owe something ends (`owing_step`).
-/
namespace StructureOfOs.Debts
open StructureOfOs.Programs

section
variable {Act : Type} {Res : Act → Type} {α β : Type}

/-- The program performs at most so many actions, and only allowed ones. -/
def Within (allowed : Act → Prop) : Nat → Prog Act Res α → Prop
  | _, .ret _ => True
  | 0, .act _ _ => False
  | k + 1, .act a next => allowed a ∧ ∀ r, Within allowed k (next r)

variable {allowed more : Act → Prop} {j k : Nat} {p : Prog Act Res α} {f : α → Prog Act Res β}

@[simp] theorem within_ret {value : α} : Within allowed k (.ret value : Prog Act Res α) := by
  cases k <;> trivial
theorem within_call {a : Act} (may : allowed a) : Within allowed (k + 1) (.call a : Prog Act Res (Res a)) :=
  ⟨may,fun _ => within_ret⟩
theorem within_then {a : Act} {f : Res a → Prog Act Res β} (may : allowed a) (rest : ∀ r, Within allowed k (f r)) :
    Within allowed (k + 1) (.call a >>= f) := ⟨may,rest⟩
theorem within_mono (wider : ∀ a, allowed a → more a) (longer : j ≤ k) (within : Within allowed j p) : Within more k p := by
  induction p generalizing j k with
  | ret value => exact within_ret
  | act a next ih =>
    cases j with
    | zero => exact within.elim
    | succ j =>
      obtain ⟨k,rfl⟩ : ∃ i, k = i + 1 := ⟨k - 1,by omega⟩
      exact ⟨wider a within.1,fun r => ih r (by omega) (within.2 r)⟩
/-- A program followed by another. -/
theorem within_bind (first : Within allowed j p) (rest : ∀ value, Within allowed k (f value)) :
    Within allowed (k + j) (p >>= f) := by
  induction p generalizing j with
  | ret value => exact within_mono (fun _ may => may) (Nat.le_add_right k j) (rest value)
  | act a next ih =>
    cases j with
    | zero => exact first.elim
    | succ j => exact ⟨first.1,fun r => ih r (first.2 r)⟩
theorem within_ite {c : Prop} [Decidable c] {p q : Prog Act Res α} (yes : Within allowed k p) (no : Within allowed k q) :
    Within allowed k (if c then p else q) := by
  split
  · exact yes
  · exact no

/-- A program whose actions an outline permits and passes over follows it from any view to that view. -/
theorem within_follows {Tid Shared Ctl View : Type} {O : Outlines.Outline Tid Shared Act Res Ctl View} {t : Tid} {g : View}
    (permits : ∀ a, allowed a → O.Ok t g a) (passes : ∀ a r g', allowed a → O.Next t g a r g' → g' = g)
    (within : Within allowed k p) : O.Follows t p g fun _ g' => g' = g := by
  induction p generalizing k with
  | ret value => exact rfl
  | act a next ih =>
    cases k with
    | zero => exact within.elim
    | succ k =>
      refine ⟨permits a within.1,fun r g' reached => ?_⟩
      rw [passes a r g' within.1 reached]
      exact ih r (within.2 r)
end

section
variable {Tid Shared Act Ctl : Type} {Res : Act → Type} {α : Type}

/-- With answers as said the program performs at most `k` actions, the weight of the point it
    comes to included. -/
def Owes (said : (a : Act) → Res a → Prop) (weight : Ctl → Nat) : Nat → Prog Act Res Ctl → Prop
  | k, .ret point => weight point ≤ k
  | 0, .act _ _ => False
  | k + 1, .act a next => ∀ r, said a r → Owes said weight k (next r)

variable {said : (a : Act) → Res a → Prop} {weight : Ctl → Nat} {j k : Nat} {p : Prog Act Res Ctl}

@[simp] theorem owes_ret {point : Ctl} : Owes said weight k (.ret point) ↔ weight point ≤ k := by
  cases k <;> rfl
theorem owes_act {a : Act} {next : Res a → Prog Act Res Ctl} :
    Owes said weight k (.act a next) ↔ ∃ j, k = j + 1 ∧ ∀ r, said a r → Owes said weight j (next r) := by
  cases k with
  | zero => exact ⟨False.elim,fun ⟨_,same,_⟩ => absurd same (Nat.succ_ne_zero _).symm⟩
  | succ k => exact ⟨fun rest => ⟨k,rfl,rest⟩,by rintro ⟨_,⟨⟩,rest⟩; exact rest⟩
theorem owes_mono (more : j ≤ k) (owes : Owes said weight j p) : Owes said weight k p := by
  induction p generalizing j k with
  | ret point => exact owes_ret.mpr ((owes_ret.mp owes).trans more)
  | act a next ih =>
    obtain ⟨j,rfl,rest⟩ := owes_act.mp owes
    exact owes_act.mpr ⟨k - 1,by omega,fun r answered => ih r (by omega) (rest r answered)⟩
/-- A program, then the rest. -/
theorem owes_bind {allowed : Act → Prop} {p : Prog Act Res α} {f : α → Prog Act Res Ctl} (first : Within allowed j p)
    (rest : ∀ value, Owes said weight k (f value)) : Owes said weight (k + j) (p >>= f) := by
  induction p generalizing j with
  | ret value => exact owes_mono (Nat.le_add_right k j) (rest value)
  | act a next ih =>
    cases j with
    | zero => exact first.elim
    | succ j => exact fun r _ => ih r (first.2 r)
/-- Without a word on the answers: the heaviest point it may come to. -/
theorem owes_within {allowed : Act → Prop} (within : Within allowed j p) (light : ∀ point, weight point ≤ k) :
    Owes said weight (k + j) p := by
  induction p generalizing j with
  | ret value => exact owes_ret.mpr ((light value).trans (Nat.le_add_right k j))
  | act a next ih =>
    cases j with
    | zero => exact within.elim
    | succ j => exact fun r _ => ih r (within.2 r)
theorem owes_then {a : Act} {f : Res a → Prog Act Res Ctl} (rest : ∀ r, said a r → Owes said weight k (f r)) :
    Owes said weight (k + 1) (.call a >>= f) := rest

variable [DecidableEq Tid] {M : Machine Tid Shared Act Res Ctl} {c d : Config Tid Shared Act Res Ctl} {t u : Tid}

theorem thread_other (stepped : M.step c t = some d) (other : u ≠ t) : d.thread u = c.thread u := by
  rcases step_cases stepped with ⟨_,_,_,_,rfl⟩ | ⟨_,_,_,_,_,_,rfl⟩
  · exact Function.update_of_ne other ..
  · exact Function.update_of_ne other ..

/-- Rounds of at most `k` actions are always under way. -/
theorem within_reaches {allowed : Act → Prop} (rounds : ∀ point p, M.round t point = some p → Within allowed k p)
    (initial : Within allowed k (c.thread t).prog) (reached : M.Reaches c d) : Within allowed k (d.thread t).prog := by
  refine reached.invariant (P := fun c => Within allowed k (c.thread t).prog) initial ?_
  intro c u d within stepped
  by_cases same : t = u
  · subst same
    rcases step_cases stepped with ⟨point,p,_,started,rfl⟩ | ⟨a,next,r,s,left,_,rfl⟩
    · simpa using rounds point p started
    · rw [left] at within
      cases k with
      | zero => exact within.elim
      | succ k => simpa using within_mono (fun _ may => may) (Nat.le_succ k) (within.2 r)
  · rw [thread_other stepped same]
    exact within

/-- The round at whose start the thread stands costs less than the point it starts from. -/
def Paced (M : Machine Tid Shared Act Res Ctl) (said : (a : Act) → Res a → Prop) (weight : Ctl → Nat)
    (c : Config Tid Shared Act Res Ctl) (t : Tid) : Prop :=
  ∀ point p, (c.thread t).prog = .ret point → M.round t point = some p → ∃ j, j < weight point ∧ Owes said weight j p
/-- The state answers the thread as said. -/
def Answers (M : Machine Tid Shared Act Res Ctl) (said : (a : Act) → Res a → Prop) (t : Tid) (s : Shared) : Prop :=
  ∀ a r s', M.run t a s = some (r,s') → said a r

theorem owes_step (paced : Paced M said weight c t) (answers : Answers M said t c.shared) (owes : Owes said weight k (c.thread t).prog)
    (stepped : M.step c t = some d) : ∃ j, j < k ∧ Owes said weight j (d.thread t).prog := by
  rcases step_cases stepped with ⟨point,p,left,started,rfl⟩ | ⟨a,next,r,s,left,ran,rfl⟩
  · rw [left,owes_ret] at owes
    obtain ⟨j,less,cost⟩ := paced point p left started
    exact ⟨j,less.trans_le owes,by simpa using cost⟩
  · rw [left,owes_act] at owes
    obtain ⟨j,rfl,rest⟩ := owes
    exact ⟨j,Nat.lt_succ_self j,by simpa using rest r (answers a r s ran)⟩

/-- What some threads owe together. -/
def Owing (said : (a : Act) → Res a → Prop) (weight : Tid → Ctl → Nat) (D : Finset Tid)
    (c : Config Tid Shared Act Res Ctl) (total : Nat) : Prop :=
  ∃ k : Tid → Nat, (∀ t ∈ D, Owes said (weight t) (k t) (c.thread t).prog) ∧ ∑ t ∈ D, k t = total

variable {weights : Tid → Ctl → Nat} {D : Finset Tid} {total : Nat}

omit [DecidableEq Tid] in
theorem owing_of (owes : ∀ t ∈ D, ∃ k, Owes said (weights t) k (c.thread t).prog) :
    ∃ total, Owing said weights D c total := by
  choose! k holds using owes
  exact ⟨_,k,holds,rfl⟩
theorem owing_other (owing : Owing said weights D c total) (other : t ∉ D) (stepped : M.step c t = some d) :
    Owing said weights D d total := by
  obtain ⟨k,owes,sum⟩ := owing
  refine ⟨k,fun u member => ?_,sum⟩
  rw [thread_other stepped (fun same => other (same ▸ member))]
  exact owes u member
/-- A step of one of the threads lowers what they owe. -/
theorem owing_step (paced : Paced M said (weights t) c t) (answers : Answers M said t c.shared) (owing : Owing said weights D c total)
    (member : t ∈ D) (stepped : M.step c t = some d) : ∃ less, less < total ∧ Owing said weights D d less := by
  obtain ⟨k,owes,rfl⟩ := owing
  obtain ⟨j,less,mine⟩ := owes_step paced answers (owes t member) stepped
  refine ⟨_,?_,Function.update k t j,fun u among => ?_,rfl⟩
  · refine Finset.sum_lt_sum (fun u _ => ?_) ⟨t,member,by simpa using less⟩
    by_cases same : u = t
    · subst same; simpa using less.le
    · simp [same]
  · by_cases same : u = t
    · subst same; simpa using mine
    · rw [Function.update_of_ne same,thread_other stepped same]
      exact owes u among
end

end StructureOfOs.Debts
