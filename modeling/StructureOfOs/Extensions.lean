import StructureOfOs.Outlines

/-!
A machine extended by actions of its own: these read the machine's state and change
one that is kept beside it. The programs of the extension contain those of the machine
with further actions in between (`Behind`), and its threads may pass through rounds in
which the machine's do nothing. Then every run of the extension is a run of the machine
(`refines`), an outline of the extension may rely on what holds of the machine
(`holds_above`), and a run of the machine is one of the extension as long as the threads
that move are not held up by the further actions (`keeps_up`).
-/
namespace StructureOfOs.Extensions
open StructureOfOs.Programs StructureOfOs.Outlines

variable {Tid Shared Own Act Extra Low Ctl View : Type} {Res : Act → Type} {ResX : Extra → Type} {α β γ : Type}

/-- A program of the machine, as one of the extension. -/
def lift : Prog Act Res α → Prog (Act ⊕ Extra) (Sum.elim Res ResX) α
  | .ret value => .ret value
  | .act a next => .act (.inl a) fun r => lift (next r)

/-- What the extension adds: when it still runs, what its own actions do to its own state, and
    the rounds of its threads. -/
structure Extension (Tid Shared Own Act Extra : Type) (Res : Act → Type) (ResX : Extra → Type) (Ctl : Type) where
  alive : Own → Bool
  own : Tid → (x : Extra) → Shared → Own → Option (ResX x × Own)
  round : Tid → Ctl → Option (Prog (Act ⊕ Extra) (Sum.elim Res ResX) Ctl)

def extend (M : Machine Tid Shared Act Res Low) (E : Extension Tid Shared Own Act Extra Res ResX Ctl) :
    Machine Tid (Shared × Own) (Act ⊕ Extra) (Sum.elim Res ResX) Ctl where
  run t
    | .inl a, s => if E.alive s.2 then (M.run t a s.1).map fun out => (out.1,out.2,s.2) else none
    | .inr x, s => if E.alive s.2 then (E.own t x s.1 s.2).map fun out => (out.1,s.1,out.2) else none
  round := E.round

/-- The program of the extension is the machine's with actions in between that the thread may do;
    where it comes to a point, what is left of the machine's is as said. -/
def Behind (may : Extra → Prop) (left : Ctl → Prog Act Res Low → Prop) :
    Prog (Act ⊕ Extra) (Sum.elim Res ResX) Ctl → Prog Act Res Low → Prop
  | .ret point, p => left point p
  | .act (.inl a) next, p => ∃ below, p = .act a below ∧ ∀ r, Behind may left (next r) (below r)
  | .act (.inr x) next, p => may x ∧ ∀ r, Behind may left (next r) p

variable {may : Extra → Prop} {left : Ctl → Prog Act Res Low → Prop} {p : Prog Act Res α} {q : Prog Act Res Low}

theorem behind_lift {f : α → Prog (Act ⊕ Extra) (Sum.elim Res ResX) Ctl} {g : α → Prog Act Res Low}
    (rest : ∀ value, Behind may left (f value) (g value)) : Behind may left (lift p >>= f) (p >>= g) := by
  induction p with
  | ret value => exact rest value
  | act a next ih => exact ⟨_,rfl,fun r => ih r⟩

variable {M : Machine Tid Shared Act Res Low} {E : Extension Tid Shared Own Act Extra Res ResX Ctl}
variable {mays : Tid → Extra → Prop} {lefts : Tid → Ctl → Prog Act Res Low → Prop} {t : Tid}
variable {c d : Config Tid (Shared × Own) (Act ⊕ Extra) (Sum.elim Res ResX) Ctl} {c₀ d₀ : Config Tid Shared Act Res Low}

/-- Every round of the extension is one of the machine, or one in which the machine's thread stays where it is. -/
def Rounds (M : Machine Tid Shared Act Res Low) (E : Extension Tid Shared Own Act Extra Res ResX Ctl)
    (mays : Tid → Extra → Prop) (lefts : Tid → Ctl → Prog Act Res Low → Prop) : Prop :=
  ∀ t point q p, lefts t point q → E.round t point = some p → Behind (mays t) (lefts t) p q ∨
    ∃ low q', q = .ret low ∧ M.round t low = some q' ∧ Behind (mays t) (lefts t) p q'
/-- The extension is where the machine is. -/
structure Sim (mays : Tid → Extra → Prop) (lefts : Tid → Ctl → Prog Act Res Low → Prop)
    (c : Config Tid (Shared × Own) (Act ⊕ Extra) (Sum.elim Res ResX) Ctl) (c₀ : Config Tid Shared Act Res Low) : Prop where
  shared : c.shared.1 = c₀.shared
  thread : ∀ t, Behind (mays t) (lefts t) (c.thread t).prog (c₀.thread t).prog

theorem run_extra {x : Extra} {r : ResX x} {s s' : Shared × Own} (ran : (extend M E).run t (.inr x) s = some (r,s')) :
    E.alive s.2 = true ∧ E.own t x s.1 s.2 = some (r,s'.2) ∧ s'.1 = s.1 := by
  have ran : (if E.alive s.2 then (E.own t x s.1 s.2).map fun out => (out.1,s.1,out.2) else none) = some (r,s') := ran
  obtain ⟨lives,ran⟩ := Option.ite_none_right_eq_some.mp ran
  obtain ⟨⟨r',o⟩,did,same⟩ := Option.map_eq_some_iff.mp ran
  cases same
  exact ⟨lives,did,rfl⟩
theorem run_low {a : Act} {r : Res a} {s s' : Shared × Own} (ran : (extend M E).run t (.inl a) s = some (r,s')) :
    E.alive s.2 = true ∧ M.run t a s.1 = some (r,s'.1) ∧ s'.2 = s.2 := by
  have ran : (if E.alive s.2 then (M.run t a s.1).map fun out => (out.1,out.2,s.2) else none) = some (r,s') := ran
  obtain ⟨lives,ran⟩ := Option.ite_none_right_eq_some.mp ran
  obtain ⟨⟨r',s₀⟩,did,same⟩ := Option.map_eq_some_iff.mp ran
  cases same
  exact ⟨lives,did,rfl⟩

variable [DecidableEq Tid]

/-- One thread of each has moved. -/
theorem Sim.update {s : Shared × Own} {s₀ : Shared} {x : Thread (Act ⊕ Extra) (Sum.elim Res ResX) Ctl} {y : Thread Act Res Low}
    (sim : Sim mays lefts c c₀) (shared : s.1 = s₀) (behind : Behind (mays t) (lefts t) x.prog y.prog) :
    Sim mays lefts ⟨s,Function.update c.thread t x⟩ ⟨s₀,Function.update c₀.thread t y⟩ := by
  refine ⟨shared,fun u => ?_⟩
  by_cases same : u = t
  · subst same; simpa using behind
  · simpa [same] using sim.thread u
/-- Only the extension's thread has moved. -/
theorem Sim.ahead {s : Shared × Own} {x : Thread (Act ⊕ Extra) (Sum.elim Res ResX) Ctl} (sim : Sim mays lefts c c₀)
    (shared : s.1 = c₀.shared) (behind : Behind (mays t) (lefts t) x.prog (c₀.thread t).prog) :
    Sim mays lefts ⟨s,Function.update c.thread t x⟩ c₀ := by
  have moved := sim.update (t := t) shared (y := c₀.thread t) behind
  rwa [Function.update_eq_self] at moved

/-- A step of the extension is a step of the machine or none. -/
theorem sim_step (rounds : Rounds M E mays lefts) (sim : Sim mays lefts c c₀) (stepped : (extend M E).step c t = some d) :
    ∃ d₀, (d₀ = c₀ ∨ M.step c₀ t = some d₀) ∧ Sim mays lefts d d₀ := by
  have mine := sim.thread t
  rcases step_cases stepped with ⟨point,p,at_,started,rfl⟩ | ⟨a,next,r,s,at_,ran,rfl⟩
  · rw [at_] at mine
    rcases rounds t point _ p mine started with behind | ⟨low,q,stands,starts,behind⟩
    · exact ⟨c₀,.inl rfl,sim.ahead sim.shared behind⟩
    · refine ⟨_,.inr ?_,sim.update (y := ⟨low,q⟩) sim.shared behind⟩
      simp only [Machine.step,stands,starts,Option.map_some]
  · rw [at_] at mine
    cases a with
    | inl a =>
      obtain ⟨below,stands,behind⟩ := mine
      obtain ⟨_,did,_⟩ := run_low ran
      refine ⟨_,.inr ?_,sim.update (y := ⟨(c₀.thread t).point,below r⟩) rfl (behind r)⟩
      simp only [Machine.step,stands,← sim.shared,did,Option.map_some]
    | inr x =>
      obtain ⟨_,_,same⟩ := run_extra ran
      exact ⟨c₀,.inl rfl,sim.ahead (same.trans sim.shared) (mine.2 r)⟩

/-- A run of the extension is one of the machine. -/
theorem refines (rounds : Rounds M E mays lefts) (sim : Sim mays lefts c c₀) (reached : (extend M E).Reaches c d) :
    ∃ d₀, M.Reaches c₀ d₀ ∧ Sim mays lefts d d₀ := by
  refine reached.invariant (P := fun d => ∃ d₀, M.Reaches c₀ d₀ ∧ Sim mays lefts d d₀) ⟨c₀,⟨[],rfl⟩,sim⟩ ?_
  rintro c t d ⟨d₀,reached₀,sim⟩ stepped
  obtain ⟨e₀,moved,sim'⟩ := sim_step rounds sim stepped
  rcases moved with rfl | stepped₀
  · exact ⟨_,reached₀,sim'⟩
  · exact ⟨_,reached₀.step stepped₀,sim'⟩

/-! ### Outlines of the extension -/

/-- An outline of the extension is sound, where the machine is in a state that it can reach. -/
structure Sound (M : Machine Tid Shared Act Res Low) (E : Extension Tid Shared Own Act Extra Res ResX Ctl)
    (O : Outline Tid (Shared × Own) (Act ⊕ Extra) (Sum.elim Res ResX) Ctl View) (base : Config Tid Shared Act Res Low) : Prop where
  low : ∀ {c₀ V t o} {a : Act} {r : Res a} {s}, M.Reaches base c₀ → (c₀.thread t).prog.action = some a → E.alive o = true →
    O.Inv (c₀.shared,o) V → O.Ok t (V t) (.inl a) → M.run t a c₀.shared = some (r,s) →
      ∃ g, O.Next t (V t) (.inl a) r g ∧ O.Inv (s,o) (Function.update V t g)
  own : ∀ {c₀ V t o} {x : Extra} {r : ResX x} {o'}, M.Reaches base c₀ → E.alive o = true → O.Inv (c₀.shared,o) V →
    O.Ok t (V t) (.inr x) → E.own t x c₀.shared o = some (r,o') →
      ∃ g, O.Next t (V t) (.inr x) r g ∧ O.Inv (c₀.shared,o') (Function.update V t g)
  round : ∀ {t point p g}, O.Loop t point g → E.round t point = some p → O.Follows t p g (O.Loop t)

/-- A sound outline that holds at first holds wherever a schedule leads, beside a state of the machine. -/
theorem holds_above {O : Outline Tid (Shared × Own) (Act ⊕ Extra) (Sum.elim Res ResX) Ctl View} {base : Config Tid Shared Act Res Low}
    (rounds : Rounds M E mays lefts) (sound : Sound M E O base) (sim : Sim mays lefts c base) (holds : O.Holds c)
    (reached : (extend M E).Reaches c d) : ∃ d₀, M.Reaches base d₀ ∧ Sim mays lefts d d₀ ∧ O.Holds d := by
  refine reached.invariant (P := fun d => ∃ d₀, M.Reaches base d₀ ∧ Sim mays lefts d d₀ ∧ O.Holds d) ⟨base,⟨[],rfl⟩,sim,holds⟩ ?_
  rintro c t d ⟨c₀,reached₀,sim,V,inv,follows⟩ stepped
  obtain ⟨d₀,moved,sim'⟩ := sim_step rounds sim stepped
  have reached' : M.Reaches base d₀ := by
    rcases moved with rfl | stepped₀
    · exact reached₀
    · exact reached₀.step stepped₀
  refine ⟨d₀,reached',sim',?_⟩
  have other : ∀ (s : Shared × Own) (th : Thread (Act ⊕ Extra) (Sum.elim Res ResX) Ctl) g, O.Inv s (Function.update V t g) →
      O.Follows t th.prog g (O.Loop t) → O.Holds ⟨s,Function.update c.thread t th⟩ := by
    refine fun s th g inv' mine => ⟨_,inv',fun u => ?_⟩
    by_cases same : u = t
    · subst same; simpa using mine
    · simpa [same] using follows u
  have mine := follows t
  rcases step_cases stepped with ⟨point,p,at_,started,rfl⟩ | ⟨a,next,r,s,at_,ran,rfl⟩
  · rw [at_,follows_ret] at mine
    exact other c.shared _ (V t) (by rwa [Function.update_eq_self]) (sound.round mine started)
  · rw [at_,follows_act] at mine
    have beside : c.shared = (c₀.shared,c.shared.2) := by rw [← sim.shared]
    rw [beside] at inv
    cases a with
    | inl a =>
      have behind := sim.thread t
      rw [at_] at behind
      obtain ⟨below,stands,_⟩ := behind
      obtain ⟨lives,did,same⟩ := run_low ran
      rw [sim.shared] at did
      obtain ⟨g,reached,inv'⟩ := sound.low reached₀ (Prog.action_eq_some.mpr ⟨below,stands⟩) lives inv mine.1 did
      exact other s _ g (by rw [← same] at inv'; exact inv') (mine.2 r g reached)
    | inr x =>
      obtain ⟨lives,did,same⟩ := run_extra ran
      rw [sim.shared] at did same
      obtain ⟨g,reached,inv'⟩ := sound.own reached₀ lives inv mine.1 did
      exact other s _ g (by rw [← same] at inv'; exact inv') (mine.2 r g reached)

/-! ### A run of the machine, in the extension -/

/-- Where the program comes to a point, the point is as said. -/
def Ends (P : Ctl → Prop) : Prog (Act ⊕ Extra) (Sum.elim Res ResX) Ctl → Prop
  | .ret point => P point
  | .act _ next => ∀ r, Ends P (next r)
omit [DecidableEq Tid] in
theorem ends_true (p : Prog (Act ⊕ Extra) (Sum.elim Res ResX) Ctl) : Ends (fun _ => True) p := by
  induction p with
  | ret point => trivial
  | act a next ih => exact fun r => ih r

omit [DecidableEq Tid] in
theorem ends_mono {P Q : Ctl → Prop} {p : Prog (Act ⊕ Extra) (Sum.elim Res ResX) Ctl} (wider : ∀ point, P point → Q point)
    (ends : Ends P p) : Ends Q p := by
  induction p with
  | ret point => exact wider point ends
  | act a next ih => exact fun r => ih r (ends r)

/-- As long as the extension's state is as said, the thread's further actions are not blocked, and it
    comes to the machine's next round after rounds that shrink a size. -/
structure Prompt (M : Machine Tid Shared Act Res Low) (E : Extension Tid Shared Own Act Extra Res ResX Ctl) (mays : Tid → Extra → Prop)
    (lefts : Tid → Ctl → Prog Act Res Low → Prop) (keep : Own → Prop) (size : Ctl → Nat) (t : Tid) : Prop where
  alive : ∀ o, keep o → E.alive o = true
  own : ∀ x s o, mays t x → keep o → ∃ r o', E.own t x s o = some (r,o') ∧ keep o'
  point : ∀ point q, lefts t point q → ∃ low, q = .ret low
  round : ∀ point low q, lefts t point (.ret low) → M.round t low = some q → ∃ p, E.round t point = some p ∧
    (Behind (mays t) (lefts t) p q ∨ Behind (mays t) (lefts t) p (.ret low) ∧ Ends (fun point' => size point' < size point) p)

variable {keep : Own → Prop} {size : Ctl → Nat} {who : Tid → Prop}

/-- The thread comes to a point, or to the machine's action. -/
theorem comes_to_point {P : Ctl → Prop} (prompt : Prompt M E mays lefts keep size t) (stepped : M.step c₀ t = some d₀)
    (at_point : ∀ c point, Sim mays lefts c c₀ → keep c.shared.2 → (c.thread t).prog = .ret point → P point →
      ∃ d, (extend M E).ReachesBy (· = t) c d ∧ Sim mays lefts d d₀ ∧ keep d.shared.2)
    (sim : Sim mays lefts c c₀) (keeps : keep c.shared.2) (ends : Ends P (c.thread t).prog) :
    ∃ d, (extend M E).ReachesBy (· = t) c d ∧ Sim mays lefts d d₀ ∧ keep d.shared.2 := by
  generalize at_ : (c.thread t).prog = p at ends
  induction p generalizing c with
  | ret point => exact at_point c point sim keeps at_ ends
  | act a next ih =>
    have mine := sim.thread t
    rw [at_] at mine
    cases a with
    | inl a =>
      obtain ⟨below,stands,behind⟩ := mine
      simp only [Machine.step,stands,Option.map_eq_some_iff] at stepped
      obtain ⟨⟨r,s⟩,did,rfl⟩ := stepped
      have ran : (extend M E).run t (.inl a) c.shared = some (r,s,c.shared.2) := by
        show (if E.alive c.shared.2 then _ else none) = _
        rw [if_pos (prompt.alive _ keeps),sim.shared,did]
        rfl
      refine ⟨⟨(s,c.shared.2),Function.update c.thread t ⟨(c.thread t).point,next r⟩⟩,.step rfl ?_,?_,keeps⟩
      · simp only [Machine.step,at_]
        exact congrArg (Option.map _) ran
      · exact sim.update (y := ⟨(c₀.thread t).point,below r⟩) rfl (behind r)
    | inr x =>
      obtain ⟨r,o,did,keeps'⟩ := prompt.own x c.shared.1 c.shared.2 mine.1 keeps
      have ran : (extend M E).run t (.inr x) c.shared = some (r,c.shared.1,o) := by
        show (if E.alive c.shared.2 then _ else none) = _
        rw [if_pos (prompt.alive _ keeps),did]
        rfl
      have first : (extend M E).step c t =
          some ⟨(c.shared.1,o),Function.update c.thread t ⟨(c.thread t).point,next r⟩⟩ := by
        simp only [Machine.step,at_]
        exact congrArg (Option.map _) ran
      obtain ⟨d,rest,done⟩ := ih r (sim.ahead (s := (c.shared.1,o)) (x := ⟨(c.thread t).point,next r⟩) sim.shared (mine.2 r))
        keeps' (by simp) (ends r)
      exact ⟨d,.trans (.step rfl first) rest,done⟩

/-- A step of the machine is made by the extension. -/
theorem catches_up (prompt : Prompt M E mays lefts keep size t) (stepped : M.step c₀ t = some d₀) (sim : Sim mays lefts c c₀)
    (keeps : keep c.shared.2) : ∃ d, (extend M E).ReachesBy (· = t) c d ∧ Sim mays lefts d d₀ ∧ keep d.shared.2 := by
  have at_point : ∀ n c point, size point = n → Sim mays lefts c c₀ → keep c.shared.2 → (c.thread t).prog = .ret point →
      ∃ d, (extend M E).ReachesBy (· = t) c d ∧ Sim mays lefts d d₀ ∧ keep d.shared.2 := by
    intro n
    induction n using Nat.strongRecOn with
    | ind n smaller =>
      rintro c point rfl sim keeps at_
      have mine := sim.thread t
      rw [at_] at mine
      obtain ⟨low,stands⟩ := prompt.point point _ mine
      have behind : lefts t point (.ret low) := stands ▸ mine
      simp only [Machine.step,stands,Option.map_eq_some_iff] at stepped
      obtain ⟨q,starts,rfl⟩ := stepped
      obtain ⟨p,started,matched | ⟨still,ends⟩⟩ := prompt.round point low q behind starts
      · refine ⟨{ c with thread := Function.update c.thread t ⟨point,p⟩ },.step rfl ?_,?_,keeps⟩
        · simp only [Machine.step,at_]
          exact congrArg (Option.map _) started
        · exact sim.update (y := ⟨low,q⟩) sim.shared matched
      · have first : (extend M E).step c t = some { c with thread := Function.update c.thread t ⟨point,p⟩ } := by
          simp only [Machine.step,at_]
          exact congrArg (Option.map _) started
        obtain ⟨d,rest,done⟩ := comes_to_point (P := fun point' => size point' < size point) prompt
          (by simp only [Machine.step,stands,starts,Option.map_some])
          (fun c point' sim keeps at_ less => smaller _ less c point' rfl sim keeps at_)
          (sim.ahead (x := ⟨point,p⟩) sim.shared (stands ▸ still)) keeps (by simpa using ends)
        exact ⟨d,.trans (.step rfl first) rest,done⟩
  exact comes_to_point prompt stepped (fun c point sim keeps at_ _ => at_point _ c point rfl sim keeps at_) sim keeps (ends_true _)

/-- A run of threads that are prompt is one of the extension. -/
theorem keeps_up {size : Tid → Ctl → Nat} (prompt : ∀ t, who t → Prompt M E mays lefts keep (size t) t) (reached : M.ReachesBy who c₀ d₀)
    (sim : Sim mays lefts c c₀) (keeps : keep c.shared.2) :
    ∃ d, (extend M E).ReachesBy who c d ∧ Sim mays lefts d d₀ ∧ keep d.shared.2 := by
  obtain ⟨schedule,among,ran⟩ := reached
  induction schedule generalizing c c₀ with
  | nil => cases ran; exact ⟨c,.refl c,sim,keeps⟩
  | cons t rest ih =>
    obtain ⟨middle,stepped,later⟩ := Option.bind_eq_some_iff.mp ran
    have mine := among t (List.mem_cons_self ..)
    obtain ⟨d,first,sim',keeps'⟩ := catches_up (prompt t mine) stepped sim keeps
    obtain ⟨e,second,done⟩ := ih sim' keeps' (fun u member => among u (List.mem_cons_of_mem t member)) later
    exact ⟨e,(first.mono fun u same => same ▸ mine).trans second,done⟩

end StructureOfOs.Extensions
