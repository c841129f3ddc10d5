import StructureOfOs.Outlines

/-!
Machines that keep a record. The record is written along with every action and never
read by one, so the runs of the machine with its record are, without the record, the
runs of the machine (`forget_runs`). An outline of the machine is extended to the
record by a layer, with views of its own; each thread follows the two one beside the
other (`follows_under`).
-/
namespace StructureOfOs.Recordings
open StructureOfOs.Programs StructureOfOs.Outlines

variable {Tid Shared Rec Act Ctl View Top : Type} {Res : Act → Type} {α : Type}

/-- What an action adds to the record: the thread, the action and its answer, and the
    state before. -/
abbrev Note (Tid Shared Rec Act : Type) (Res : Act → Type) := Tid → (a : Act) → Res a → Shared → Rec → Rec

/-- The machine that also keeps a record. -/
def recording (M : Machine Tid Shared Act Res Ctl) (note : Note Tid Shared Rec Act Res) :
    Machine Tid (Shared × Rec) Act Res Ctl where
  run t a s := (M.run t a s.1).map fun out => (out.1,out.2,note t a out.1 s.1 s.2)
  round := M.round

/-- A configuration without its record, and one with the record `R`. -/
def forget (c : Config Tid (Shared × Rec) Act Res Ctl) : Config Tid Shared Act Res Ctl := ⟨c.shared.1,c.thread⟩
def attach (c : Config Tid Shared Act Res Ctl) (R : Rec) : Config Tid (Shared × Rec) Act Res Ctl := ⟨(c.shared,R),c.thread⟩


section
variable [DecidableEq Tid] {M : Machine Tid Shared Act Res Ctl} {note : Note Tid Shared Rec Act Res}
  {c : Config Tid (Shared × Rec) Act Res Ctl} {d : Config Tid Shared Act Res Ctl} {t : Tid}

theorem forget_step : ((recording M note).step c t).map forget = M.step (forget c) t := by
  unfold Machine.step
  cases left : (c.thread t).prog with
  | ret point =>
    simp only [forget,left,recording]
    cases M.round t point <;> rfl
  | act a next =>
    simp only [forget,left,recording]
    cases M.run t a c.shared.1 <;> rfl

/-- Without the record, the runs are those of the machine. -/
theorem forget_runs (schedule : List Tid) (c : Config Tid (Shared × Rec) Act Res Ctl) :
    ((recording M note).runs schedule c).map forget = M.runs schedule (forget c) := by
  induction schedule generalizing c with
  | nil => rfl
  | cons t rest ih =>
    have first : ((recording M note).step c t).map forget = M.step (forget c) t := forget_step
    simp only [Machine.runs]
    rw [← first]
    cases (recording M note).step c t with
    | none => rfl
    | some e => exact ih e

/-- Every run of the machine has a record. -/
theorem recorded_reaches (reached : M.Reaches (forget c) d) : ∃ R, (recording M note).Reaches c (attach d R) := by
  obtain ⟨schedule,ran⟩ := reached
  have recorded : ((recording M note).runs schedule c).map forget = some d := (forget_runs schedule c).trans ran
  obtain ⟨e,leads,rfl⟩ := Option.map_eq_some_iff.mp recorded
  exact ⟨e.shared.2,schedule,leads⟩
end

/-- What an outline needs beside it to speak about the record: views of its own, and an
    invariant over the state, the record and both kinds of views. -/
structure Layer (Tid Shared Rec Act : Type) (Res : Act → Type) (Ctl View Top : Type) where
  Inv : Shared → Rec → (Tid → View) → (Tid → Top) → Prop
  Ok : Tid → Top → Act → Prop
  Next : Tid → Top → (a : Act) → Res a → Top → Prop
  Loop : Tid → Ctl → Top → Prop

/-- The layer by itself: what its views permit and lead to. -/
def Layer.outline (L : Layer Tid Shared Rec Act Res Ctl View Top) : Outline Tid Rec Act Res Ctl Top where
  Inv _ _ := True
  Ok := L.Ok
  Next := L.Next
  Loop := L.Loop
/-- The outline under the layer. -/
def under (O : Outline Tid Shared Act Res Ctl View) (L : Layer Tid Shared Rec Act Res Ctl View Top) :
    Outline Tid (Shared × Rec) Act Res Ctl (View × Top) where
  Inv s V := O.Inv s.1 (fun t => (V t).1) ∧ L.Inv s.1 s.2 (fun t => (V t).1) fun t => (V t).2
  Ok t g a := O.Ok t g.1 a ∧ L.Ok t g.2 a
  Next t g a r g' := O.Next t g.1 a r g'.1 ∧ L.Next t g.2 a r g'.2
  Loop t point g := O.Loop t point g.1 ∧ L.Loop t point g.2

variable {O : Outline Tid Shared Act Res Ctl View} {L : Layer Tid Shared Rec Act Res Ctl View Top} {t : Tid} {g : View} {h : Top}

theorem follows_under {p : Prog Act Res α} {Q : α → View → Prop} {R : α → Top → Prop} (follows : O.Follows t p g Q)
    (above : L.outline.Follows t p h R) : (under O L).Follows t p (g,h) fun value g' => Q value g'.1 ∧ R value g'.2 := by
  induction p generalizing g h with
  | ret value => exact ⟨follows,above⟩
  | act a next ih =>
    refine ⟨⟨follows.1,above.1⟩,?_⟩
    rintro r ⟨g',h'⟩ ⟨reached,reached'⟩
    exact ih r (follows.2 r g' reached) (above.2 r h' reached')

variable [DecidableEq Tid]

/-- A layer is sound over an outline when it can keep up with each of its steps. -/
structure Layer.Sound (L : Layer Tid Shared Rec Act Res Ctl View Top) (O : Outline Tid Shared Act Res Ctl View)
    (M : Machine Tid Shared Act Res Ctl) (note : Note Tid Shared Rec Act Res) : Prop where
  act : ∀ {s R V W t a r s' g}, O.Inv s V → L.Inv s R V W → O.Ok t (V t) a → L.Ok t (W t) a → M.run t a s = some (r,s') →
    O.Next t (V t) a r g → O.Inv s' (Function.update V t g) →
    ∃ h, L.Next t (W t) a r h ∧ L.Inv s' (note t a r s R) (Function.update V t g) (Function.update W t h)
  round : ∀ {t point p h}, L.Loop t point h → M.round t point = some p → L.outline.Follows t p h (L.Loop t)

theorem Layer.Sound.under {M : Machine Tid Shared Act Res Ctl} {note : Note Tid Shared Rec Act Res} (above : L.Sound O M note)
    (sound : O.Sound M) : (under O L).Sound (recording M note) where
  act := by
    rintro ⟨s,R⟩ V t a r s' ⟨inv,inv'⟩ ⟨ok,ok'⟩ ran
    obtain ⟨⟨r',s''⟩,did,same⟩ := Option.map_eq_some_iff.mp ran
    cases same
    obtain ⟨g,reached,kept⟩ := sound.act inv ok did
    obtain ⟨h,reached',kept'⟩ := above.act inv inv' ok ok' did reached kept
    refine ⟨(g,h),⟨reached,reached'⟩,?_⟩
    have first : (fun u => (Function.update V t (g,h) u).1) = Function.update (fun u => (V u).1) t g := by
      funext u
      by_cases same : u = t
      · subst same; simp
      · simp [same]
    have second : (fun u => (Function.update V t (g,h) u).2) = Function.update (fun u => (V u).2) t h := by
      funext u
      by_cases same : u = t
      · subst same; simp
      · simp [same]
    simp only [Recordings.under,first,second]
    exact ⟨kept,kept'⟩
  round := by
    rintro t point p ⟨g,h⟩ ⟨looped,looped'⟩ started
    exact follows_under (sound.round looped started) (above.round looped' started)

end StructureOfOs.Recordings
