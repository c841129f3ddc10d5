import StructureOfOs.Accounts
import StructureOfOs.Outlines

/-!
The reader/writer locks on their own: any number of threads that go through one
section after the other, each as a reader or a writer of the account list or of an
account. What the locks promise holds of such threads whatever else they do and
in whatever order they use the locks (`readers_writers_exclude`).
-/
namespace StructureOfOs.ReadersWriters
open StructureOfOs.Programs StructureOfOs.Outlines StructureOfOs.RwLock StructureOfOs.BankState StructureOfOs.Accounts

/-! ### The threads -/

/-- What a thread enters a lock as. -/
inductive Section
  | reader (l : RwId)
  | writer (l : RwId)
deriving DecidableEq
namespace Section
def lock : Section → RwId
  | .reader l | .writer l => l
def enter : Section → Code Unit
  | .reader .account_list => lock_account_list_for_read
  | .reader (.account r) => lock_for_readres r
  | .writer .account_list => lock_account_list_for_write
  | .writer (.account r) => lock_for_write r
def leave : Section → Code Unit
  | .reader .account_list => unlock_account_list_from_read
  | .reader (.account r) => unlock_account_from_read r
  | .writer .account_list => unlock_account_list_from_write
  | .writer (.account r) => unlock_from_write r
/-- Where the lock has a thread that is in the section. -/
def place : Section → Phase
  | .reader _ => .reading
  | .writer _ => .writing
end Section

/-- A thread is before its `k`-th section or in it. -/
inductive Point
  | outside (k : Nat)
  | inside (k : Nat)
def rounds (plan : Tid → Nat → Section) (t : Tid) : Point → Option (Code Point)
  | .outside k => some do
    (plan t k).enter
    return .inside k
  | .inside k => some do
    (plan t k).leave
    return .outside (k + 1)
/-- The threads, where `plan t k` is the `k`-th section of the thread `t`. -/
def clients (plan : Tid → Nat → Section) : Machine Tid Shared Act Res Point := ⟨run,rounds plan⟩
abbrev Config := Programs.Config Tid Shared Act Res Point
def initial (rand : Nat → Nat) : Config := ⟨.initial rand,fun _ => ⟨.outside 0,.ret (.outside 0)⟩⟩

/-! ### The outline -/

/-- Where a thread is in each lock, and the counter it has read. -/
structure Place where
  phase : RwId → Phase
  known : Option (RwId × Int)
namespace Place
def away : Place := ⟨fun _ => .idle,none⟩
def put (g : Place) (l : RwId) (p : Phase) : Place := ⟨Function.update g.phase l p,none⟩
def move (g : Place) (l : RwId) (m : Move) : Place := g.put l ((g.phase l).next m)
end Place

def Ok (g : Place) : Act → Prop
  | .lock (.lock_read l) => (g.phase l).Permits 0 .lockRead
  | .lock (.lock_write l) => g.phase l = .idle ∨ g.phase l = .counted 1
  | .unlock (.lock_read l) => (g.phase l).Permits 0 .unlockRead
  | .unlock (.lock_write l) => (g.phase l).Permits 0 .unlockWrite
  | .readers l => (g.phase l).holdsRead = true
  | .set_readers l n => ∃ v, g.known = some (l,v) ∧ (g.phase l).Permits v (.setReaders n)
  | _ => False
def Next (g : Place) : (a : Act) → Res a → Place → Prop
  | .lock (.lock_read l), _, g' => g' = g.move l .lockRead
  | .lock (.lock_write l), _, g' => g' = g.move l .lockWrite
  | .unlock (.lock_read l), _, g' => g' = g.move l .unlockRead
  | .unlock (.lock_write l), _, g' => g' = g.move l .unlockWrite
  | .readers l, n, g' => g' = { g with known := some (l,n) } ∧ ∀ v, g.phase l = .counted v ∨ g.phase l = .discounted v → n = v
  | .set_readers l n, _, g' => g' = g.move l (.setReaders n)
  | _, _, g' => g' = g

/-- The thread is where its view says. -/
structure Stands (s : Shared) (t : Tid) (g : Place) : Prop where
  phase : ∀ l, g.phase l = (s.lock l).phase t
  known : ∀ l n, g.known = some (l,n) → (g.phase l).holdsRead = true ∧ (s.lock l).num_of_readers = n
def Inv (s : Shared) (V : Tid → Place) : Prop := (∀ l, (s.lock l).Inv) ∧ ∀ t, Stands s t (V t)

def outline (plan : Tid → Nat → Section) : Outline Tid Shared Act Res Point Place where
  Inv := Inv
  Ok _ := Ok
  Next _ := Next
  Loop
    | _, .outside _, g => g = .away
    | t, .inside k, g => g = Place.away.put (plan t k).lock (plan t k).place

variable {plan : Tid → Nat → Section} {s s' : Shared} {V : Tid → Place} {t : Tid} {g : Place} {l : RwId} {α : Type}

theorem move_inv {m : Move} (inv : Inv s V) (permits : ((V t).phase l).Permits (s.lock l).num_of_readers m)
    (ran : s.move t l m = some ((),s')) : Inv s' (Function.update V t ((V t).move l m)) := by
  have places : (V t).phase = fun k => (s.lock k).phase t := funext (inv.2 t).phase
  rw [(inv.2 t).phase] at permits
  obtain ⟨locks,mine,others⟩ := locks_move inv.1 permits ran
  refine ⟨locks,fun u => ?_⟩
  by_cases same : u = t
  · subst same
    rw [Function.update_self]
    exact ⟨fun k => by rw [mine k,Place.move,Place.put,places],by simp [Place.move,Place.put]⟩
  · rw [Function.update_of_ne same]
    refine ⟨fun k => ?_,fun k n knows => ?_⟩
    · rw [(others u same k).1,(inv.2 u).phase]
    · obtain ⟨theirs,counter⟩ := (inv.2 u).known k n knows
      refine ⟨theirs,?_⟩
      rw [(inv.2 u).phase] at theirs
      exact ((others u same k).2 theirs).trans counter

theorem act_sound {a : Act} {r : Res a} (inv : Inv s V) (ok : Ok (V t) a) (ran : run t a s = some (r,s')) :
    ∃ g, Next (V t) a r g ∧ Inv s' (Function.update V t g) := by
  cases a with
  | lock m =>
    cases m with
    | lock_read l => exact ⟨_,rfl,move_inv inv ok ran⟩
    | lock_write l => exact ⟨_,rfl,move_inv inv (ok.imp_right .inl) ran⟩
    | _ => exact ok.elim
  | unlock m =>
    cases m with
    | lock_read l => exact ⟨_,rfl,move_inv inv ok ran⟩
    | lock_write l => exact ⟨_,rfl,move_inv inv ok ran⟩
    | _ => exact ok.elim
  | readers l =>
    cases ran
    refine ⟨_,⟨rfl,fun v at_l => ?_⟩,inv.1,fun u => ?_⟩
    · rw [(inv.2 t).phase] at at_l
      exact (inv.1 l).written t v at_l
    · by_cases same : u = t
      · subst same
        rw [Function.update_self]
        refine ⟨(inv.2 u).phase,fun k n knows => ?_⟩
        cases knows
        exact ⟨ok,rfl⟩
      · rw [Function.update_of_ne same]
        exact inv.2 u
  | set_readers l n =>
    obtain ⟨v,knows,permits⟩ := ok
    obtain ⟨_,rfl⟩ := (inv.2 t).known l v knows
    exact ⟨_,rfl,move_inv inv permits ran⟩
  | _ => exact ok.elim

/-! ### The sections follow it -/

@[simp] theorem put_phase {p : Phase} : (g.put l p).phase l = p := by simp [Place.put]
@[simp] theorem put_put {p q : Phase} : (g.put l p).put l q = g.put l q := by simp [Place.put]
theorem move_put {p : Phase} {m : Move} : (g.put l p).move l m = g.put l (p.next m) := by simp [Place.move]
theorem move_at {p : Phase} {m : Move} (at_l : g.phase l = p) : g.move l m = g.put l (p.next m) := by rw [Place.move,at_l]
theorem move_known {m : Move} {k : Option (RwId × Int)} : Place.move { g with known := k } l m = g.move l m := rfl
theorem put_away : Place.away.put l .idle = .away := by simp [Place.put,Place.away]

private theorem follows_one {a : Act} {Q : Res a → Place → Prop} (ok : Ok g a) (next : ∀ x g', Next g a x g' → Q x g') :
    (outline plan).Follows t (.call a) g Q :=
  (follows_call a Q).mpr ⟨ok,next⟩

theorem follows_lock_for_read {Q : Unit → Place → Prop} (idle : g.phase l = .idle) (next : Q () (g.put l .reading)) :
    (outline plan).Follows t (lock_for_read l) g Q := by
  refine follows_then (follows_one (.inl idle) ?_)
  rintro _ _ rfl
  rw [move_at idle]
  refine follows_then (follows_one (by simp [Ok,Phase.next,Phase.holdsRead]) ?_)
  rintro (n : Int) _ ⟨rfl,_⟩
  refine follows_then (follows_one ⟨n,rfl,.inl ⟨put_phase,rfl⟩⟩ ?_)
  rintro _ _ rfl
  rw [move_known,move_put]
  refine follows_then (follows_one (by simp [Ok,Phase.next,Phase.holdsRead]) ?_)
  rintro (m : Int) _ ⟨rfl,same⟩
  have same : m = n + 1 := same (n + 1) (.inl put_phase)
  by_cases first : m = 1
  · rw [if_pos first]
    refine follows_then (follows_one (.inr (by simp [Phase.next]; omega)) ?_)
    rintro _ _ rfl
    rw [move_known,move_put]
    refine follows_one (.inr (.inl put_phase)) ?_
    rintro _ _ rfl
    rw [move_put]
    exact next
  · rw [if_neg first]
    refine follows_one (.inl ⟨n + 1,put_phase,by omega⟩) ?_
    rintro _ _ rfl
    rw [move_known,move_put]
    exact next

theorem follows_unlock_from_read {Q : Unit → Place → Prop} (next : Q () (g.put l .idle)) :
    (outline plan).Follows t (unlock_from_read l) (g.put l .reading) Q := by
  refine follows_then (follows_one (.inr put_phase) ?_)
  rintro _ _ rfl
  rw [move_put]
  refine follows_then (follows_one (by simp [Ok,Phase.next,Phase.holdsRead]) ?_)
  rintro (n : Int) _ ⟨rfl,_⟩
  refine follows_then (follows_one ⟨n,rfl,.inr ⟨put_phase,rfl⟩⟩ ?_)
  rintro _ _ rfl
  rw [move_known,move_put]
  refine follows_then (follows_one (by simp [Ok,Phase.next,Phase.holdsRead]) ?_)
  rintro (m : Int) _ ⟨rfl,same⟩
  have same : m = n - 1 := same (n - 1) (.inr put_phase)
  by_cases last : m = 0
  · rw [if_pos last]
    refine follows_then (follows_one (.inr (by simp [Phase.next]; omega)) ?_)
    rintro _ _ rfl
    rw [move_known,move_put]
    refine follows_one (.inr (.inr (.inr put_phase))) ?_
    rintro _ _ rfl
    rw [move_put]
    exact next
  · rw [if_neg last]
    refine follows_one (.inr (.inr (.inl ⟨n - 1,put_phase,by omega⟩))) ?_
    rintro _ _ rfl
    rw [move_known,move_put]
    exact next

theorem follows_lock_write {Q : Unit → Place → Prop} (idle : g.phase l = .idle) (next : Q () (g.put l .writing)) :
    (outline plan).Follows t (pthread_mutex_lock (.lock_write l)) g Q := by
  refine follows_one (.inl idle) ?_
  rintro _ _ rfl
  rw [move_at idle]
  exact next
theorem follows_unlock_write {Q : Unit → Place → Prop} (next : Q () (g.put l .idle)) :
    (outline plan).Follows t (pthread_mutex_unlock (.lock_write l)) (g.put l .writing) Q := by
  refine follows_one (.inl put_phase) ?_
  rintro _ _ rfl
  rw [move_put]
  exact next

theorem follows_enter (x : Section) :
    (outline plan).Follows t x.enter .away fun _ g => g = Place.away.put x.lock x.place := by
  cases x with
  | reader l => cases l <;> exact follows_lock_for_read rfl rfl
  | writer l => cases l <;> exact follows_lock_write rfl rfl
theorem follows_leave (x : Section) :
    (outline plan).Follows t x.leave (Place.away.put x.lock x.place) fun _ g => g = .away := by
  cases x with
  | reader l => cases l <;> exact follows_unlock_from_read put_away
  | writer l => cases l <;> exact follows_unlock_write put_away

theorem clients_sound (plan : Tid → Nat → Section) : (outline plan).Sound (clients plan) where
  act := act_sound
  round := by
    intro t point p g looped started
    cases point with
    | outside k =>
      cases started; cases looped
      exact follows_seq (follows_enter (plan t k)) fun _ _ entered => entered
    | inside k =>
      cases started; cases looped
      exact follows_seq (follows_leave (plan t k)) fun _ _ left => left

theorem initial_holds (rand : Nat → Nat) : (outline plan).Holds (initial rand) :=
  ⟨fun _ => .away,⟨fun _ => inv_fresh,fun _ => ⟨fun _ => rfl,fun _ _ knows => nomatch knows⟩⟩,fun _ => rfl⟩

/-! ### What the locks promise -/

/-- Readers and writers exclude each other, and so do two writers; the counter is the
    number of threads that have incremented and not yet decremented it; and with the
    read mutex free, the write mutex is taken for the readers if there are any. -/
structure Excludes (x : Lock Tid) : Prop where
  apart : ∀ t u, x.phase t = .writing → x.phase u ≠ .reading
  single : ∀ t u, x.phase t = .writing → x.phase u = .writing → u = t
  counter : ∃ R : Finset Tid, (∀ t, t ∈ R ↔ (x.phase t).isCounted = true) ∧ x.num_of_readers = R.card
  shared : x.lock_read = none → ((∃ u, x.lock_write = some u ∧ x.phase u ≠ .writing) ↔ 0 < x.num_of_readers)

theorem excludes_of_inv {x : Lock Tid} (inv : x.Inv) : Excludes x where
  apart t u writes reads := by
    have same : u = t := inv.exclusive writes (by rw [reads]; rfl)
    rw [same,writes] at reads; cases reads
  single t u writes also := inv.exclusive writes (by rw [also]; rfl)
  counter := inv.count
  shared := inv.shared_iff

/-- Wherever any schedule leads: a thread between the two functions of a section is
    where the lock has its readers or its writers, every lock keeps its promise, and
    no mutex that a thread is about to unlock is free. -/
theorem readers_writers_exclude {rand : Nat → Nat} {c : Config} (reached : (clients plan).Reaches (initial rand) c) :
    (∀ t k, (c.thread t).prog = .ret (.inside k) → (c.shared.lock (plan t k).lock).phase t = (plan t k).place) ∧
      (∀ l, Excludes (c.shared.lock l)) ∧
      ∀ t m, (c.thread t).prog.action = some (.unlock m) → ∃ u, c.shared.mutex m = some u := by
  obtain ⟨V,⟨locks,stands⟩,follows⟩ := (clients_sound plan).reaches (initial_holds rand) reached
  refine ⟨fun t k left => ?_,fun l => excludes_of_inv (locks l),fun t m left => ?_⟩
  · have looped := follows t
    rw [left,follows_ret] at looped
    have looped : V t = Place.away.put (plan t k).lock (plan t k).place := looped
    rw [← (stands t).phase,looped]
    exact put_phase
  · have ok := follows_permits (follows t) left
    cases m with
    | lock_read l =>
      have permits : ((V t).phase l).Permits 0 .unlockRead := ok
      rw [(stands t).phase] at permits
      exact ⟨t,(locks l).unlocks_read permits⟩
    | lock_write l =>
      have permits : ((V t).phase l).Permits 0 .unlockWrite := ok
      rw [(stands t).phase] at permits
      rcases permits with writes | last
      · exact ⟨t,(locks l).writer t writes⟩
      · obtain ⟨u,taken,_⟩ := (locks l).unlocks_last last
        exact ⟨u,taken⟩
    | _ => exact ok.elim

/-- ATMs 1 and 2 are in the account list as readers, and ATM 3 waits to write it. -/
def readingPlan : Tid → Nat → Section := fun t _ => if t = .atm 3 then .writer .account_list else .reader .account_list
def reading_steps : List Tid := List.replicate 7 (.atm 1) ++ List.replicate 6 (.atm 2) ++ [.atm 3]
theorem reading_ends : ((clients readingPlan).runs reading_steps (initial fun _ => 0)).isSome = true := by decide
def reading : Config := Option.get _ reading_ends
theorem readers_writers_exclude_reading : (reading.shared.lock .account_list).phase (.atm 1) = .reading ∧
    (reading.shared.lock .account_list).phase (.atm 2) = .reading ∧
    ((clients readingPlan).step reading (.atm 3)).isNone = true ∧ Excludes (reading.shared.lock .account_list) := by
  have reached : (clients readingPlan).Reaches (initial fun _ => 0) reading := ⟨_,(Option.some_get reading_ends).symm⟩
  obtain ⟨inside,excludes,_⟩ := readers_writers_exclude reached
  exact ⟨inside (.atm 1) 0 rfl,inside (.atm 2) 0 rfl,by decide,excludes .account_list⟩

end StructureOfOs.ReadersWriters
