import Mathlib.Data.Finset.Card
import Mathlib.Data.Int.Order.Basic

/-!
A reader/writer lock made of two mutexes and a counter. A reader takes the read
mutex, counts itself, takes the write mutex too when it is the first, and gives
the read mutex back; it leaves the same way, and the last reader frees the write
mutex, which another thread may have taken. A writer takes and frees the write
mutex. `Lock.Inv` describes every point in between for any number of threads.
-/
namespace StructureOfOs.RwLock

/-- Where a thread is in the lock's code. The counter a thread has just written
    is part of the point it is at. -/
inductive Phase
  | idle
  | arriving
  | counted (n : Int)
  | admitted
  | reading
  | departing
  | discounted (n : Int)
  | released
  | writing
deriving DecidableEq, Repr

/-- The operations on the two mutexes and the counter. -/
inductive Move
  | lockRead
  | unlockRead
  | lockWrite
  | unlockWrite
  | setReaders (n : Int)

namespace Phase
/-- Where a thread is after a move. -/
def next : Move → Phase → Phase
  | .lockRead, .idle => .arriving
  | .lockRead, .reading => .departing
  | .setReaders n, .arriving => .counted n
  | .setReaders n, .departing => .discounted n
  | .lockWrite, .idle => .writing
  | .lockWrite, .counted _ => .admitted
  | .unlockWrite, .writing => .idle
  | .unlockWrite, .discounted _ => .released
  | .unlockRead, .counted _ => .reading
  | .unlockRead, .admitted => .reading
  | .unlockRead, .discounted _ => .idle
  | .unlockRead, .released => .idle
  | _, p => p
/-- The thread has the read mutex. -/
def holdsRead : Phase → Bool
  | .arriving | .counted _ | .admitted | .departing | .discounted _ | .released => true
  | _ => false
/-- The thread has incremented the counter and not yet decremented it. -/
def isCounted : Phase → Bool
  | .counted _ | .admitted | .reading | .departing => true
  | _ => false
/-- The write mutex is taken on behalf of this reader, among others. -/
def shares : Phase → Bool
  | .counted n => n ≠ 1
  | .admitted | .reading | .departing | .discounted _ => true
  | _ => false
/-- The thread is between the lock and the unlock function, as reader or writer. -/
def inside : Phase → Bool
  | .reading | .writing => true
  | _ => false
/-- The moves that the lock's code makes from a point, `readers` being the
    counter's value. A writer may try to enter again, in vain. -/
def Permits (readers : Int) : Move → Phase → Prop
  | .lockRead, p => p = .idle ∨ p = .reading
  | .setReaders n, p => p = .arriving ∧ n = readers + 1 ∨ p = .departing ∧ n = readers - 1
  | .lockWrite, p => p = .idle ∨ p = .counted 1 ∨ p = .writing
  | .unlockWrite, p => p = .writing ∨ p = .discounted 0
  | .unlockRead, p => (∃ n, p = .counted n ∧ n ≠ 1) ∨ p = .admitted ∨ (∃ n, p = .discounted n ∧ n ≠ 0) ∨ p = .released
end Phase

/-- The two mutexes, free or taken by a thread, and the counter. `phase` records
    where each thread is; no operation reads it. -/
structure Lock (Tid : Type) where
  lock_read : Option Tid
  lock_write : Option Tid
  num_of_readers : Int
  phase : Tid → Phase

variable {Tid : Type}

/-- The lock before any thread has used it. -/
def Lock.fresh : Lock Tid := ⟨none,none,0,fun _ => .idle⟩

/-- What holds of a lock at every point of every thread's code. -/
structure Lock.Inv (l : Lock Tid) : Prop where
  read : ∀ t, (l.phase t).holdsRead = true ↔ l.lock_read = some t
  written : ∀ t n, l.phase t = .counted n ∨ l.phase t = .discounted n → l.num_of_readers = n
  count : ∃ R : Finset Tid, (∀ t, t ∈ R ↔ (l.phase t).isCounted = true) ∧ l.num_of_readers = R.card
  writer : ∀ t, l.phase t = .writing → l.lock_write = some t
  shared : (∃ t, (l.phase t).shares = true) ↔ ∃ u, l.lock_write = some u ∧ l.phase u ≠ .writing

theorem inv_fresh : (Lock.fresh : Lock Tid).Inv where
  read := by simp [Lock.fresh,Phase.holdsRead]
  written := by simp [Lock.fresh]
  count := ⟨∅,by simp [Lock.fresh,Phase.isCounted],by simp [Lock.fresh]⟩
  writer := by simp [Lock.fresh]
  shared := by simp [Lock.fresh,Phase.shares]

variable {l l' : Lock Tid} {t u : Tid} {m : Move}

/-! ### What the invariant says -/

theorem Lock.Inv.alone (inv : l.Inv) (writes : l.phase t = .writing) (shares : (l.phase u).shares = true) : False := by
  obtain ⟨owner,taken,reader⟩ := inv.shared.mp ⟨u,shares⟩
  rw [inv.writer t writes] at taken
  cases taken
  exact reader writes

/-- At most one thread is inside as a writer, and none with a reader. -/
theorem Lock.Inv.exclusive (inv : l.Inv) (writes : l.phase t = .writing) (inside : (l.phase u).inside = true) : u = t := by
  cases at_u : l.phase u with
  | writing =>
    have first := inv.writer t writes
    have second := inv.writer u at_u
    rw [first] at second
    exact (Option.some.inj second).symm
  | reading => exact (inv.alone (u := u) writes (by simp [at_u,Phase.shares])).elim
  | _ => simp [at_u,Phase.inside] at inside

theorem Lock.Inv.free_read (inv : l.Inv) (free : l.lock_read = none) (u : Tid) : (l.phase u).holdsRead = false := by
  by_contra holds
  rw [(inv.read u).mp (by simpa using holds)] at free
  cases free

theorem Lock.Inv.holds_read_unique (inv : l.Inv) (holds : (l.phase t).holdsRead = true) (other : u ≠ t) :
    (l.phase u).holdsRead = false := by
  by_contra also
  have first := (inv.read t).mp holds
  rw [(inv.read u).mp (by simpa using also)] at first
  exact other (Option.some.inj first)

/-- With the write mutex free nobody is inside. -/
theorem Lock.Inv.free_write (inv : l.Inv) (free : l.lock_write = none) (u : Tid) :
    l.phase u ≠ .writing ∧ (l.phase u).shares = false := by
  constructor
  · intro writes
    rw [inv.writer u writes] at free
    cases free
  · by_contra shares
    obtain ⟨owner,taken,_⟩ := inv.shared.mp ⟨u,by simpa using shares⟩
    rw [free] at taken
    cases taken

/-- While a thread has the read mutex, the other counted threads are inside. -/
theorem Lock.Inv.others_reading (inv : l.Inv) (holds : (l.phase t).holdsRead = true) (other : u ≠ t)
    (counted : (l.phase u).isCounted = true) : l.phase u = .reading := by
  have quiet := inv.holds_read_unique holds other
  revert quiet counted
  cases l.phase u <;> simp [Phase.isCounted,Phase.holdsRead]

/-- While the first reader waits for the write mutex, no other thread is counted. -/
theorem Lock.Inv.first_alone (inv : l.Inv) (first : l.phase t = .counted 1) (counted : (l.phase u).isCounted = true) :
    u = t := by
  obtain ⟨R,members,size⟩ := inv.count
  have one : R.card ≤ 1 := by
    have := inv.written t 1 (.inl first)
    omega
  exact Finset.card_le_one.mp one u ((members u).mpr counted) t ((members t).mpr (by rw [first]; rfl))

/-- Whenever the read mutex is free, the write mutex is taken by a reader
    exactly if there are readers. -/
theorem Lock.Inv.shared_iff (inv : l.Inv) (free : l.lock_read = none) :
    (∃ u, l.lock_write = some u ∧ l.phase u ≠ .writing) ↔ 0 < l.num_of_readers := by
  obtain ⟨R,members,size⟩ := inv.count
  have quiet := inv.free_read free
  constructor
  · intro taken
    obtain ⟨t,shares⟩ := inv.shared.mpr taken
    have counted : t ∈ R := by
      have := quiet t
      rw [members]
      revert this shares
      cases l.phase t <;> simp [Phase.shares,Phase.holdsRead,Phase.isCounted]
    have := Finset.card_pos.mpr ⟨t,counted⟩
    omega
  · intro positive
    have : 0 < R.card := by omega
    obtain ⟨t,counted⟩ := Finset.card_pos.mp this
    have := quiet t
    rw [members] at counted
    refine inv.shared.mp ⟨t,?_⟩
    revert this counted
    cases l.phase t <;> simp [Phase.shares,Phase.holdsRead,Phase.isCounted]

/-- Who unlocks the read mutex has it. -/
theorem Lock.Inv.unlocks_read {n : Int} (inv : l.Inv) (permits : (l.phase t).Permits n .unlockRead) : l.lock_read = some t := by
  refine (inv.read t).mp ?_
  rcases permits with ⟨k,at_t,_⟩ | at_t | ⟨k,at_t,_⟩ | at_t <;> rw [at_t] <;> rfl
/-- The write mutex that the last reader unlocks was taken by a reader. -/
theorem Lock.Inv.unlocks_last {n : Int} (inv : l.Inv) (last : l.phase t = .discounted n) :
    ∃ u, l.lock_write = some u ∧ l.phase u ≠ .writing := inv.shared.mp ⟨t,by rw [last]; rfl⟩

/-! ### The moves -/

variable [DecidableEq Tid]

/-- The effect of a move of a thread, `none` when it has to wait. Whoever unlocks
    a mutex frees it. -/
def Lock.move (l : Lock Tid) (t : Tid) (m : Move) : Option (Lock Tid) :=
  let moved := { l with phase := Function.update l.phase t ((l.phase t).next m) }
  match m with
  | .lockRead => if l.lock_read = none then some { moved with lock_read := some t } else none
  | .unlockRead => some { moved with lock_read := none }
  | .lockWrite => if l.lock_write = none then some { moved with lock_write := some t } else none
  | .unlockWrite => some { moved with lock_write := none }
  | .setReaders n => some { moved with num_of_readers := n }
theorem move_phase (moved : l.move t m = some l') : l'.phase = Function.update l.phase t ((l.phase t).next m) := by
  cases m <;> simp only [Lock.move,Option.ite_none_right_eq_some,Option.some.injEq] at moved
  case lockRead | lockWrite => obtain ⟨_,rfl⟩ := moved; rfl
  all_goals subst moved; rfl
theorem move_phase_self (moved : l.move t m = some l') : l'.phase t = (l.phase t).next m := by
  simp [move_phase moved]
theorem move_phase_other (moved : l.move t m = some l') (other : u ≠ t) : l'.phase u = l.phase u := by
  simp [move_phase moved,other]

/-- The rest of the invariant does not look at the write mutex. -/
private theorem write_frame {p : Phase} (inv : l.Inv) (phase : l'.phase = Function.update l.phase t p)
    (write : l'.lock_write = l.lock_write) (was : l.phase t ≠ .writing) (becomes : p ≠ .writing)
    (share : (∃ u, (l'.phase u).shares = true) ↔ ∃ u, (l.phase u).shares = true) :
    (∀ u, l'.phase u = .writing → l'.lock_write = some u) ∧
      ((∃ u, (l'.phase u).shares = true) ↔ ∃ u, l'.lock_write = some u ∧ l'.phase u ≠ .writing) := by
  have writing : ∀ u, l'.phase u = .writing ↔ l.phase u = .writing := by
    intro u
    by_cases same : u = t
    · subst same; simp [phase,was,becomes]
    · simp [phase,same]
  constructor
  · intro u writes
    rw [write]
    exact inv.writer u ((writing u).mp writes)
  · rw [share,inv.shared,write]
    exact exists_congr fun u => and_congr_right fun _ => (writing u).not.symm

private theorem share_same {phase : Tid → Phase} {p : Phase} (same : p.shares = (phase t).shares) :
    (∃ u, (Function.update phase t p u).shares = true) ↔ ∃ u, (phase u).shares = true := by
  refine exists_congr fun u => ?_
  by_cases at_t : u = t
  · subst at_t; simp [same]
  · simp [at_t]

theorem inv_lockRead (inv : l.Inv) (permits : (l.phase t).Permits l.num_of_readers .lockRead)
    (moved : l.move t .lockRead = some l') : l'.Inv := by
  have phase := move_phase moved
  simp only [Lock.move,Option.ite_none_right_eq_some,Option.some.injEq] at moved
  obtain ⟨free,rfl⟩ := moved
  obtain ⟨R,members,size⟩ := inv.count
  have quiet := inv.free_read free
  -- The thread neither joins nor leaves the readers: it only takes the read mutex.
  have at_t : ((l.phase t).next .lockRead).holdsRead = true ∧
      ((l.phase t).next .lockRead).isCounted = (l.phase t).isCounted ∧
      ((l.phase t).next .lockRead).shares = (l.phase t).shares ∧ (l.phase t).next .lockRead ≠ .writing ∧
      l.phase t ≠ .writing ∧
      ∀ n, ¬ ((l.phase t).next .lockRead = .counted n ∨ (l.phase t).next .lockRead = .discounted n) := by
    rcases permits with at_t | at_t <;> simp [at_t,Phase.next,Phase.holdsRead,Phase.isCounted,Phase.shares]
  obtain ⟨holds,counted,shares,reader,wasReader,unwritten⟩ := at_t
  have write := write_frame inv phase rfl wasReader reader (share_same shares)
  refine ⟨?_,?_,⟨R,?_,size⟩,write.1,write.2⟩
  · intro u
    by_cases same : u = t
    · subst same; simp [holds]
    · simp [same,quiet u,Ne.symm same]
  · intro u n
    by_cases same : u = t
    · subst same; simpa using fun written => absurd written (unwritten n)
    · simpa [same] using inv.written u n
  · intro u
    by_cases same : u = t
    · subst same; simpa [counted] using members u
    · simpa [same] using members u

theorem inv_setReaders {n : Int} (inv : l.Inv) (permits : (l.phase t).Permits l.num_of_readers (.setReaders n))
    (moved : l.move t (.setReaders n) = some l') : l'.Inv := by
  have phase := move_phase moved
  simp only [Lock.move,Option.some.injEq] at moved
  subst moved
  obtain ⟨R,members,size⟩ := inv.count
  have holds : (l.phase t).holdsRead = true := by
    rcases permits with ⟨at_t,_⟩ | ⟨at_t,_⟩ <;> simp [at_t,Phase.holdsRead]
  have holdsNext : ((l.phase t).next (.setReaders n)).holdsRead = true := by
    rcases permits with ⟨at_t,_⟩ | ⟨at_t,_⟩ <;> simp [at_t,Phase.next,Phase.holdsRead]
  have read : ∀ u, ((Function.update l.phase t ((l.phase t).next (.setReaders n))) u).holdsRead = true ↔
      l.lock_read = some u := by
    intro u
    by_cases same : u = t
    · subst same; simpa [holdsNext] using (inv.read u).mp holds
    · simpa [same] using inv.read u
  have written : ∀ u k, (Function.update l.phase t ((l.phase t).next (.setReaders n))) u = .counted k ∨
      (Function.update l.phase t ((l.phase t).next (.setReaders n))) u = .discounted k → n = k := by
    intro u k
    by_cases same : u = t
    · subst same
      rcases permits with ⟨at_t,_⟩ | ⟨at_t,_⟩ <;> simp [at_t,Phase.next]
    · have quiet := inv.holds_read_unique holds same
      rintro (at_u | at_u) <;> simp [same] at at_u <;> simp [at_u,Phase.holdsRead] at quiet
  rcases permits with ⟨at_t,is⟩ | ⟨at_t,is⟩
  · -- The thread counts itself; unless it is the first, others are already inside.
    have absent : t ∉ R := by simp [members,at_t,Phase.isCounted]
    have share : (∃ u, (Function.update l.phase t ((l.phase t).next (.setReaders n)) u).shares = true) ↔
        ∃ u, (l.phase u).shares = true := by
      by_cases first : n = 1
      · exact share_same (by simp [at_t,Phase.next,Phase.shares,first])
      · have : 0 < R.card := by omega
        obtain ⟨u,member⟩ := Finset.card_pos.mp this
        have other : u ≠ t := fun same => absent (same ▸ member)
        have reading := inv.others_reading holds other ((members u).mp member)
        exact ⟨fun _ => ⟨u,by simp [reading,Phase.shares]⟩,fun _ => ⟨u,by simp [other,reading,Phase.shares]⟩⟩
    have write := write_frame inv phase rfl (by simp [at_t]) (by simp [at_t,Phase.next]) share
    refine ⟨read,written,⟨insert t R,?_,?_⟩,write.1,write.2⟩
    · intro u
      by_cases same : u = t
      · subst same; simp [at_t,Phase.next,Phase.isCounted]
      · simpa [same] using members u
    · rw [Finset.card_insert_of_notMem absent]
      push_cast
      omega
  · have member : t ∈ R := by simp [members,at_t,Phase.isCounted]
    have write := write_frame inv phase rfl (by simp [at_t]) (by simp [at_t,Phase.next])
      (share_same (by simp [at_t,Phase.next,Phase.shares]))
    refine ⟨read,written,⟨R.erase t,?_,?_⟩,write.1,write.2⟩
    · intro u
      by_cases same : u = t
      · subst same; simp [at_t,Phase.next,Phase.isCounted]
      · simpa [same] using members u
    · have := Finset.card_erase_add_one member
      show n = ((R.erase t).card : Int)
      omega

theorem inv_unlockRead (inv : l.Inv) (permits : (l.phase t).Permits l.num_of_readers .unlockRead)
    (moved : l.move t .unlockRead = some l') : l'.Inv := by
  have phase := move_phase moved
  simp only [Lock.move,Option.some.injEq] at moved
  subst moved
  obtain ⟨R,members,size⟩ := inv.count
  have at_t : (l.phase t).holdsRead = true ∧ ((l.phase t).next .unlockRead).holdsRead = false ∧
      ((l.phase t).next .unlockRead).isCounted = (l.phase t).isCounted ∧ (l.phase t).next .unlockRead ≠ .writing ∧
      l.phase t ≠ .writing ∧
      ∀ n, ¬ ((l.phase t).next .unlockRead = .counted n ∨ (l.phase t).next .unlockRead = .discounted n) := by
    rcases permits with ⟨n,at_t,_⟩ | at_t | ⟨n,at_t,_⟩ | at_t <;>
      simp [at_t,Phase.next,Phase.holdsRead,Phase.isCounted]
  obtain ⟨holds,frees,counted,reader,wasReader,unwritten⟩ := at_t
  have share : (∃ u, (Function.update l.phase t ((l.phase t).next .unlockRead) u).shares = true) ↔
      ∃ u, (l.phase u).shares = true := by
    rcases permits with ⟨n,at_t,follower⟩ | at_t | ⟨n,at_t,stays⟩ | at_t
    · exact share_same (by simp [at_t,Phase.next,Phase.shares,follower])
    · exact share_same (by simp [at_t,Phase.next,Phase.shares])
    · -- A reader that leaves without freeing the write mutex leaves others inside.
      have absent : t ∉ R := by simp [members,at_t,Phase.isCounted]
      have := inv.written t n (.inr at_t)
      have : 0 < R.card := by omega
      obtain ⟨u,member⟩ := Finset.card_pos.mp this
      have other : u ≠ t := fun same => absent (same ▸ member)
      have reading := inv.others_reading holds other ((members u).mp member)
      exact ⟨fun _ => ⟨u,by simp [reading,Phase.shares]⟩,fun _ => ⟨u,by simp [other,reading,Phase.shares]⟩⟩
    · exact share_same (by simp [at_t,Phase.next,Phase.shares])
  have write := write_frame inv phase rfl wasReader reader share
  refine ⟨?_,?_,⟨R,?_,size⟩,write.1,write.2⟩
  · intro u
    by_cases same : u = t
    · subst same; simp [frees]
    · simpa [same] using inv.holds_read_unique holds same
  · intro u n
    by_cases same : u = t
    · subst same; simpa using fun written => absurd written (unwritten n)
    · simpa [same] using inv.written u n
  · intro u
    by_cases same : u = t
    · subst same; simpa [counted] using members u
    · simpa [same] using members u

/-- A move on the write mutex leaves the readers' side as it is when the thread
    stays with the same mutex and count. -/
private theorem read_frame {p : Phase} (inv : l.Inv) (holds : p.holdsRead = (l.phase t).holdsRead)
    (counted : p.isCounted = (l.phase t).isCounted) (unwritten : ∀ n, ¬ (p = .counted n ∨ p = .discounted n)) :
    (∀ u, (Function.update l.phase t p u).holdsRead = true ↔ l.lock_read = some u) ∧
      (∀ u n, Function.update l.phase t p u = .counted n ∨ Function.update l.phase t p u = .discounted n →
        l.num_of_readers = n) ∧
      ∃ R : Finset Tid, (∀ u, u ∈ R ↔ (Function.update l.phase t p u).isCounted = true) ∧ l.num_of_readers = R.card := by
  obtain ⟨R,members,size⟩ := inv.count
  refine ⟨?_,?_,R,?_,size⟩
  · intro u
    by_cases same : u = t
    · subst same; simpa [holds] using inv.read u
    · simpa [same] using inv.read u
  · intro u n
    by_cases same : u = t
    · subst same; simpa using fun written => absurd written (unwritten n)
    · simpa [same] using inv.written u n
  · intro u
    by_cases same : u = t
    · subst same; simpa [counted] using members u
    · simpa [same] using members u

theorem inv_lockWrite (inv : l.Inv) (permits : (l.phase t).Permits l.num_of_readers .lockWrite)
    (moved : l.move t .lockWrite = some l') : l'.Inv := by
  simp only [Lock.move,Option.ite_none_right_eq_some,Option.some.injEq] at moved
  obtain ⟨free,rfl⟩ := moved
  have nobody := inv.free_write free
  rcases permits with at_t | at_t | at_t
  · -- A writer enters: nobody is inside, and the others stay outside.
    obtain ⟨read,written,count⟩ := read_frame (t := t) (p := .writing) inv (by simp [at_t,Phase.holdsRead])
      (by simp [at_t,Phase.isCounted]) (by simp)
    have next : (l.phase t).next .lockWrite = .writing := by simp [at_t,Phase.next]
    simp only [next]
    refine ⟨read,written,count,?_,?_⟩
    · intro u
      by_cases same : u = t
      · subst same; simp
      · simp [same,(nobody u).1]
    · constructor
      · rintro ⟨u,shares⟩
        by_cases same : u = t
        · subst same; simp [Phase.shares] at shares
        · simp [same,(nobody u).2] at shares
      · rintro ⟨u,taken,reader⟩
        cases taken
        simp at reader
  · -- The first reader takes the write mutex for all of them.
    obtain ⟨read,written,count⟩ := read_frame (t := t) (p := .admitted) inv (by simp [at_t,Phase.holdsRead])
      (by simp [at_t,Phase.isCounted]) (by simp)
    have next : (l.phase t).next .lockWrite = .admitted := by simp [at_t,Phase.next]
    simp only [next]
    refine ⟨read,written,count,?_,?_⟩
    · intro u
      by_cases same : u = t
      · subst same; simp
      · simp [same,(nobody u).1]
    · exact ⟨fun _ => ⟨t,rfl,by simp⟩,fun _ => ⟨t,by simp [Phase.shares]⟩⟩
  · exact absurd at_t (nobody t).1

theorem inv_unlockWrite (inv : l.Inv) (permits : (l.phase t).Permits l.num_of_readers .unlockWrite)
    (moved : l.move t .unlockWrite = some l') : l'.Inv := by
  simp only [Lock.move,Option.some.injEq] at moved
  subst moved
  rcases permits with at_t | at_t
  · obtain ⟨read,written,count⟩ := read_frame (t := t) (p := .idle) inv (by simp [at_t,Phase.holdsRead])
      (by simp [at_t,Phase.isCounted]) (by simp)
    have next : (l.phase t).next .unlockWrite = .idle := by simp [at_t,Phase.next]
    simp only [next]
    refine ⟨read,written,count,?_,?_⟩
    · intro u
      by_cases same : u = t
      · subst same; simp
      · simpa [same] using fun writes => same (inv.exclusive at_t (by simp [writes,Phase.inside]))
    · constructor
      · rintro ⟨u,shares⟩
        by_cases same : u = t
        · subst same; simp [Phase.shares] at shares
        · exact (inv.alone at_t (by simpa [same] using shares)).elim
      · rintro ⟨u,taken,_⟩
        cases taken
  · -- The last reader: nobody is counted, so nobody else shares the write mutex.
    obtain ⟨read,written,count⟩ := read_frame (t := t) (p := .released) inv (by simp [at_t,Phase.holdsRead])
      (by simp [at_t,Phase.isCounted]) (by simp)
    have next : (l.phase t).next .unlockWrite = .released := by simp [at_t,Phase.next]
    simp only [next]
    obtain ⟨R,members,size⟩ := inv.count
    have none_left : ∀ u, (l.phase u).isCounted = false := by
      intro u
      by_contra counted
      have := Finset.card_pos.mpr ⟨u,(members u).mpr (by simpa using counted)⟩
      have := inv.written t 0 (.inr at_t)
      omega
    refine ⟨read,written,count,?_,?_⟩
    · intro u
      by_cases same : u = t
      · subst same; simp
      · intro writes
        exact (inv.alone (t := u) (u := t) (by simpa [same] using writes) (by simp [at_t,Phase.shares])).elim
    · constructor
      · rintro ⟨u,shares⟩
        by_cases same : u = t
        · subst same; simp [Phase.shares] at shares
        · have quiet := inv.holds_read_unique (t := t) (by simp [at_t,Phase.holdsRead]) same
          have uncounted := none_left u
          revert shares quiet uncounted
          cases at_u : l.phase u <;> simp [same,at_u,Phase.shares,Phase.holdsRead,Phase.isCounted]
      · rintro ⟨u,taken,_⟩
        cases taken

/-- The invariant is kept by every move that the lock's code makes. -/
theorem inv_move (inv : l.Inv) (permits : (l.phase t).Permits l.num_of_readers m)
    (moved : l.move t m = some l') : l'.Inv := by
  cases m with
  | lockRead => exact inv_lockRead inv permits moved
  | unlockRead => exact inv_unlockRead inv permits moved
  | lockWrite => exact inv_lockWrite inv permits moved
  | unlockWrite => exact inv_unlockWrite inv permits moved
  | setReaders n => exact inv_setReaders inv permits moved
theorem move_readers (moved : l.move t m = some l') (kept : ∀ n, m ≠ .setReaders n) :
    l'.num_of_readers = l.num_of_readers := by
  cases m <;> simp only [Lock.move,Option.ite_none_right_eq_some,Option.some.injEq] at moved
  case setReaders n => exact absurd rfl (kept n)
  case lockRead | lockWrite => obtain ⟨_,rfl⟩ := moved; rfl
  all_goals subst moved; rfl

/-- Only the thread that has the read mutex changes the counter. -/
theorem known_kept (inv : l.Inv) (permits : (l.phase t).Permits l.num_of_readers m)
    (moved : l.move t m = some l') (other : u ≠ t) (holds : (l.phase u).holdsRead = true) :
    l'.num_of_readers = l.num_of_readers := by
  refine move_readers moved ?_
  rintro n rfl
  have mine : (l.phase t).holdsRead = true := by
    rcases permits with ⟨at_t,_⟩ | ⟨at_t,_⟩ <;> simp [at_t,Phase.holdsRead]
  rw [inv.holds_read_unique mine other] at holds
  cases holds

end StructureOfOs.RwLock
