import StructureOfOs.BankReads

/-!
The operations on the mutexes and the reader counters. A thread that enters a lock
learns nothing by that, and one that leaves a lock forgets what it knew under it;
all unlogged writes are other threads', or under another lock.
-/
namespace StructureOfOs.BankMoves
open StructureOfOs.Programs StructureOfOs.Outlines StructureOfOs.RwLock StructureOfOs.BankState StructureOfOs.Bank
open StructureOfOs.AccountBook StructureOfOs.Views StructureOfOs.BankInvariant StructureOfOs.BankReads

variable {S : Setting} {s s' : Shared} {Γ : Ghost} {V : Tid → View} {t : Tid} {g : View} {l : RwId} {m : Move}

theorem move_inside (inside : (g.phase l).inside = true) (leaves : ((g.phase l).next m).inside = false) :
    g.move l m = (g.put l ((g.phase l).next m)).forget l := by
  simp [View.move,View.put,inside,leaves]
theorem move_outside (outside : (g.phase l).inside = false) : g.move l m = g.put l ((g.phase l).next m) := by
  simp [View.move,View.put,outside]
theorem forget_phase : (g.forget l).phase = g.phase := by cases l <;> rfl
theorem forget_known : (g.forget l).known = g.known := by cases l <;> rfl
theorem forget_transfer : (g.forget l).transfer = g.transfer := by cases l <;> rfl
theorem forget_logging : (g.forget l).logging = g.logging := by cases l <;> rfl
theorem move_frame : (g.move l m).phase = Function.update g.phase l ((g.phase l).next m) ∧
    (g.move l m).transfer = g.transfer ∧ (g.move l m).logging = g.logging ∧ (g.move l m).known = none := by
  unfold View.move
  simp only
  split
  · simp [forget_phase,forget_known,forget_transfer,forget_logging,View.put]
  · simp [View.put]

/-! ### What a thread knows after a move -/

private theorem enter_list {p : Phase} (sees : Sees S s Γ t g) (outside : ¬ g.Held) :
    Sees S s Γ t (g.put .account_list p) := by
  have unlooked : ∀ id, g.looked id = none := by
    intro id
    by_contra known
    obtain ⟨it,known⟩ := Option.ne_none_iff_exists'.mp known
    exact outside (sees.looked id it known).1
  refine { sees with looked := ?_, change := ?_, pass := ?_, cell := ?_, dirty := ?_, bank := ?_, bankDirty := ?_, shown := ?_ }
  · intro id it known
    rw [show (g.put .account_list p).looked = g.looked from rfl,unlooked id] at known
    cases known
  · exact .inl (sees.change.resolve_right fun writes => outside (held_of_writing writes.2.1))
  · intro done it known
    exact absurd (sees.pass done it known).1 outside
  · intro r c a known
    simpa [View.put] using sees.cell r c a known
  · intro r c a known dirty
    exact absurd (held_of_reading (sees.dirty r c a known dirty).2.1) outside
  · intro c a known
    rcases (sees.bank c a known).2.2 with ⟨_,reads⟩ | writes
    · exact absurd (held_of_reading reads) outside
    · exact absurd (held_of_writing writes) outside
  · intro c a known dirty
    exact absurd (held_of_reading (sees.bankDirty c a known dirty).1) outside
  · intro rows known
    exact absurd (held_of_writing (sees.shown rows known).2.1) outside

private theorem enter_account {p : Phase} {r : Ref} (sees : Sees S s Γ t g)
    (outside : (g.phase (.account r)).inside = false) : Sees S s Γ t (g.put (.account r) p) := by
  have list : (g.put (.account r) p).phase .account_list = g.phase .account_list := by simp [View.put]
  have others : ∀ q, (g.phase (.account q)).inside = true →
      (g.put (.account r) p).phase (.account q) = g.phase (.account q) := by
    intro q inside
    have other : q ≠ r := by rintro rfl; rw [outside] at inside; cases inside
    simp [View.put,other]
  refine { sees with looked := ?_, change := ?_, pass := ?_, cell := ?_, dirty := ?_, bank := ?_, bankDirty := ?_, shown := ?_ }
  · intro id it known
    rw [View.Held,list]
    exact sees.looked id it known
  · rw [list]; exact sees.change
  · intro done it known
    rw [View.Held,list]
    exact sees.pass done it known
  · intro q c a known
    have inside := (sees.cell q c a known).2.1
    rw [others q inside]
    exact sees.cell q c a known
  · intro q c a known dirty
    rw [others q (sees.cell q c a known).2.1,list]
    exact sees.dirty q c a known dirty
  · rw [list]; exact sees.bank
  · intro c a known dirty
    obtain ⟨reads,q,writes⟩ := sees.bankDirty c a known dirty
    rw [list]
    exact ⟨reads,q,by rw [others q (by simp [writes,Phase.inside]),writes]⟩
  · rw [list]; exact sees.shown

private theorem leave_list {p : Phase} (sees : Sees S s Γ t g) (settled : g.change = .none) :
    Sees S s Γ t ((g.put .account_list p).forget .account_list) where
  looked := by simp [View.forget]
  change := .inl settled
  unsettled := fun _ _ => rfl
  pass := by simp [View.forget]
  pw := by simp [View.forget]
  cell := by simp [View.forget]
  dirty := by simp [View.forget]
  bank := by simp [View.forget]
  bankDirty := by simp [View.forget]
  shown := by simp [View.forget]
  todo := sees.todo

private theorem leave_account {p : Phase} {r : Ref} (sees : Sees S s Γ t g)
    (clean : g.phase (.account r) = .writing → g.CleanBank) :
    Sees S s Γ t ((g.put (.account r) p).forget (.account r)) := by
  have list : ((g.put (.account r) p).forget (.account r)).phase .account_list = g.phase .account_list := by
    simp [View.put,View.forget]
  have others : ∀ q, q ≠ r → ((g.put (.account r) p).forget (.account r)).phase (.account q) = g.phase (.account q) := by
    intro q other
    simp [View.put,View.forget,other]
  have remembered : ∀ q x, ((g.put (.account r) p).forget (.account r)).cell q = some x →
      q ≠ r ∧ g.cell q = some x := by
    intro q x known
    by_cases same : q = r
    · subst same; simp [View.put,View.forget] at known
    · exact ⟨same,by simpa [View.put,View.forget,same] using known⟩
  refine { sees with looked := ?_, change := ?_, pass := ?_, cell := ?_, dirty := ?_, bank := ?_, bankDirty := ?_, shown := ?_ }
  · intro id it known
    rw [View.Held,list]
    exact sees.looked id it known
  · rw [list]; exact sees.change
  · intro done it known
    rw [View.Held,list]
    exact sees.pass done it known
  · intro q c a known
    obtain ⟨other,known⟩ := remembered q _ known
    rw [others q other]
    exact sees.cell q c a known
  · intro q c a known dirty
    obtain ⟨other,known⟩ := remembered q _ known
    rw [others q other,list]
    exact sees.dirty q c a known dirty
  · rw [list]; exact sees.bank
  · intro c a known dirty
    obtain ⟨reads,q,writes⟩ := sees.bankDirty c a known dirty
    have other : q ≠ r := by rintro rfl; exact dirty (clean writes c a known)
    rw [list]
    exact ⟨reads,q,by rw [others q other,writes]⟩
  · rw [list]; exact sees.shown

/-- What must be in order when a thread leaves a lock. -/
def MayLeave (g : View) : RwId → Prop
  | .account_list => g.Quiet ∧ g.change = .none
  | .account r => g.Clean r ∧ (g.phase (.account r) = .writing → g.CleanBank)

theorem move_sees (sees : Sees S s Γ t g)
    (leaves : (g.phase l).inside = true → ((g.phase l).next m).inside = false ∧ MayLeave g l) :
    Sees S s Γ t (g.move l m) ∧ Keeps g (g.move l m) ∧ (g.move l m).change = g.change := by
  cases inside : (g.phase l).inside with
  | false =>
    rw [move_outside inside]
    refine ⟨?_,.same rfl rfl,rfl⟩
    cases l with
    | account_list => exact enter_list sees (by simp [View.Held,inside])
    | account r => exact enter_account sees inside
  | true =>
    obtain ⟨outside,may⟩ := leaves inside
    rw [move_inside inside outside]
    cases l with
    | account_list =>
      obtain ⟨quiet,settled⟩ := may
      refine ⟨leave_list sees settled,⟨?_,?_⟩,rfl⟩
      · intro r c a known
        rw [cell_quiet sees quiet r] at known
        cases known
      · intro c a known dirty
        exact absurd (bank_quiet sees quiet c a known) dirty
    | account r =>
      refine ⟨leave_account sees may.2,⟨?_,fun _ _ known _ => known⟩,rfl⟩
      intro q c a known dirty
      have other : q ≠ r := by rintro rfl; exact dirty (may.1 c a known)
      simpa [View.forget,View.put,other] using known

/-! ### The moves of the reader/writer locks -/

theorem inv_move (inv : Inv S s V) (permits : ∀ n, (s.lock l).num_of_readers = n → ((V t).phase l).Permits n m)
    (leaves : ((V t).phase l).inside = true → (((V t).phase l).next m).inside = false ∧ MayLeave (V t) l)
    (ran : s.move t l m = some ((),s')) : Inv S s' (Function.update V t ((V t).move l m)) := by
  obtain ⟨Γ,G,L⟩ := inv
  obtain ⟨holds,sees⟩ := L t
  have places : (V t).phase = fun k => (s.lock k).phase t := funext holds.phase
  have permits := permits _ rfl
  rw [holds.phase] at permits
  obtain ⟨locks,mine,others⟩ := locks_move G.locks permits ran
  obtain ⟨phase,transfer,logging,known⟩ := move_frame (g := V t) (l := l) (m := m)
  obtain ⟨sees',keeps,settled⟩ := move_sees sees leaves
  obtain ⟨x,_,same⟩ := Option.map_eq_some_iff.mp ran
  cases same
  refine inv_update Γ { G.keeps keeps settled with locks := locks } ⟨⟨fun k => ?_,?_,?_,?_⟩,{ sees' with }⟩ fun u other => ?_
  · rw [phase,mine k,places]
  · rw [transfer]; exact holds.transfer
  · rw [logging]; exact holds.logging
  · simp [known]
  · refine ⟨⟨fun k => ?_,(L u).1.transfer,(L u).1.logging,fun k n knows => ?_⟩,{ (L u).2 with }⟩
    · rw [(others u other k).1,(L u).1.phase]
    · obtain ⟨theirs,counter⟩ := (L u).1.known k n knows
      refine ⟨theirs,?_⟩
      rw [(L u).1.phase] at theirs
      exact ((others u other k).2 theirs).trans counter

/-- A clean account, when nobody but a writer may have unlogged writes. -/
private theorem clean_reading {r : Ref} (sees : Sees S s Γ t g) (reads : g.phase (.account r) ≠ .writing) : g.Clean r := by
  intro c a known
  by_contra dirty
  exact reads (sees.dirty r c a known dirty).1

theorem move_lock_read (inv : Inv S s V) (ok : Ok S t (V t) (.lock (.lock_read l)))
    (ran : s.move t l .lockRead = some ((),s')) : Inv S s' (Function.update V t ((V t).move l .lockRead)) := by
  obtain ⟨Γ,G,L⟩ := inv
  have sees := (L t).2
  have at_l : (V t).phase l = .idle ∨ (V t).phase l = .reading := by cases l <;> exact ok.1
  refine inv_move ⟨Γ,G,L⟩ (fun _ _ => at_l) ?_ ran
  intro inside
  rcases at_l with idle | reads
  · rw [idle] at inside; cases inside
  · refine ⟨by rw [reads]; rfl,?_⟩
    cases l with
    | account_list =>
      refine ⟨ok.2.1,sees.change.resolve_right ?_⟩
      rintro ⟨_,writes,_⟩
      rw [writes] at reads; cases reads
    | account r =>
      have reader : (V t).phase (.account r) ≠ .writing := by rw [reads]; simp
      exact ⟨clean_reading sees reader,fun writes => absurd writes reader⟩

theorem move_unlock_read (inv : Inv S s V) (ok : Ok S t (V t) (.unlock (.lock_read l)))
    (ran : s.move t l .unlockRead = some ((),s')) : Inv S s' (Function.update V t ((V t).move l .unlockRead)) := by
  refine inv_move inv (fun n _ => ok) ?_ ran
  intro inside
  rcases ok with ⟨n,at_t,_⟩ | at_t | ⟨n,at_t,_⟩ | at_t <;> rw [at_t] at inside <;> cases inside

theorem move_lock_write (inv : Inv S s V) (ok : Ok S t (V t) (.lock (.lock_write l)))
    (ran : s.move t l .lockWrite = some ((),s')) : (V t).phase l ≠ .writing ∧
      Inv S s' (Function.update V t ((V t).move l .lockWrite)) := by
  obtain ⟨Γ,G,L⟩ := inv
  have entered : (V t).phase l ≠ .writing := by
    intro writes
    rw [(L t).1.phase] at writes
    obtain ⟨x,moved,_⟩ := Option.map_eq_some_iff.mp ran
    simp only [Lock.move,Option.ite_none_right_eq_some] at moved
    rw [(G.locks l).writer t writes] at moved
    cases moved.1
  have at_l : (V t).phase l = .idle ∨ (V t).phase l = .counted 1 := by
    cases l with
    | account_list => exact ok.1
    | account r =>
      rcases ok.1 with idle | counted | ⟨writes,_⟩
      · exact .inl idle
      · exact .inr counted
      · exact absurd writes entered
  refine ⟨entered,inv_move ⟨Γ,G,L⟩ (fun n _ => ?_) ?_ ran⟩
  · rcases at_l with idle | counted
    · exact .inl idle
    · exact .inr (.inl counted)
  · intro inside
    rcases at_l with at_t | at_t <;> rw [at_t] at inside <;> cases inside

theorem move_unlock_write (inv : Inv S s V) (ok : Ok S t (V t) (.unlock (.lock_write l)))
    (ran : s.move t l .unlockWrite = some ((),s')) : Inv S s' (Function.update V t ((V t).move l .unlockWrite)) := by
  have at_l : (V t).phase l = .writing ∧ MayLeave (V t) l ∨ (V t).phase l = .discounted 0 := by
    cases l with
    | account_list => exact ok.imp_left fun ⟨writes,quiet,settled⟩ => ⟨writes,quiet,settled⟩
    | account r => exact ok.imp_left fun ⟨writes,clean,bank⟩ => ⟨writes,clean,fun _ => bank⟩
  refine inv_move inv (fun n _ => ?_) ?_ ran
  · exact at_l.imp_left And.left
  · intro inside
    rcases at_l with ⟨writes,may⟩ | last
    · exact ⟨by rw [writes]; rfl,may⟩
    · rw [last] at inside; cases inside

theorem move_set_readers {n : Int} (inv : Inv S s V) (ok : Ok S t (V t) (.set_readers l n))
    (ran : s.move t l (.setReaders n) = some ((),s')) :
    Inv S s' (Function.update V t ((V t).move l (.setReaders n))) := by
  obtain ⟨v,known,permits⟩ := ok
  have counter : (s.lock l).num_of_readers = v := by
    obtain ⟨Γ,G,L⟩ := inv
    exact ((L t).1.known l v known).2
  refine inv_move inv (fun k same => ?_) ?_ ran
  · rw [← same,counter]; exact permits
  · intro inside
    rcases permits with ⟨at_t,_⟩ | ⟨at_t,_⟩ <;> rw [at_t] at inside <;> cases inside

/-! ### The other mutexes -/

/-- Taking or freeing the transfer mutex or the log's. -/
private theorem inv_mutex (inv : Inv S s V) (transfer logging : Option Tid) {mine : View}
    (view : mine = { V t with transfer := mine.transfer, logging := mine.logging })
    (transfers : ∀ u, (Function.update V t mine u).transfer = true ↔ transfer = some u)
    (logs : ∀ u, (Function.update V t mine u).logging = true ↔ logging = some u) :
    Inv S { s with transfer_lock := transfer, log_print_lock := logging } (Function.update V t mine) := by
  obtain ⟨Γ,G,L⟩ := inv
  obtain ⟨holds,sees⟩ := L t
  have keeps : Keeps (V t) mine := by rw [view]; exact .same rfl rfl
  have settled : mine.change = (V t).change := by rw [view]
  refine inv_update Γ { G.keeps keeps settled with } ⟨⟨?_,?_,?_,?_⟩,?_⟩ ?_
  · rw [view]; exact holds.phase
  · simpa using transfers t
  · simpa using logs t
  · rw [view]; exact holds.known
  · rw [view]; exact { sees with }
  · intro u other
    exact ⟨⟨(L u).1.phase,by simpa [other] using transfers u,by simpa [other] using logs u,(L u).1.known⟩,
      { (L u).2 with }⟩

theorem move_lock_transfer (inv : Inv S s V) (free : s.transfer_lock = none) :
    Inv S { s with transfer_lock := some t } (Function.update V t { V t with transfer := true }) := by
  obtain ⟨Γ,G,L⟩ := inv
  refine inv_mutex ⟨Γ,G,L⟩ _ s.log_print_lock rfl (fun u => ?_) fun u => ?_
  · by_cases same : u = t
    · subst same; simp
    · have := (L u).1.transfer
      simpa [same,Ne.symm same,free] using this
  · by_cases same : u = t
    · subst same; simpa using (L u).1.logging
    · simpa [same] using (L u).1.logging

theorem move_lock_log (inv : Inv S s V) (free : s.log_print_lock = none) :
    Inv S { s with log_print_lock := some t } (Function.update V t { V t with logging := true }) := by
  obtain ⟨Γ,G,L⟩ := inv
  refine inv_mutex ⟨Γ,G,L⟩ s.transfer_lock _ rfl (fun u => ?_) fun u => ?_
  · by_cases same : u = t
    · subst same; simpa using (L u).1.transfer
    · simpa [same] using (L u).1.transfer
  · by_cases same : u = t
    · subst same; simp
    · have := (L u).1.logging
      simpa [same,Ne.symm same,free] using this

theorem move_unlock_transfer (inv : Inv S s V) (ok : (V t).transfer = true) :
    Inv S { s with transfer_lock := none } (Function.update V t { V t with transfer := false }) := by
  obtain ⟨Γ,G,L⟩ := inv
  have mine := (L t).1.transfer.mp ok
  refine inv_mutex ⟨Γ,G,L⟩ _ s.log_print_lock rfl (fun u => ?_) fun u => ?_
  · by_cases same : u = t
    · subst same; simp
    · have := (L u).1.transfer
      simpa [same,Ne.symm same,mine] using this
  · by_cases same : u = t
    · subst same; simpa using (L u).1.logging
    · simpa [same] using (L u).1.logging

theorem move_unlock_log (inv : Inv S s V) (ok : (V t).logging = true) :
    Inv S { s with log_print_lock := none } (Function.update V t { V t with logging := false }) := by
  obtain ⟨Γ,G,L⟩ := inv
  have mine := (L t).1.logging.mp ok
  refine inv_mutex ⟨Γ,G,L⟩ s.transfer_lock _ rfl (fun u => ?_) fun u => ?_
  · by_cases same : u = t
    · subst same; simpa using (L u).1.transfer
    · simpa [same] using (L u).1.transfer
  · by_cases same : u = t
    · subst same; simp
    · have := (L u).1.logging
      simpa [same,Ne.symm same,mine] using this

end StructureOfOs.BankMoves
