import StructureOfOs.BankProgram
import StructureOfOs.ClosedAccounts

/-!
What `main` takes down, and when. Nothing is destroyed or deleted before every thread that
`main` has started has ended, and then only `main` moves, through lists and maps that no
longer change. A process that exits with 0 has performed all files and deleted everything
once; one that exits otherwise has stopped at a call that failed, with everything in place.
-/
namespace StructureOfOs.Teardown
open StructureOfOs.Programs StructureOfOs.Outlines StructureOfOs.BankState StructureOfOs.Atm StructureOfOs.Extensions
open StructureOfOs.Bank (bank)
open StructureOfOs.Finishing (Started)
open StructureOfOs.SerialHistory (Matches anyFiles settled_book)
open StructureOfOs.BankProgram
open StructureOfOs.Streams (Text)
open StructureOfOs.CommandLines (Fields performed)

/-- The maps of the accounts and of the closed accounts. -/
abbrev Maps := OrdMap Int Ref × OrdMap Int Ref
/-- The accounts in the order in which bank::free_accounts deletes them. -/
def Maps.accounts (maps : Maps) : List Ref := maps.1.entries.map (·.2) ++ maps.2.entries.map (·.2)

/-- What a thread knows: whether it has begun; and `main`, what it has done, whether it has cleared
    the flag, whether the fee collector has ended, and when all have, the maps. -/
structure Desk where
  born : Bool
  process : Process
  stopped : Bool
  fee : Bool
  closed : Option Maps

/-- The ids of the ATMs. -/
def ids (n : Nat) : List Nat := List.range' 1 n
/-- The mutexes of the bank in the order in which they are destroyed. -/
def bank_mutexes : List Mutex :=
  [.stdout_print_lock,.log_print_lock,.transfer_lock,.lock_read .account_list,.lock_write .account_list]
def account_mutexes (r : Ref) : List Mutex := [.lock_read (.account r),.lock_write (.account r)]

/-- All threads have been created. -/
def AllCreated (n : Nat) (o : Process) : Prop := ∀ t, t ≠ .main → Started n t → o.created t = true
/-- Nothing has been taken down. -/
structure Intact (o : Process) : Prop where
  log_open : o.log_open = true
  destroyed : o.destroyed = []
  freed_atms : o.freed_atms = []
  freed_accounts : o.freed_accounts = []
/-- Everything has been taken down, the accounts in this order. -/
structure Complete (n : Nat) (accounts : List Ref) (o : Process) : Prop where
  created : AllCreated n o
  log_open : o.log_open = false
  destroyed : o.destroyed = bank_mutexes ++ accounts.flatMap account_mutexes
  freed_atms : o.freed_atms = ids n
  freed_accounts : o.freed_accounts = accounts
  cerr : o.cerr = []
/-- The messages of `main`. -/
def messages : List String :=
  ["Bank error: illegal arguments","Bank error: pthread_create failed","Bank error: pthread_join failed"]
/-- How the process may exit. -/
def Outcome (n : Nat) (closed : Option Maps) (o : Process) (status : Int) : Prop :=
  (status = 0 ∧ ∃ maps, closed = some maps ∧ Complete n maps.accounts o) ∨
    (status = 1 ∧ closed = none ∧ ∃ message ∈ messages, o.cerr = [message])

/-- What `main` may do. -/
def Due (n : Nat) (g : Desk) : Extra → Prop
  | .started => False
  | .pthread_create t => g.closed = none ∧ t ≠ .main ∧ Started n t
  | .wait t => g.closed = none ∧ AllCreated n g.process ∧ g.stopped = true ∧ (t = .fee_collection ∨ t = .accounts_print ∧ g.fee = true)
  | .close => g.closed.isSome = true
  | .destroy m => g.closed.isSome = true ∧ m ∉ g.process.destroyed
  | .delete_atm id => g.closed.isSome = true ∧ id ∉ g.process.freed_atms
  | .free r => g.closed.isSome = true ∧ r ∉ g.process.freed_accounts
  | .exit status => Outcome n g.closed g.process status
  | _ => True
def Ok (n : Nat) : Tid → Desk → Act ⊕ Extra → Prop
  | .main, g, .inl a => g.closed = none ∧ AllCreated n g.process ∧ ((∃ t, a = .join t) ∨ a = .set_progress false)
  | .main, g, .inr x => Due n g x
  | _, g, .inl _ => g.born = true
  | _, _, .inr x => x = .started
def Next : Tid → Desk → (a : Act ⊕ Extra) → Sum.elim Res ResX a → Desk → Prop
  | .main, g, .inl (.set_progress _), _, g' => g' = { g with stopped := true }
  | _, g, .inl _, _, g' => g' = g
  | _, g, .inr .started, _, g' => g' = { g with born := true }
  | _, g, .inr (.wait .fee_collection), _, g' => g' = { g with fee := true }
  | _, g, .inr (.wait _), _, g' => ∃ maps : Maps, maps.accounts.Nodup ∧ g' = { g with closed := some maps }
  | _, g, .inr x, r, g' => ∃ s o, own .main x s g.process = some (r,o) ∧
    (∀ maps, g.closed = some maps → (s.map_of_accounts,s.map_of_deleted_accounts) = maps) ∧ g' = { g with process := o }

/-- All threads run, and nothing has been taken down. -/
structure Serving (n i : Nat) (g : Desk) : Prop where
  closed : g.closed = none
  created : ∀ j, 1 ≤ j → j ≤ i → g.process.created (.atm j) = true
  list_of_atms : g.process.list_of_atms = ids i
  intact : Intact g.process
  cerr : g.process.cerr = []
  within : i ≤ n
/-- All have ended, and these ATMs are left to be deleted. -/
structure Closing (n : Nat) (maps : Maps) (it : List Nat) (g : Desk) : Prop where
  closed : g.closed = some maps
  once : maps.accounts.Nodup
  created : AllCreated n g.process
  freed_atms : g.process.freed_atms ++ it = ids n
  log_open : g.process.log_open = true
  destroyed : g.process.destroyed = [.stdout_print_lock]
  freed_accounts : g.process.freed_accounts = []
  cerr : g.process.cerr = []
/-- These accounts have been deleted. -/
structure Freeing (n : Nat) (maps : Maps) (freed : List Ref) (g : Desk) : Prop where
  closed : g.closed = some maps
  once : maps.accounts.Nodup
  complete : Complete n freed g.process
def Loop (n : Nat) : Tid → Ctl → Desk → Prop
  | .main, .main, g => Serving n 0 g
  | .main, .create_atms i, g => Serving n i g
  | .main, .join_atms _, g => Serving n n g ∧ AllCreated n g.process
  | .main, .free_atms it, g => ∃ maps, Closing n maps it g
  | .main, .free_accounts it, g => ∃ maps passed rest, Freeing n maps (passed.map (·.2)) g ∧
    maps.1.entries = passed ++ rest ∧ it = rest.head?
  | .main, .free_deleted_accounts it, g => ∃ maps passed rest, Freeing n maps (maps.1.entries.map (·.2) ++ passed.map (·.2)) g ∧
    maps.2.entries = passed ++ rest ∧ it = rest.head?
  | .main, .ended, g => g.process.status ≠ none
  | .main, _, _ => False
  | _, .unborn, _ => True
  | _, _, g => g.born = true

/-- What `main` has done, as long as all have not ended and after that. -/
structure Upkeep (n : Nat) (closed : Option Maps) (o : Process) : Prop where
  range : ∀ t, o.created t = true → t ≠ .main ∧ Started n t
  intact : closed = none → Intact o
  destroyed : o.destroyed.Nodup
  freed_atms : o.freed_atms.Nodup
  freed_accounts : o.freed_accounts.Nodup
  status : ∀ status, o.status = some status → Outcome n closed o status
structure Inv (n : Nat) (s : Shared × Process) (V : Tid → Desk) : Prop where
  same : (V .main).process = s.2
  upkeep : Upkeep n (V .main).closed s.2
  born : ∀ t, t ≠ .main → (V t).born = true → s.2.created t = true
  stopped : (V .main).stopped = true → s.1.progress = false
  fee : (V .main).fee = true → s.1.exited .fee_collection = true
  closed : ∀ maps, (V .main).closed = some maps → (∀ t, t ≠ .main → Started n t → s.1.exited t = true) ∧
    (s.1.map_of_accounts,s.1.map_of_deleted_accounts) = maps

def teardown (n : Nat) : Outline Tid (Shared × Process) (Act ⊕ Extra) (Sum.elim Res ResX) Ctl Desk := ⟨Inv n,Ok n,Next,Loop n⟩

variable {n : Nat} {argv : Argv} {v : Nat → Fields} {results : Nat → Int} {rand : Nat → Nat} {c : Config} {t : Tid} {g : Desk}
  {s : Shared} {o : Process}

/-! ### What `main` may do keeps the invariant -/

theorem nodup_add {α : Type} {l : List α} {a : α} (once : l.Nodup) (new : a ∉ l) : (l ++ [a]).Nodup := by
  simpa [List.nodup_append] using ⟨once,fun b member same => new (same ▸ member)⟩
/-- Nothing is taken down. -/
theorem Upkeep.goes_on {closed : Option Maps} {o' : Process} (upkeep : Upkeep n closed o)
    (created : ∀ t, o'.created t = true → o.created t = true ∨ t ≠ .main ∧ Started n t)
    (status : ∀ status, o'.status = some status → Outcome n closed o' status)
    (log_open : o'.log_open = o.log_open) (destroyed : o'.destroyed = o.destroyed)
    (freed_atms : o'.freed_atms = o.freed_atms) (freed_accounts : o'.freed_accounts = o.freed_accounts) : Upkeep n closed o' where
  range t is := (created t is).elim (upkeep.range t) id
  intact none_ :=
    have intact := upkeep.intact none_
    ⟨log_open.trans intact.log_open,destroyed.trans intact.destroyed,freed_atms.trans intact.freed_atms,
      freed_accounts.trans intact.freed_accounts⟩
  destroyed := destroyed ▸ upkeep.destroyed
  freed_atms := freed_atms ▸ upkeep.freed_atms
  freed_accounts := freed_accounts ▸ upkeep.freed_accounts
  status := status
/-- Something is taken down, when all have ended. -/
theorem Upkeep.takes {closed : Option Maps} {o' : Process} (upkeep : Upkeep n closed o) (ended : closed.isSome = true)
    (created : o'.created = o.created) (running : o'.status = none) (destroyed : o'.destroyed.Nodup) (freed_atms : o'.freed_atms.Nodup)
    (freed_accounts : o'.freed_accounts.Nodup) : Upkeep n closed o' where
  range t is := upkeep.range t (created ▸ is)
  intact none_ := by subst none_; cases ended
  destroyed := destroyed
  freed_atms := freed_atms
  freed_accounts := freed_accounts
  status := by simp [running]

theorem upkeep_own {x : Extra} {r : ResX x} (upkeep : Upkeep n g.closed g.process) (running : g.process.status = none) (due : Due n g x)
    (ran : own .main x s g.process = some (r,o)) : Upkeep n g.closed o := by
  have undecided : ∀ {o' : Process}, o'.status = g.process.status → ∀ status, o'.status = some status → Outcome n g.closed o' status := by
    intro o' same status is
    rw [same,running] at is; cases is
  cases x with
  | started => exact due.elim
  | pthread_create t =>
    simp only [own] at ran
    split at ran <;> cases ran
    · refine upkeep.goes_on (fun u created => ?_) (undecided rfl) rfl rfl rfl rfl
      by_cases same : u = t
      · subst same; exact .inr due.2
      · exact .inl (by simpa [same,Process.next] using created)
    · exact upkeep.goes_on (fun _ => .inl) (undecided rfl) rfl rfl rfl rfl
  | wait t =>
    obtain ⟨_,same⟩ := Option.ite_none_right_eq_some.mp ran
    cases same
    exact upkeep
  | close =>
    cases ran
    exact upkeep.takes due rfl running upkeep.destroyed upkeep.freed_atms upkeep.freed_accounts
  | destroy m =>
    cases ran
    exact upkeep.takes due.1 rfl running (nodup_add upkeep.destroyed due.2) upkeep.freed_atms upkeep.freed_accounts
  | delete_atm id =>
    cases ran
    exact upkeep.takes due.1 rfl running upkeep.destroyed (nodup_add upkeep.freed_atms due.2) upkeep.freed_accounts
  | free r =>
    cases ran
    exact upkeep.takes due.1 rfl running upkeep.destroyed upkeep.freed_atms (nodup_add upkeep.freed_accounts due.2)
  | exit code =>
    cases ran
    refine upkeep.goes_on (fun _ => .inl) ?_ rfl rfl rfl rfl
    rintro _ ⟨⟩
    rcases due with ⟨rfl,maps,closed,complete⟩ | failed
    · exact .inl ⟨rfl,maps,closed,⟨complete.1,complete.2,complete.3,complete.4,complete.5,complete.6⟩⟩
    · exact .inr failed
  | _ => cases ran; exact upkeep.goes_on (fun _ => .inl) (undecided rfl) rfl rfl rfl rfl

variable {V : Tid → Desk} {s' : Shared} {c₀ d₀ : Bank.Config} {files : Nat → List Command}

/-- `main` has moved. -/
theorem Inv.main {o' : Process} (inv : Inv n (s,o) V) (same : g.process = o') (upkeep : Upkeep n g.closed o')
    (created : ∀ t, o.created t = true → o'.created t = true) (stopped : g.stopped = true → s'.progress = false)
    (fee : g.fee = true → s'.exited .fee_collection = true)
    (closed : ∀ maps, g.closed = some maps → (∀ t, t ≠ .main → Started n t → s'.exited t = true) ∧
      (s'.map_of_accounts,s'.map_of_deleted_accounts) = maps) : Inv n (s',o') (Function.update V .main g) where
  same := by simpa using same
  upkeep := by simpa using upkeep
  born t other is := created t (inv.born t other (by simpa [other] using is))
  stopped := by simpa using stopped
  fee := by simpa using fee
  closed := by simpa using closed
/-- Another thread has. -/
theorem Inv.other (inv : Inv n (s,o) V) (other : t ≠ .main) (born : g.born = true → o.created t = true)
    (stopped : s.progress = false → s'.progress = false) (exited : ∀ u, s.exited u = true → s'.exited u = true)
    (closed : ∀ maps, (V .main).closed = some maps → (s'.map_of_accounts,s'.map_of_deleted_accounts) = maps) :
    Inv n (s',o) (Function.update V t g) := by
  have main : Function.update V t g .main = V .main := Function.update_of_ne (Ne.symm other) ..
  refine ⟨by rw [main]; exact inv.same,by rw [main]; exact inv.upkeep,fun u differs is => ?_,?_,?_,?_⟩
  · by_cases same : u = t
    · subst same; exact born (by simpa using is)
    · exact inv.born u differs (by simpa [same] using is)
  · rw [main]
    exact fun is => stopped (inv.stopped is)
  · rw [main]
    exact fun is => exited _ (inv.fee is)
  · rw [main]
    exact fun maps is => ⟨fun u differs started => exited u ((inv.closed maps is).1 u differs started),closed maps is⟩

/-- With the fee collector ended and the flag cleared, all have ended when the printer has. -/
theorem all_ended (reachable : Bank.Reachable n files rand c₀) (inv : Inv n (c₀.shared,o) V) (stopped : (V .main).stopped = true)
    (fee : (V .main).fee = true) (printer : c₀.shared.exited .accounts_print = true) (other : t ≠ .main) (started : Started n t) :
    c₀.shared.exited t = true := by
  cases t with
  | main => exact absurd rfl other
  | accounts_print => exact printer
  | fee_collection => exact inv.fee fee
  | atm i =>
    obtain ⟨first,last⟩ := started i rfl
    exact Endings.stopped_after reachable (inv.stopped stopped) first last

/-- An ATM with an empty file only exits. -/
theorem empty_file {i : Nat} (reachable : Bank.Reachable n files rand c₀) (empty : files i = []) :
    (c₀.thread (.atm i)).prog = .ret (.parser_file []) ∨ (c₀.thread (.atm i)).prog = Bank.pthread_exit ∨
      (c₀.thread (.atm i)).prog = .ret .ended := by
  refine reachable.invariant (P := fun c => (c.thread (.atm i)).prog = .ret (.parser_file []) ∨
    (c.thread (.atm i)).prog = Bank.pthread_exit ∨ (c.thread (.atm i)).prog = .ret .ended) (.inl (by rw [← empty]; rfl)) ?_
  intro c t d shape stepped
  by_cases same : t = .atm i
  · subst same
    rcases step_cases stepped with ⟨point,p,left,started,rfl⟩ | ⟨a,next,r,s,left,ran,rfl⟩
    · rcases shape with is | is | is
      · rw [left] at is; cases is; cases started
        exact .inr (.inl (by simp [Bank.parser_file]))
      · rw [left] at is; cases is
      · rw [left] at is; cases is; cases started
    · rcases shape with is | is | is
      · rw [left] at is; cases is
      · rw [left] at is; cases is
        exact .inr (.inr (by simp only [Function.update_self]; rfl))
      · rw [left] at is; cases is
  · rwa [Debts.thread_other stepped (Ne.symm same)]

/-- A thread that has ended, or has nothing to do, holds and knows nothing. -/
theorem ended_home {W : Tid → Views.View} (reachable : Bank.Reachable n files rand c₀)
    (ended : c₀.shared.exited t = true ∨ ∃ i, t = .atm i ∧ files i = [])
    (follows : (BankOutline.outline (anyFiles files)).Follows t (c₀.thread t).prog (W t)
      (BankOutline.Loop (anyFiles files) t)) : W t = .home [] := by
  rcases ended with exited | ⟨i,rfl,empty⟩
  · obtain ⟨point,left,finished⟩ := (Endings.exited_iff reachable t).mp exited
    rw [left,follows_ret] at follows
    exact CircularWait.round_none follows finished
  · rcases empty_file reachable empty with is | is | is
    · rw [is,follows_ret] at follows
      exact follows.1
    · rw [is] at follows
      exact follows.2 () _ rfl
    · rw [is,follows_ret] at follows
      exact follows

/-- Then a thread of the bank that is not `main` holds and knows nothing. -/
theorem all_home (reachable : Bank.Reachable n files rand c₀)
    (empty : ∀ t, t ≠ .main → ¬ Started n t → ∃ i, t = .atm i ∧ files i = [])
    (ended : ∀ t, t ≠ .main → Started n t → c₀.shared.exited t = true) :
    ∃ Γ W, BankInvariant.Global (anyFiles files) c₀.shared Γ W ∧
      (∀ t, BankInvariant.Holds c₀.shared t (W t) ∧ BankInvariant.Sees (anyFiles files) c₀.shared Γ t (W t)) ∧
      ∀ t, t ≠ .main → W t = .home [] := by
  obtain ⟨W,⟨Γ,G,L⟩,follows⟩ := BankFollows.reachable_holds (S := anyFiles files) reachable
  refine ⟨Γ,W,G,L,fun t other => ended_home reachable ?_ (follows t)⟩
  by_cases started : Started n t
  · exact .inl (ended t other started)
  · exact .inr (empty t other started)

/-- When all threads but `main` have ended, no mutex but the screen's is taken, every account is in at
    most one of the maps, and once, and the log accounts for all balances and all files. -/
theorem bank_closed (reachable : Bank.Reachable n files rand c₀)
    (empty : ∀ t, t ≠ .main → ¬ Started n t → ∃ i, t = .atm i ∧ files i = [])
    (ended : ∀ t, t ≠ .main → Started n t → c₀.shared.exited t = true) :
    (∀ m, m ≠ .stdout_print_lock → c₀.shared.mutex m = none) ∧ (Bank.free_accounts c₀.shared).Nodup ∧
      ∃ hist B, AccountBook.Serial hist B c₀.shared.log ∧ Matches c₀.shared B ∧ ∀ i, AccountBook.commandsOf i hist = files i := by
  obtain ⟨Γ,W,G,L,home⟩ := all_home reachable empty ended
  have settled : Γ.change = .none := by
    by_contra underway
    obtain ⟨u,theirs⟩ := G.changed underway
    rcases (L u).2.change with none | ⟨⟨i,rfl⟩,_⟩
    · exact underway (theirs ▸ none)
    · rw [home (.atm i) (by simp)] at theirs
      exact underway theirs.symm
  have balances : ∀ r, (c₀.shared.account r).balance = Γ.accounted r := by
    intro r
    by_contra differs
    obtain ⟨u,b,a,theirs,dirty⟩ := G.dirty r differs
    obtain ⟨_,_,_,_,notMain⟩ := (L u).2.dirty r b a theirs dirty
    rw [home u notMain] at theirs; cases theirs
  have bank : c₀.shared.balance = Γ.book.bank := by
    by_contra differs
    obtain ⟨u,b,a,theirs,dirty⟩ := G.bankDirty differs
    by_cases main : u = .main
    · subst main
      obtain ⟨reads,_⟩ := (L .main).2.bankDirty b a theirs dirty
      rw [(L .main).1.phase] at reads
      exact Emptying.main_outside reachable (.inl ⟨_,by rw [reads]; simp⟩)
    · rw [home u main] at theirs; cases theirs
  refine ⟨fun m other => Emptying.free_of_calm G.locks (fun t inside => ?_) other,ClosedAccounts.free_nodup G settled,
    Γ.hist,Γ.book,G.serial,settled_book G settled balances bank,fun i => ?_⟩
  · by_cases same : t = .main
    · subst same; exact Emptying.main_outside reachable inside
    · exact Emptying.home_outside (L t).1 (home t same) inside
  · have all := (L (.atm i)).2.todo i rfl
    rw [home (.atm i) (by simp)] at all
    exact (List.append_nil _).symm.trans all

theorem files_empty (other : t ≠ .main) (outside : ¬ Started argv.length t) : ∃ i, t = .atm i ∧ BankProgram.files argv v i = [] := by
  cases t with
  | main => exact absurd rfl other
  | accounts_print | fee_collection => exact absurd (fun i is => by cases is) outside
  | atm i =>
    refine ⟨i,rfl,?_⟩
    cases i with
    | zero => rfl
    | succ i =>
      have beyond : argv.length ≤ i := by
        by_contra within
        exact outside fun j is => by cases is; omega
      have nothing : text argv (i + 1) = [] := by simp [text,List.getElem?_eq_none beyond]
      simp only [files,nothing]
      rfl

theorem own_sound (reachable : Bank.Reachable argv.length (BankProgram.files argv v) rand c₀) {x : Extra} {r : ResX x}
    {o' : Process} (running : o.status = none) (inv : Inv argv.length (c₀.shared,o) V)
    (ok : Ok argv.length t (V t) (.inr x)) (ran : own t x c₀.shared o = some (r,o')) :
    ∃ g, Next t (V t) (.inr x) r g ∧ Inv argv.length (c₀.shared,o') (Function.update V t g) := by
  by_cases main : t = .main
  · subst main
    have same : (V .main).process = o := inv.same
    subst same
    have upkeep := upkeep_own inv.upkeep running ok ran
    -- What is read of the maps is as known, and what is done is noted.
    have noted : (∀ maps, (V .main).closed = some maps → (c₀.shared.map_of_accounts,c₀.shared.map_of_deleted_accounts) = maps) :=
      fun maps is => (inv.closed maps is).2
    have other : (∀ u, (V .main).process.created u = true → o'.created u = true) →
        Inv argv.length (c₀.shared,o') (Function.update V .main { V .main with process := o' }) :=
      fun created => inv.main rfl upkeep created inv.stopped inv.fee inv.closed
    cases x with
    | started => exact ok.elim
    | wait u =>
      obtain ⟨exited,same⟩ := Option.ite_none_right_eq_some.mp ran
      cases same
      obtain ⟨_,_,stopped,which⟩ := ok
      rcases which with rfl | ⟨rfl,fee⟩
      · exact ⟨_,rfl,inv.main rfl inv.upkeep (fun _ => id) inv.stopped (fun _ => exited) inv.closed⟩
      · have ended : ∀ t, t ≠ .main → Started argv.length t → c₀.shared.exited t = true :=
          fun t other started => all_ended reachable inv stopped fee exited other started
        obtain ⟨_,once,_⟩ := bank_closed reachable (fun t => files_empty) ended
        refine ⟨{ V .main with closed := some (c₀.shared.map_of_accounts,c₀.shared.map_of_deleted_accounts) },⟨(_,_),once,rfl⟩,?_⟩
        refine inv.main rfl ?_ (fun _ => id) inv.stopped inv.fee ?_
        · have kept := inv.upkeep
          refine ⟨kept.range,by simp,kept.destroyed,kept.freed_atms,kept.freed_accounts,?_⟩
          simp [running]
        · rintro maps ⟨⟩
          exact ⟨ended,rfl⟩
    | pthread_create u =>
      refine ⟨_,⟨_,_,ran,noted,rfl⟩,other fun w created => ?_⟩
      simp only [own] at ran
      split at ran <;> cases ran
      · by_cases same : w = u
        · subst same; simp
        · simpa [same,Process.next] using created
      · exact created
    | _ => cases ran; exact ⟨_,⟨_,_,rfl,noted,rfl⟩,other fun _ => id⟩
  · have begins : x = .started := by
      cases t <;> first | exact absurd rfl main | exact ok
    subst begins
    obtain ⟨created,same⟩ := Option.ite_none_right_eq_some.mp ran
    cases same
    refine ⟨{ V t with born := true },?_,inv.other main (fun _ => created) id (fun _ => id) fun maps is => (inv.closed maps is).2⟩
    cases t <;> first | exact absurd rfl main | exact rfl

theorem low_sound (reachable : Bank.Reachable argv.length (BankProgram.files argv v) rand c₀) {a : Act} {r : Res a}
    (acts : (c₀.thread t).prog.action = some a) (inv : Inv argv.length (c₀.shared,o) V)
    (ok : Ok argv.length t (V t) (.inl a)) (ran : (bank argv.length).run t a c₀.shared = some (r,s)) :
    ∃ g, Next t (V t) (.inl a) r g ∧ Inv argv.length (s,o) (Function.update V t g) := by
  obtain ⟨next,left⟩ := Prog.action_eq_some.mp acts
  have ran' : run t a c₀.shared = some (r,s) := ran
  have stepped : (bank argv.length).step c₀ t = some ⟨s,Function.update c₀.thread t ⟨(c₀.thread t).point,next r⟩⟩ := by
    simp only [Machine.step,left,ran,Option.map_some]
  have exited : ∀ u, c₀.shared.exited u = true → s.exited u = true := by
    intro u exited
    by_cases same : u = t
    · subst same
      obtain ⟨point,is,_⟩ := (Endings.exited_iff reachable u).mp exited
      rw [left] at is; cases is
    · have still := Finishing.exited_same reachable ⟨[t],by simp [Machine.runs,stepped]⟩ (Debts.thread_other stepped same)
      exact still.trans exited
  by_cases main : t = .main
  · subst main
    obtain ⟨serving,_,which⟩ := ok
    have open_ : ∀ {P : Maps → Prop} maps, (V .main).closed = some maps → P maps := by
      intro P maps is
      rw [serving] at is; cases is
    rcases which with ⟨u,rfl⟩ | rfl
    · obtain ⟨_,same⟩ := Option.ite_none_right_eq_some.mp ran'
      cases same
      exact ⟨V .main,rfl,by rwa [Function.update_eq_self]⟩
    · cases ran'
      exact ⟨_,rfl,inv.main inv.same inv.upkeep (fun _ => id) (fun _ => rfl) inv.fee open_⟩
  · have born : (V t).born = true := by
      cases t <;> first | exact absurd rfl main | exact ok
    have created := inv.born t main born
    refine ⟨V t,?_,inv.other main (fun _ => created) ?_ exited fun maps is => ?_⟩
    · cases t <;> first | exact absurd rfl main | exact rfl
    · exact fun stopped => (Finishing.flag_kept reachable main stepped).trans stopped
    · -- Everybody has ended, and cannot have moved.
      obtain ⟨other,started⟩ := inv.upkeep.range t created
      obtain ⟨point,is,_⟩ := (Endings.exited_iff reachable t).mp ((inv.closed maps is).1 t other started)
      rw [left] at is; cases is

/-! ### The threads that `main` starts -/

theorem next_low {a : Act} {r : Res a} {g' : Desk} (other : t ≠ .main) (next : Next t g (.inl a) r g') : g' = g := by
  cases t <;> first | exact absurd rfl other | exact next
theorem ok_low {a : Act} (other : t ≠ .main) (born : g.born = true) : Ok n t g (.inl a) := by
  cases t <;> first | exact absurd rfl other | exact born
theorem follows_lift {α β : Type} {p : Prog Act Res α} {f : α → BankProgram.Code β} {Q : β → Desk → Prop}
    (other : t ≠ .main) (born : g.born = true) (rest : ∀ value, (teardown n).Follows t (f value) g Q) :
    (teardown n).Follows t (lift p >>= f) g Q := by
  induction p with
  | ret value => exact rest value
  | act a next ih =>
    refine ⟨ok_low other born,fun r g' next => ?_⟩
    rw [next_low other next]
    exact ih r
theorem loop_born {point : Ctl} (other : t ≠ .main) (born : g.born = true) : Loop n t point g := by
  cases t with
  | main => exact absurd rfl other
  | _ => cases point <;> first | exact trivial | exact born
theorem follows_bank_round {p : BankState.Code Bank.Ctl} (other : t ≠ .main) (born : g.born = true) :
    (teardown n).Follows t (bank_round p) g (Loop n t) :=
  follows_lift other born fun _ => loop_born other born
theorem follows_born {point : Ctl} (other : t ≠ .main) : (teardown n).Follows t (born point) g (Loop n t) := by
  refine ⟨?_,fun r g' next => ?_⟩
  · cases t <;> first | exact absurd rfl other | exact rfl
  · have begun : g' = { g with born := true } := by
      cases t <;> first | exact absurd rfl other | exact next
    exact loop_born other (by rw [begun])
theorem follows_parser_file {i : Nat} {w : Fields} {lines : List Text} (born : g.born = true) :
    (teardown n).Follows (.atm i) (parser_file i w lines) g (Loop n (.atm i)) := by
  have goes_on : ∀ {point}, Loop n (.atm i) point g := loop_born (by simp) born
  unfold parser_file
  split
  · exact follows_bank_round (by simp) born
  · exact goes_on
  · split
    · exact follows_lift (t := .atm i) (by simp) born fun _ => goes_on
    · exact goes_on

/-! ### `main` -/

theorem follows_extra {x : Extra} {α : Type} {f : ResX x → BankProgram.Code α} {Q : α → Desk → Prop} (due : Due n g x)
    (rest : ∀ r g', Next .main g (.inr x) r g' → (teardown n).Follows .main (f r) g' Q) :
    (teardown n).Follows .main (extra x >>= f) g Q := ⟨due,rest⟩
theorem follows_fail {message : String} (closed : g.closed = none) (cerr : g.process.cerr = []) (known : message ∈ messages) :
    (teardown n).Follows .main (fail message) g (Loop n .main) := by
  refine follows_extra trivial ?_
  rintro _ _ ⟨s,o,ran,_,rfl⟩
  cases ran
  refine follows_extra (.inr ⟨rfl,closed,message,known,by simp [cerr]⟩) ?_
  rintro _ _ ⟨s,o,ran,_,rfl⟩
  cases ran
  simp [Loop]

/-- A thread is started, or the call fails. -/
theorem follows_create {α : Type} {f : Int → BankProgram.Code α} {Q : α → Desk → Prop} (closed : g.closed = none) (other : t ≠ .main)
    (started : Started n t)
    (failed : ∀ result, result ≠ 0 → (teardown n).Follows .main (f result) { g with process := g.process.next } Q)
    (created : (teardown n).Follows .main (f 0)
      { g with process := { g.process.next with created := Function.update g.process.created t true } } Q) :
    (teardown n).Follows .main (extra (.pthread_create t) >>= f) g Q := by
  refine follows_extra ⟨closed,other,started⟩ ?_
  rintro (result : Int) _ ⟨s,o,ran,_,rfl⟩
  simp only [own] at ran
  split at ran <;> cases ran
  · exact created
  · exact failed _ ‹_›
/-- A thread is joined, or the call fails. -/
theorem follows_join {α : Type} {f : Int → BankProgram.Code α} {Q : α → Desk → Prop}
    (failed : ∀ result, result ≠ 0 → (teardown n).Follows .main (f result) { g with process := g.process.next } Q)
    (joined : (teardown n).Follows .main (wait t) { g with process := g.process.next } fun _ g' => (teardown n).Follows .main (f 0) g' Q) :
    (teardown n).Follows .main (pthread_join t >>= f) g Q := by
  refine follows_extra trivial ?_
  rintro (result : Int) _ ⟨s,o,ran,_,rfl⟩
  cases ran
  show (teardown n).Follows .main ((if g.process.results 0 = 0 then wait t >>= fun _ => .ret (g.process.results 0)
    else .ret (g.process.results 0)) >>= f) _ _
  by_cases success : g.process.results 0 = 0
  · rw [if_pos success,success]
    exact follows_then (follows_then joined)
  · rw [if_neg success]
    exact failed _ success

theorem ids_succ (i : Nat) : ids (i + 1) = ids i ++ [i + 1] := by
  rw [ids,List.range'_concat,Nat.one_mul,Nat.add_comm]
  rfl
theorem atm_started {i : Nat} (more : i < n) : Started n (.atm (i + 1)) := by
  rintro _ ⟨⟩
  omega
theorem collector_started (collector : t = .accounts_print ∨ t = .fee_collection) : Started n t := by
  rintro i rfl
  simp at collector

/-- Only the results of calls have been taken, and threads created. -/
theorem Serving.goes_on {i : Nat} {o : Process} (serving : Serving n i g)
    (same : ∃ results created, o = { g.process with results, created } ∧ ∀ t, g.process.created t = true → created t = true) :
    Serving n i { g with process := o } := by
  obtain ⟨results,created,rfl,more⟩ := same
  have intact := serving.intact
  exact ⟨serving.closed,fun j first last => more _ (serving.created j first last),serving.list_of_atms,
    ⟨intact.log_open,intact.destroyed,intact.freed_atms,intact.freed_accounts⟩,serving.cerr,serving.within⟩
theorem created_more (created : Tid → Bool) (u : Tid) : ∀ t, created t = true → Function.update created u true t = true := by
  intro t is
  by_cases same : t = u
  · subst same; simp
  · simpa [same] using is

theorem follows_create_atms {i : Nat} (serving : Serving n i g) : (teardown n).Follows .main (create_atms n i) g (Loop n .main) := by
  unfold create_atms
  split
  · rename_i more
    refine follows_create serving.closed (by simp) (atm_started more) (fun result failed => ?_) ?_
    · rw [if_pos failed]
      exact follows_fail serving.closed serving.cerr (by simp [messages])
    · rw [if_neg (by simp)]
      refine follows_extra trivial ?_
      rintro _ _ ⟨s,o,ran,_,rfl⟩
      cases ran
      have intact := serving.intact
      refine ⟨serving.closed,fun j first last => ?_,?_,
        ⟨intact.log_open,intact.destroyed,intact.freed_atms,intact.freed_accounts⟩,serving.cerr,more⟩
      · rcases Nat.of_le_succ last with before | rfl
        · exact created_more _ _ _ (serving.created j first before)
        · simp
      · exact (congrArg (· ++ [i + 1]) serving.list_of_atms).trans (ids_succ i).symm
  · rename_i all
    have all : i = n := le_antisymm serving.within (not_lt.mp all)
    subst all
    have created : Serving i i
        { g with process := { g.process.next with created := Function.update g.process.created .accounts_print true } } :=
      serving.goes_on ⟨_,_,rfl,created_more _ _⟩
    refine follows_create serving.closed (by simp) (collector_started (.inl rfl)) (fun result failed => ?_) ?_
    · rw [if_pos failed]
      exact follows_fail serving.closed serving.cerr (by simp [messages])
    · rw [if_neg (by simp)]
      refine follows_create serving.closed (by simp) (collector_started (.inr rfl)) (fun result failed => ?_) ?_
      · rw [if_pos failed]
        exact follows_fail serving.closed serving.cerr (by simp [messages])
      · rw [if_neg (by simp)]
        refine ⟨created.goes_on ⟨_,_,rfl,created_more _ _⟩,fun t other started => ?_⟩
        cases t with
        | main => exact absurd rfl other
        | accounts_print | fee_collection => simp
        | atm j =>
          obtain ⟨first,last⟩ := started j rfl
          simpa using serving.created j first last

theorem follows_join_atms {i : Nat} (serving : Serving n n g) (all : AllCreated n g.process) :
    (teardown n).Follows .main (join_atms n i) g (Loop n .main) := by
  have goes_on : ∀ {results : Nat → Int}, Serving n n { g with process := { g.process with results } } :=
    serving.goes_on ⟨_,_,rfl,fun _ => id⟩
  unfold join_atms
  split
  · refine follows_join (fun result failed => ?_) ⟨⟨serving.closed,all,.inl ⟨_,rfl⟩⟩,?_⟩
    · rw [if_pos failed]
      exact follows_fail serving.closed serving.cerr (by simp [messages])
    · rintro _ _ rfl
      exact ⟨goes_on,all⟩
  · refine ⟨⟨serving.closed,all,.inr rfl⟩,?_⟩
    rintro _ _ rfl
    refine follows_join (fun result failed => ?_) ⟨⟨serving.closed,all,rfl,.inl rfl⟩,?_⟩
    · rw [if_pos failed]
      exact follows_fail serving.closed serving.cerr (by simp [messages])
    rintro _ _ rfl
    refine follows_join (fun result failed => ?_) ⟨⟨serving.closed,all,rfl,.inr ⟨rfl,rfl⟩⟩,?_⟩
    · rw [if_pos failed]
      exact follows_fail serving.closed serving.cerr (by simp [messages])
    rintro _ _ ⟨maps,once,rfl⟩
    have intact := serving.intact
    refine follows_extra ⟨rfl,?_⟩ ?_
    · exact intact.destroyed ▸ List.not_mem_nil
    rintro _ _ ⟨s,o,ran,_,rfl⟩
    cases ran
    refine follows_extra trivial ?_
    rintro _ _ ⟨s',o',ran',_,rfl⟩
    cases ran'
    refine ⟨maps,rfl,once,all,?_,intact.log_open,?_,intact.freed_accounts,serving.cerr⟩
    · exact (congrArg (· ++ _) intact.freed_atms).trans serving.list_of_atms
    · exact congrArg (· ++ [_]) intact.destroyed

theorem follows_destroy {m : Mutex} {α : Type} {f : Unit → BankProgram.Code α} {Q : α → Desk → Prop} (ended : g.closed.isSome = true)
    (new : m ∉ g.process.destroyed)
    (rest : (teardown n).Follows .main (f ()) { g with process := { g.process with destroyed := g.process.destroyed ++ [m] } } Q) :
    (teardown n).Follows .main (extra (.destroy m) >>= f) g Q := by
  refine follows_extra ⟨ended,new⟩ ?_
  rintro _ _ ⟨s,o,ran,_,rfl⟩
  cases ran
  exact rest
theorem follows_free_atms {maps : Maps} {it : List Nat} (closing : Closing n maps it g) :
    (teardown n).Follows .main (free_atms it) g (Loop n .main) := by
  have ended : g.closed.isSome = true := by rw [closing.closed]; rfl
  cases it with
  | cons id it =>
    have once : (g.process.freed_atms ++ id :: it).Nodup := closing.freed_atms ▸ List.nodup_range'
    refine follows_extra ⟨ended,fun member => ?_⟩ ?_
    · exact (List.nodup_append.mp once).2.2 id member id List.mem_cons_self rfl
    rintro _ _ ⟨s,o,ran,_,rfl⟩
    cases ran
    refine ⟨maps,closing.closed,closing.once,closing.created,?_,closing.log_open,closing.destroyed,closing.freed_accounts,closing.cerr⟩
    simpa using closing.freed_atms
  | nil =>
    refine follows_extra ended ?_
    rintro _ _ ⟨s,o,ran,_,rfl⟩
    cases ran
    refine follows_destroy ended (by simp [closing.destroyed]) (follows_destroy ended (by simp [closing.destroyed]) ?_)
    refine follows_destroy ended (by simp [closing.destroyed]) (follows_destroy ended (by simp [closing.destroyed]) ?_)
    refine follows_extra trivial ?_
    rintro _ _ ⟨s,o,ran,known,rfl⟩
    cases ran
    refine ⟨maps,[],maps.1.entries,⟨closing.closed,closing.once,⟨closing.created,rfl,?_,?_,closing.freed_accounts,closing.cerr⟩⟩,rfl,?_⟩
    · simp [closing.destroyed,bank_mutexes]
    · simpa using closing.freed_atms
    · rw [← known maps closing.closed]
      rfl

theorem follows_delete_account {maps : Maps} {freed : List Ref} {r : Ref} (freeing : Freeing n maps freed g)
    (new : r ∉ freed) : (teardown n).Follows .main (delete_account r) g fun _ => Freeing n maps (freed ++ [r]) := by
  have ended : g.closed.isSome = true := by rw [freeing.closed]; rfl
  have complete := freeing.complete
  refine follows_destroy ended ?_ (follows_destroy ended ?_ ?_)
  · rw [complete.destroyed]
    simpa [bank_mutexes,account_mutexes] using new
  · show _ ∉ g.process.destroyed ++ _
    rw [complete.destroyed]
    simpa [bank_mutexes,account_mutexes] using new
  · refine ⟨⟨ended,?_⟩,?_⟩
    · show r ∉ g.process.freed_accounts
      rw [complete.freed_accounts]
      exact new
    rintro _ _ ⟨s,o,ran,_,rfl⟩
    cases ran
    refine ⟨freeing.closed,freeing.once,complete.created,complete.log_open,?_,complete.freed_atms,?_,complete.cerr⟩
    · simp [complete.destroyed,account_mutexes]
    · exact congrArg (· ++ [r]) complete.freed_accounts

theorem follows_free_accounts {maps : Maps} {passed rest : List (Int × Ref)} (freeing : Freeing n maps (passed.map (·.2)) g)
    (split_ : maps.1.entries = passed ++ rest) : (teardown n).Follows .main (free_accounts rest.head?) g (Loop n .main) := by
  cases rest with
  | nil =>
    refine follows_extra trivial ?_
    rintro _ _ ⟨s,o,ran,known,rfl⟩
    cases ran
    refine ⟨maps,[],maps.2.entries,⟨freeing.closed,freeing.once,?_⟩,rfl,?_⟩
    · simpa [split_] using freeing.complete
    · rw [← known maps freeing.closed]
      rfl
  | cons e rest =>
    obtain ⟨key,r⟩ := e
    refine follows_extra trivial ?_
    rintro _ _ ⟨s,o,ran,known,rfl⟩
    cases ran
    have new : r ∉ passed.map (·.2) := by
      have once := freeing.once
      rw [Maps.accounts,split_] at once
      simp only [List.map_append,List.map_cons,List.append_assoc] at once
      exact fun member => (List.nodup_append.mp once).2.2 r member r List.mem_cons_self rfl
    refine follows_seq (follows_delete_account ⟨freeing.closed,freeing.once,freeing.complete⟩ new) ?_
    intro _ g' freed
    refine ⟨maps,passed ++ [(key,r)],rest,by simpa using freed,by simp [split_],?_⟩
    rw [← OrdMap.after_split split_,← known maps freeing.closed]
theorem follows_free_deleted_accounts {maps : Maps} {passed rest : List (Int × Ref)}
    (freeing : Freeing n maps (maps.1.entries.map (·.2) ++ passed.map (·.2)) g) (split_ : maps.2.entries = passed ++ rest) :
    (teardown n).Follows .main (free_deleted_accounts rest.head?) g (Loop n .main) := by
  cases rest with
  | nil =>
    refine follows_extra (.inl ⟨rfl,maps,freeing.closed,?_⟩) ?_
    · simpa [Maps.accounts,split_] using freeing.complete
    rintro _ _ ⟨s,o,ran,_,rfl⟩
    cases ran
    simp [Loop]
  | cons e rest =>
    obtain ⟨key,r⟩ := e
    refine follows_extra trivial ?_
    rintro _ _ ⟨s,o,ran,known,rfl⟩
    cases ran
    have new : r ∉ maps.1.entries.map (·.2) ++ passed.map (·.2) := by
      have once := freeing.once
      rw [Maps.accounts,split_] at once
      simp only [List.map_append,List.map_cons,← List.append_assoc] at once
      exact fun member => (List.nodup_append.mp once).2.2 r member r List.mem_cons_self rfl
    refine follows_seq (follows_delete_account ⟨freeing.closed,freeing.once,freeing.complete⟩ new) ?_
    intro _ g' freed
    refine ⟨maps,passed ++ [(key,r)],rest,by simpa using freed,by simp [split_],?_⟩
    rw [← OrdMap.after_split split_,← known maps freeing.closed]

theorem teardown_round {point : Ctl} {p : BankProgram.Code Ctl} (looped : Loop argv.length t point g)
    (started : rounds argv v t point = some p) : (teardown argv.length).Follows t p g (Loop argv.length t) := by
  cases t with
  | main =>
    cases point <;> simp only [rounds,reduceCtorEq,Option.some.injEq] at started <;> subst started
    case main =>
      have serving : Serving argv.length 0 g := looped
      unfold BankProgram.main
      split
      · exact follows_fail serving.closed serving.cerr (by simp [messages])
      · split
        · exact follows_fail serving.closed serving.cerr (by simp [messages])
        · exact serving
    case create_atms i => exact follows_create_atms looped
    case join_atms i => exact follows_join_atms looped.1 looped.2
    case free_atms it =>
      obtain ⟨maps,closing⟩ := looped
      exact follows_free_atms closing
    case free_accounts it =>
      obtain ⟨maps,passed,rest,freeing,split_,rfl⟩ := looped
      exact follows_free_accounts freeing split_
    case free_deleted_accounts it =>
      obtain ⟨maps,passed,rest,freeing,split_,rfl⟩ := looped
      exact follows_free_deleted_accounts freeing split_
  | atm i =>
    cases point <;> simp only [rounds,reduceCtorEq,Option.some.injEq] at started <;> subst started
    case unborn => exact follows_born (by simp)
    case parser_file w lines => exact follows_parser_file looped
  | accounts_print | fee_collection =>
    cases point <;> simp only [rounds,reduceCtorEq,Option.some.injEq,Option.map_eq_some_iff] at started
    case unborn => subst started; exact follows_born (by simp)
    case loop point =>
      obtain ⟨q,_,rfl⟩ := started
      exact follows_bank_round (by simp) looped

theorem teardown_sound : Sound (bank argv.length) (process argv v) (teardown argv.length)
    (Bank.initial (BankProgram.files argv v) rand) where
  low := fun reached acts _ inv ok ran => low_sound reached acts inv ok ran
  own := fun reached alive inv ok ran => own_sound reached (Option.isNone_iff_eq_none.mp alive) inv ok ran
  round := teardown_round

/-- The invariant, beside a state of the bank. -/
theorem teardown_holds (reachable : Reachable argv v results rand c) : ∃ d, Bank.Reachable argv.length (BankProgram.files argv v) rand d ∧
    Sim May (Beside argv v) c d ∧ (teardown argv.length).Holds c := by
  refine holds_above rounds_beside teardown_sound sim_initial ⟨fun _ => ⟨false,.initial results,false,false,none⟩,?_,fun t => ?_⟩ reachable
  · refine ⟨rfl,⟨?_,fun _ => ⟨rfl,rfl,rfl,rfl⟩,?_,?_,?_,?_⟩,?_,?_,?_,?_⟩ <;> simp [initial,Process.initial]
  · cases t with
    | main => exact ⟨rfl,fun j first last => by omega,rfl,⟨rfl,rfl,rfl,rfl⟩,rfl,Nat.zero_le _⟩
    | _ => exact trivial

/-! ### Every run -/

/-- All threads but `main` have ended, nobody performs an operation of the bank any more, and no mutex
    but the screen's is taken. -/
structure Deserted (n : Nat) (c : Config) : Prop where
  ended : ∀ t, t ≠ .main → Started n t → c.shared.1.exited t = true
  unused : ∀ t a, (c.thread t).prog.action ≠ some (.inl a)
  free : ∀ m, m ≠ .stdout_print_lock → c.shared.1.mutex m = none

theorem deserted (reachable : Reachable argv v results rand c) (holds : (teardown argv.length).Holds c) (taken : ¬ Intact c.shared.2) :
    Deserted argv.length c := by
  obtain ⟨d,reachable₀,sim,_⟩ := teardown_holds reachable
  obtain ⟨V,inv,follows⟩ := holds
  obtain ⟨maps,closed⟩ : ∃ maps, (V .main).closed = some maps := by
    cases is : (V .main).closed with
    | none => exact absurd (inv.upkeep.intact is) taken
    | some maps => exact ⟨maps,rfl⟩
  obtain ⟨ended,_⟩ := inv.closed maps closed
  refine ⟨ended,fun t a acts => ?_,?_⟩
  · obtain ⟨next,left⟩ := Prog.action_eq_some.mp acts
    have ok := follows_permits (follows t) acts
    by_cases main : t = .main
    · subst main
      have serving := ok.1
      rw [closed] at serving; cases serving
    · have born : (V t).born = true := by
        cases t <;> first | exact absurd rfl main | exact ok
      obtain ⟨other,started⟩ := inv.upkeep.range t (inv.born t main born)
      have exited := ended t other started
      rw [sim.shared] at exited
      obtain ⟨point,is,_⟩ := (Endings.exited_iff reachable₀ t).mp exited
      have behind := sim.thread t
      rw [left,is] at behind
      obtain ⟨below,same,_⟩ := behind
      cases same
  · rw [sim.shared] at ended ⊢
    exact (bank_closed reachable₀ (fun t => files_empty) ended).1

/-- Whatever fails: before anything of the bank is destroyed or deleted all threads have ended and its
    mutexes are free, nobody uses it after that, and nothing is destroyed or deleted twice. -/
theorem nothing_in_use (reachable : Reachable argv v results rand c) : (¬ Intact c.shared.2 → Deserted argv.length c) ∧
    c.shared.2.destroyed.Nodup ∧ c.shared.2.freed_atms.Nodup ∧ c.shared.2.freed_accounts.Nodup := by
  obtain ⟨_,_,_,holds⟩ := teardown_holds reachable
  refine ⟨deserted reachable holds,?_⟩
  obtain ⟨V,inv,_⟩ := holds
  exact ⟨inv.upkeep.destroyed,inv.upkeep.freed_atms,inv.upkeep.freed_accounts⟩

/-- `main` has deleted the ATM. -/
theorem day_closes : (day 50).isSome = true := by decide
theorem nothing_in_use_day : (¬ Intact ((day 50).get day_closes).shared.2 → Deserted 1 ((day 50).get day_closes)) ∧
    ((day 50).get day_closes).shared.2.destroyed.Nodup ∧ ((day 50).get day_closes).shared.2.freed_atms.Nodup ∧
      ((day 50).get day_closes).shared.2.freed_accounts.Nodup :=
  nothing_in_use (reachable_get day_closes)

/-- The process has returned from `main`: everything that was allocated is deleted, the accounts in the
    order of their maps, and they had the balances that the operations of all files lead to. -/
structure Returned (n : Nat) (files : Nat → List Command) (c : Config) : Prop where
  complete : Complete n (Bank.free_accounts c.shared.1) c.shared.2
  deserted : Deserted n c
  performed : ∃ hist B, AccountBook.Serial hist B c.shared.1.log ∧ Matches c.shared.1 B ∧ ∀ i, AccountBook.commandsOf i hist = files i
/-- It has stopped at something that failed, with a message and everything in place. -/
structure Failed (o : Process) : Prop where
  intact : Intact o
  cerr : ∃ message ∈ messages, o.cerr = [message]

/-- The process exits with 0 when it has returned, and else with 1. -/
theorem exit_status {status : Int} (reachable : Reachable argv v results rand c) (exits : c.shared.2.status = some status) :
    status = 0 ∧ Returned argv.length (BankProgram.files argv v) c ∨ status = 1 ∧ Failed c.shared.2 := by
  obtain ⟨d,reachable₀,sim,holds⟩ := teardown_holds reachable
  obtain ⟨V,inv,follows⟩ := id holds
  rcases inv.upkeep.status status exits with ⟨rfl,maps,closed,complete⟩ | ⟨rfl,closed,failed⟩
  · obtain ⟨ended,same⟩ := inv.closed maps closed
    have taken : ¬ Intact c.shared.2 := by
      intro intact
      have open_ := intact.log_open
      rw [complete.log_open] at open_; cases open_
    refine .inl ⟨rfl,?_,deserted reachable holds taken,?_⟩
    · rw [← same] at complete
      exact complete
    · rw [sim.shared] at ended ⊢
      exact (bank_closed reachable₀ (fun t => files_empty) ended).2.2
  · exact .inr ⟨rfl,inv.upkeep.intact closed,failed⟩

theorem day_ends : (day 64).isSome = true := by decide
theorem exit_status_day : (0 : Int) = 0 ∧ Returned 1 (BankProgram.files one_file fun _ => ⟨0,0,[],0,0⟩) ((day 64).get day_ends) ∨
    (0 : Int) = 1 ∧ Failed ((day 64).get day_ends).shared.2 :=
  exit_status (reachable_get day_ends) (by decide)

end StructureOfOs.Teardown
