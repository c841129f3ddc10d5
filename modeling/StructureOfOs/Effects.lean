import StructureOfOs.Endings

/-!
What a command that runs by itself does to the accounts. A balance is stored as the
code's type allows, so the effect is told for any way to store a sum: an account that
the command changes is looked up, is not deleted, and has the password supplied,
except for the target of a transfer, whose password is never read (`performed`).
-/
namespace StructureOfOs.Effects
open StructureOfOs.Programs StructureOfOs.Outlines StructureOfOs.BankState StructureOfOs.Accounts StructureOfOs.Atm
open StructureOfOs.Debts StructureOfOs.Endings

/-- The operations where a balance is what `store` makes of the sum. -/
def run_storing (store : Int → Int) (t : Tid) : (a : Act) → Shared → Option (Res a × Shared)
  | .set_balance r balance, s => run t (.set_balance r (store balance)) s
  | .set_bank_balance balance, s => run t (.set_bank_balance (store balance)) s
  | a, s => run t a s

/-- An amount is added to the balance of an account. -/
def credited (store : Int → Int) (opened : Int → Option (String × Int)) (id amount : Int) : Int → Option (String × Int) :=
  Function.update opened id ((opened id).map fun e => (e.1,store (e.2 + amount)))
/-- The open accounts, with their passwords and balances, after a command. -/
def performed (store : Int → Int) (opened : Int → Option (String × Int)) : Command → Int → Option (String × Int)
  | .create_account id pw balance => if opened id = none then Function.update opened id (some (pw,balance)) else opened
  | .deposit_to_account id pw amount =>
    match opened id with
    | some (own,_) => if own = pw then credited store opened id amount else opened
    | none => opened
  | .withdrawl_from_account id pw amount =>
    match opened id with
    | some (own,balance) => if own = pw ∧ amount ≤ balance then credited store opened id (-amount) else opened
    | none => opened
  | .balance_check _ _ => opened
  | .closing_account id pw =>
    match opened id with
    | some (own,_) => if own = pw then Function.update opened id none else opened
    | none => opened
  | .transfer_between_accounts src pw dest amount =>
    match opened src, opened dest with
    | some (own,balance), some _ =>
      if own = pw ∧ amount ≤ balance then credited store (credited store opened src (-amount)) dest amount else opened
    | _, _ => opened

/-! ### The accounts in memory -/

/-- Which account is found under an id, and the accounts. -/
structure Data where
  found : Int → Option Ref
  account : Ref → Account
  allocated : Ref
def data (s : Shared) : Data := ⟨s.map_of_accounts.find,s.account,s.allocated⟩

namespace Data
def opened (g : Data) (id : Int) : Option (String × Int) :=
  (g.found id).map fun r => ((g.account r).password,(g.account r).balance)
/-- What is found under an id is an account with this id that is not deleted. -/
structure Tidy (g : Data) : Prop where
  allocated : ∀ id r, g.found id = some r → r < g.allocated
  id : ∀ id r, g.found id = some r → (g.account r).id = id
  present : ∀ id r, g.found id = some r → (g.account r).deleted = false
def set (g : Data) (r : Ref) (account : Account) : Data := { g with account := Function.update g.account r account }
def allocate (g : Data) (account : Account) : Data := { g.set g.allocated account with allocated := g.allocated + 1 }
def insert (g : Data) (id : Int) (r : Ref) : Data :=
  { g with found := fun key => if key = id then some ((g.found key).getD r) else g.found key }
def erase (g : Data) (id : Int) : Data := { g with found := fun key => if key = id then none else g.found key }
end Data

/-- What the operations do to the data. -/
def Next (store : Int → Int) (g : Data) : (a : Act) → Res a → Data → Prop
  | .find id, it, g' => it = g.found id ∧ g' = g
  | .password r, own, g' => own = (g.account r).password ∧ g' = g
  | .deleted r, flag, g' => flag = (g.account r).deleted ∧ g' = g
  | .balance r, balance, g' => balance = (g.account r).balance ∧ g' = g
  | .set_balance r balance, _, g' => g' = g.set r { g.account r with balance := store balance }
  | .set_deleted r, _, g' => g' = g.set r { g.account r with deleted := true }
  | .new_account id balance password, r, g' =>
    r = g.allocated ∧ g' = g.allocate ⟨id,balance,password,false⟩
  | .insert id r, _, g' => g' = g.insert id r
  | .erase id, _, g' => g' = g.erase id
  | _, _, g' => g' = g
def effects (store : Int → Int) : Outline Tid Shared Act Res Unit Data where
  Inv s V := ∀ t, V t = data s
  Ok _ _ _ := True
  Next _ := Next store
  Loop _ _ _ := True

variable {store : Int → Int} {t : Tid} {this k : Nat} {s s' : Shared} {g g' : Data} {r : Ref} {id amount : Int} {pw : String}
  {α β : Type}

theorem data_move {l : RwId} {m : RwLock.Move} (moved : s.move t l m = some ((),s')) : data s' = data s := by
  obtain ⟨_,_,same⟩ := Option.map_eq_some_iff.mp moved
  cases same
  rfl
theorem run_next {a : Act} {x : Res a} (ran : run_storing store t a s = some (x,s')) : Next store (data s) a x (data s') := by
  cases a with
  | insert id r => cases ran; exact congrArg (Data.mk · _ _) (funext fun key => by rw [OrdMap.find_insert]; split <;> simp [*,data])
  | erase id => cases ran; exact congrArg (Data.mk · _ _) (funext fun key => OrdMap.find_erase)
  | set_readers l n => exact data_move (m := .setReaders n) ran
  | lock m =>
    cases m with
    | lock_read l | lock_write l => exact data_move ran
    | _ =>
      simp only [run_storing,run,Option.ite_none_right_eq_some] at ran
      obtain ⟨_,same⟩ := ran
      cases same
      rfl
  | unlock m =>
    cases m with
    | lock_read l => exact data_move (m := .unlockRead) ran
    | lock_write l => exact data_move (m := .unlockWrite) ran
    | _ => cases ran; rfl
  | join u =>
    simp only [run_storing,run,Option.ite_none_right_eq_some] at ran
    obtain ⟨_,same⟩ := ran
    cases same
    rfl
  | find _ | password _ | deleted _ | balance _ | new_account _ _ _ => cases ran; exact ⟨rfl,rfl⟩
  | _ => cases ran; rfl

/-- A command that follows the outline ends as it says, when it runs by itself to its end. -/
theorem exec_data {p : Code α} {Q : α → Data → Prop} {value : α} (follows : (effects store).Follows t p (data s) Q)
    (ran : p.exec (run_storing store t) s = some (value,s')) : Q value (data s') := by
  have act : ∀ {s g a x s'}, data s = g → (effects store).Ok t g a → run_storing store t a s = some (x,s') →
      ∃ g', (effects store).Next t g a x g' ∧ data s' = g' := fun here _ ran => ⟨_,here ▸ run_next ran,rfl⟩
  obtain ⟨_,post,rfl⟩ := follows_ran @act follows rfl ran
  exact post

/-! ### The pieces of the operations -/

/-- The operations that leave the open accounts alone. -/
def Silent : Act → Prop
  | .set_balance _ _ | .set_deleted _ | .new_account _ _ _ | .insert _ _ | .erase _ => False
  | _ => True
instance : Allows Still Silent where
  may a kind := by
    cases a with
    | set_balance _ _ | set_deleted _ | new_account _ _ _ | insert _ _ | erase _ => exact kind
    | _ => trivial
instance : Allows Logs Silent where
  may a kind := by
    cases a with
    | log line => trivial
    | _ => exact kind.elim

theorem silent_next {a : Act} {x : Res a} (silent : Silent a) (reached : Next store g a x g') : g' = g := by
  cases a with
  | set_balance _ _ | set_deleted _ | new_account _ _ _ | insert _ _ | erase _ => cases silent
  | find _ | password _ | deleted _ | balance _ => exact reached.2
  | _ => exact reached

theorem follows_one {a : Act} {f : Res a → Code α} {Q : α → Data → Prop}
    (next : ∀ x g', Next store g a x g' → (effects store).Follows t (f x) g' Q) : (effects store).Follows t (.call a >>= f) g Q :=
  follows_then ((follows_call a _).mpr ⟨trivial,next⟩)
theorem follows_passed {a : Act} {f : Res a → Code α} {Q : α → Data → Prop} (silent : Silent a)
    (next : ∀ x, (effects store).Follows t (f x) g Q) : (effects store).Follows t (.call a >>= f) g Q :=
  follows_one fun x _ reached => silent_next silent reached ▸ next x
theorem follows_silent {p : Code α} {f : α → Code β} {Q : β → Data → Prop} (silent : Within Silent k p)
    (next : ∀ value, (effects store).Follows t (f value) g Q) : (effects store).Follows t (p >>= f) g Q := by
  refine follows_seq (within_follows (fun _ _ => trivial) (fun _ _ _ silent reached => silent_next silent reached) silent) ?_
  rintro value _ rfl
  exact next value
theorem ends_silent {p : Code α} {Q : Data → Prop} (silent : Within Silent k p) (done : Q g) :
    (effects store).Follows t p g fun _ => Q := by
  refine follows_mono ?_ (within_follows (fun _ _ => trivial) (fun _ _ _ silent reached => silent_next silent reached) silent)
  rintro _ g rfl
  exact done
theorem follows_find {f : Option Ref → Code α} {Q : α → Data → Prop} (next : (effects store).Follows t (f (g.found id)) g Q) :
    (effects store).Follows t (find id >>= f) g Q := by
  refine follows_one ?_
  rintro _ g ⟨rfl,rfl⟩
  exact next
/-- The checks on an account that is found: it is not deleted, and the password tells. -/
theorem follows_checked {gone own wrong : Code Unit} {Q : Unit → Data → Prop} (tidy : g.Tidy) (there : g.found id = some r)
    (same : (g.account r).password = pw → (effects store).Follows t own g Q)
    (other : (g.account r).password ≠ pw → (effects store).Follows t wrong g Q) :
    (effects store).Follows t (do if ← deleted r then gone else if ← vallid_password r pw then own else wrong) g Q := by
  refine follows_one ?_
  rintro _ g ⟨rfl,rfl⟩
  rw [tidy.present id r there]
  refine follows_then (follows_one ?_)
  rintro _ g ⟨rfl,rfl⟩
  by_cases own : (g.account r).password = pw
  · simpa [own] using same own
  · simpa [own] using other own

theorem opened_of_found (there : g.found id = some r) : g.opened id = some ((g.account r).password,(g.account r).balance) := by
  simp [Data.opened,there]
theorem opened_of_absent (absent : g.found id = none) : g.opened id = none := by
  simp [Data.opened,absent]
theorem tidy_set {account : Account} (tidy : g.Tidy) (same : account.id = (g.account r).id)
    (kept : account.deleted = (g.account r).deleted) : (g.set r account).Tidy where
  allocated := tidy.allocated
  id key q there := by
    by_cases own : q = r
    · subst own; simpa [Data.set,same] using tidy.id key q there
    · simpa [Data.set,own] using tidy.id key q there
  present key q there := by
    by_cases own : q = r
    · subst own; simpa [Data.set,kept] using tidy.present key q there
    · simpa [Data.set,own] using tidy.present key q there
/-- Where an account is found, no other id leads to it. -/
theorem opened_set {account : Account} (tidy : g.Tidy) (there : g.found id = some r) :
    (g.set r account).opened = Function.update g.opened id (some (account.password,account.balance)) := by
  funext key
  by_cases same : key = id
  · subst same
    simp [Data.opened,Data.set,there]
  · rw [Function.update_of_ne same]
    cases found : g.found key with
    | none => simp [Data.opened,Data.set,found]
    | some q =>
      have other : q ≠ r := by
        rintro rfl
        exact same ((tidy.id key q found).symm.trans (tidy.id id q there))
      simp [Data.opened,Data.set,found,other]
theorem opened_credited (tidy : g.Tidy) (there : g.found id = some r) :
    (g.set r { g.account r with balance := store ((g.account r).balance + amount) }).opened = credited store g.opened id amount := by
  rw [opened_set tidy there,credited,opened_of_found there]
  rfl

/-- What is left after an amount has been added to the balance of an account that is found. -/
structure Credited (store : Int → Int) (g : Data) (id amount : Int) (g' : Data) : Prop where
  tidy : g'.Tidy
  found : g'.found = g.found
  opened : g'.opened = credited store g.opened id amount

theorem follows_deposit {f : Unit → Code α} {Q : α → Data → Prop} (tidy : g.Tidy) (there : g.found id = some r)
    (next : ∀ g', Credited store g id amount g' → (effects store).Follows t (f ()) g' Q) :
    (effects store).Follows t (deposit r amount >>= f) g Q := by
  refine follows_then (follows_one ?_)
  rintro _ g ⟨rfl,rfl⟩
  refine (follows_call _ _).mpr ⟨trivial,?_⟩
  rintro _ g rfl
  exact next _ ⟨tidy_set tidy rfl rfl,rfl,opened_credited tidy there⟩
theorem follows_withdrawl {f : Bool → Code α} {Q : α → Data → Prop} (tidy : g.Tidy) (there : g.found id = some r)
    (enough : amount ≤ (g.account r).balance → ∀ g', Credited store g id (-amount) g' → (effects store).Follows t (f true) g' Q)
    (lower : ¬ amount ≤ (g.account r).balance → (effects store).Follows t (f false) g Q) :
    (effects store).Follows t (withdrawl r amount >>= f) g Q := by
  refine follows_then (follows_one ?_)
  rintro _ g ⟨rfl,rfl⟩
  by_cases short : (g.account r).balance < amount
  · rw [if_pos short]
    exact lower (by omega)
  · rw [if_neg short]
    refine follows_one ?_
    rintro _ g ⟨rfl,rfl⟩
    refine follows_one ?_
    rintro _ g rfl
    exact enough (by omega) _ ⟨tidy_set tidy rfl rfl,rfl,opened_credited tidy there⟩

theorem opened_inserted {balance : Int} (tidy : g.Tidy) (absent : g.found id = none) :
    ((g.allocate ⟨id,balance,pw,false⟩).insert id g.allocated).opened = Function.update g.opened id (some (pw,balance)) := by
  funext key
  by_cases same : key = id
  · subst same
    simp [Data.opened,Data.insert,Data.allocate,Data.set,absent]
  · cases found : g.found key with
    | none => simp [Data.opened,Data.insert,Data.allocate,Data.set,same,found]
    | some q =>
      have other : q ≠ g.allocated := (tidy.allocated key q found).ne
      simp [Data.opened,Data.insert,Data.allocate,Data.set,same,found,other]
theorem opened_erased (tidy : g.Tidy) (there : g.found id = some r) :
    ((g.set r { g.account r with deleted := true }).erase id).opened = Function.update g.opened id none := by
  funext key
  by_cases same : key = id
  · subst same
    simp [Data.opened,Data.erase]
  · cases found : g.found key with
    | none => simp [Data.opened,Data.erase,Data.set,same,found]
    | some q =>
      have other : q ≠ r := by
        rintro rfl
        exact same ((tidy.id key q found).symm.trans (tidy.id id q there))
      simp [Data.opened,Data.erase,Data.set,same,found,other]

/-! ### The operations -/

/-- The command leaves the accounts as said. -/
def Performs (store : Int → Int) (t : Tid) (command : Command) (p : Code Unit) (g : Data) : Prop :=
  (effects store).Follows t p g fun _ g' => g'.opened = performed store g.opened command

theorem follows_deposit_to_account (tidy : g.Tidy) :
    Performs store t (.deposit_to_account id pw amount) (deposit_to_account this id pw amount) g := by
  refine follows_silent within_wait_for_writer fun _ => follows_silent within_lock_for_read fun _ => follows_find ?_
  cases there : g.found id with
  | none => exact ends_silent (within_fail (within_unlock_from_read (k := 0))) (by simp [performed,opened_of_absent there])
  | some r =>
    refine follows_one ?_
    rintro _ g rfl
    refine follows_checked tidy there (fun own => ?_) fun other => ?_
    · refine follows_deposit tidy there fun g' credited => ?_
      refine ends_silent (within_log_balance (within_leave_write (k := 0))) ?_
      simp [performed,opened_of_found there,own,credited.opened]
    · exact ends_silent (within_fail (within_leave_write (k := 0))) (by simp [performed,opened_of_found there,other])

theorem follows_withdrawl_from_account (tidy : g.Tidy) :
    Performs store t (.withdrawl_from_account id pw amount) (withdrawl_from_account this id pw amount) g := by
  refine follows_silent within_wait_for_writer fun _ => follows_silent within_lock_for_read fun _ => follows_find ?_
  cases there : g.found id with
  | none => exact ends_silent (within_fail (within_unlock_from_read (k := 0))) (by simp [performed,opened_of_absent there])
  | some r =>
    refine follows_passed trivial fun _ => follows_checked tidy there (fun own => ?_) fun other => ?_
    · refine follows_withdrawl tidy there (fun enough g' credited => ?_) fun lower => ?_
      · refine ends_silent (within_log_balance (within_leave_write (k := 0))) ?_
        simp [performed,opened_of_found there,own,enough,credited.opened]
      · refine ends_silent (within_fail (within_leave_write (k := 0))) ?_
        simp [performed,opened_of_found there,lower]
    · exact ends_silent (within_fail (within_leave_write (k := 0))) (by simp [performed,opened_of_found there,other])

theorem follows_balance_check (tidy : g.Tidy) : Performs store t (.balance_check id pw) (balance_check this id pw) g := by
  refine follows_silent within_wait_for_writer fun _ => follows_silent within_lock_for_read fun _ => follows_find ?_
  cases there : g.found id with
  | none => exact ends_silent (within_fail (within_unlock_from_read (k := 0))) rfl
  | some r =>
    refine follows_silent within_lock_for_read fun _ => follows_checked tidy there (fun own => ?_) fun other => ?_
    · exact ends_silent (within_log_balance (within_leave_read (k := 0))) rfl
    · exact ends_silent (within_fail (within_leave_read (k := 0))) rfl

theorem follows_create_account {balance : Int} (tidy : g.Tidy) :
    Performs store t (.create_account id pw balance) (create_account this id pw balance) g := by
  refine follows_passed trivial fun _ => follows_passed trivial fun _ => follows_find ?_
  cases there : g.found id with
  | none =>
    refine follows_one ?_
    rintro r g' ⟨rfl,rfl⟩
    refine follows_passed trivial fun _ => follows_one ?_
    rintro _ g' rfl
    refine ends_silent (within_fail (within_leave_list (k := 0))) ?_
    rw [performed,if_pos (opened_of_absent there)]
    exact opened_inserted tidy there
  | some r =>
    refine follows_one ?_
    rintro _ g ⟨rfl,rfl⟩
    rw [tidy.present id r there]
    exact ends_silent (within_fail (within_finish_writing (k := 0))) (by simp [performed,opened_of_found there])

theorem follows_closing_account (tidy : g.Tidy) : Performs store t (.closing_account id pw) (closing_account this id pw) g := by
  refine follows_passed trivial fun _ => follows_passed trivial fun _ => follows_find ?_
  cases there : g.found id with
  | none => exact ends_silent (within_fail (within_finish_writing (k := 0))) (by simp [performed,opened_of_absent there])
  | some r =>
    refine follows_passed trivial fun _ => follows_checked tidy there (fun own => ?_) fun other => ?_
    · refine follows_passed trivial fun _ => follows_passed trivial fun _ => follows_one ?_
      rintro _ g' rfl
      refine follows_one ?_
      rintro _ g' rfl
      refine ends_silent (within_log_balance (within_leave_list (k := 0))) ?_
      have effect : performed store g.opened (.closing_account id pw) = Function.update g.opened id none := by
        simp [performed,opened_of_found there,own]
      exact (opened_erased tidy there).trans effect.symm
    · exact ends_silent (within_fail (within_leave_list (k := 0))) (by simp [performed,opened_of_found there,other])

theorem follows_transfer_between_accounts {src_id dest_id : Int} (tidy : g.Tidy) :
    Performs store t (.transfer_between_accounts src_id pw dest_id amount) (transfer_between_accounts this src_id pw dest_id amount) g := by
  refine follows_silent within_wait_for_writer fun _ => follows_silent within_lock_for_read fun _ => ?_
  refine follows_passed trivial fun _ => follows_find (follows_find ?_)
  cases from_ : g.found src_id with
  | none => exact ends_silent (within_fail (within_leave_transfer (k := 0))) (by simp [performed,opened_of_absent from_])
  | some src =>
    cases there : g.found dest_id with
    | none =>
      refine ends_silent (within_fail (within_leave_transfer (k := 0))) ?_
      simp [performed,opened_of_found from_,opened_of_absent there]
    | some dest =>
      have same : g.opened src_id = some ((g.account src).password,(g.account src).balance) := opened_of_found from_
      have also := opened_of_found there
      refine follows_passed trivial fun _ => follows_passed trivial fun _ => ?_
      refine follows_then (follows_one ?_)
      rintro _ g ⟨rfl,rfl⟩
      rw [tidy.present src_id src from_,if_neg Bool.false_ne_true]
      refine (follows_call _ _).mpr ⟨trivial,?_⟩
      rintro _ g ⟨rfl,rfl⟩
      rw [tidy.present dest_id dest there,if_neg Bool.false_ne_true]
      refine follows_then (follows_one ?_)
      rintro _ g ⟨rfl,rfl⟩
      by_cases own : (g.account src).password = pw
      · simp only [own,decide_true]
        refine follows_withdrawl tidy from_ (fun enough g' debited => ?_) fun lower => ?_
        · have there' : g'.found dest_id = some dest := debited.found ▸ there
          -- the credit is written out, and adds as a deposit does
          refine follows_deposit debited.tidy there' fun g'' credited => ?_
          refine ends_silent (within_then trivial fun _ => within_then trivial fun _ => within_then trivial fun _ =>
            within_then trivial fun _ => within_then trivial fun _ => within_finish_transfer (k := 0)) ?_
          rw [credited.opened,debited.opened]
          simp [performed,same,also,own,enough]
        · exact ends_silent (within_fail (within_finish_transfer (k := 0))) (by simp [performed,same,also,lower])
      · simp only [own,decide_false]
        exact ends_silent (within_fail (within_finish_transfer (k := 0))) (by simp [performed,same,also,own])

theorem follows_perform (command : Command) (tidy : g.Tidy) : Performs store t command (perform this command) g := by
  cases command with
  | create_account id pw balance => exact follows_create_account tidy
  | deposit_to_account id pw amount => exact follows_deposit_to_account tidy
  | withdrawl_from_account id pw amount => exact follows_withdrawl_from_account tidy
  | balance_check id pw => exact follows_balance_check tidy
  | closing_account id pw => exact follows_closing_account tidy
  | transfer_between_accounts src pw dest amount => exact follows_transfer_between_accounts tidy

/-- A command that runs by itself to its end leaves the accounts as said. -/
theorem exec_performed {command : Command} (tidy : (data s).Tidy)
    (ran : (perform this command).exec (run_storing store t) s = some ((),s')) :
    (data s').opened = performed store (data s).opened command :=
  exec_data (follows_perform command tidy) ran

/-! ### While a writer is in the list -/

/-- The list's write mutex is taken; nobody has come as a reader, or one who has waits for it. -/
def Closed (s : Shared) : Prop :=
  (s.lock .account_list).lock_write ≠ none ∧
    ((s.lock .account_list).num_of_readers = 0 ∨ (s.lock .account_list).lock_read ≠ none)
theorem closed_of_writing (inv : (s.lock .account_list).Inv) (writes : (s.lock .account_list).phase t = .writing) : Closed s := by
  refine ⟨by simp [inv.writer t writes],?_⟩
  obtain ⟨R,members,count⟩ := inv.count
  rcases R.eq_empty_or_nonempty with rfl | ⟨u,member⟩
  · exact .inl (by simpa using count)
  · have counted := (members u).mp member
    have apart : ((s.lock .account_list).phase u).shares ≠ true := fun shares => inv.alone writes shares
    refine .inr ?_
    cases at_u : (s.lock .account_list).phase u with
    | counted n =>
      have holds := (inv.read u).mp (by simp [at_u,RwLock.Phase.holdsRead])
      simp [holds]
    | _ => simp_all [RwLock.Phase.shares,RwLock.Phase.isCounted]

theorem lock_for_read_blocked (closed : Closed s) : lock_account_list_for_read.exec (run_storing store t) s = none := by
  obtain ⟨taken,empty | waiting⟩ := closed
  · simp [lock_account_list_for_read,lock_for_read,run_storing,run,Shared.move,RwLock.Lock.move,taken,empty]
  · simp [lock_account_list_for_read,lock_for_read,run_storing,run,Shared.move,RwLock.Lock.move,waiting]
theorem reader_blocked {f : Unit → Code α} (closed : Closed s) :
    (wait_for_writer >>= fun _ => lock_account_list_for_read >>= f).exec (run_storing store t) s = none := by
  rw [Prog.exec_bind]
  cases waited : wait_for_writer.exec (run_storing store t) s with
  | none => rfl
  | some out =>
    have same : out.2.lock = s.lock := by
      simp only [wait_for_writer,Prog.exec_bind,Prog.exec_call,run_storing,run,Option.bind_some] at waited
      split at waited
      · simp only [Prog.exec_call,run_storing,run,Option.ite_none_right_eq_some] at waited
        obtain ⟨_,ended⟩ := waited
        cases ended
        rfl
      · cases waited
        rfl
    have closed : Closed out.2 := by rw [Closed,same]; exact closed
    rw [Option.bind_some,Prog.exec_bind,lock_for_read_blocked closed]
    rfl
theorem writer_blocked {f : Unit → Code α} (closed : Closed s) :
    (set_accounts_print true >>= fun _ => pthread_mutex_lock (.lock_write .account_list) >>= f).exec (run_storing store t) s = none := by
  simp [run_storing,run,Shared.move,RwLock.Lock.move,closed.1]

/-- No command gets anywhere. -/
theorem perform_blocked (command : Command) (closed : Closed s) : (perform this command).exec (run_storing store t) s = none := by
  cases command with
  | create_account id pw balance => exact writer_blocked closed
  | closing_account id pw => exact writer_blocked closed
  | deposit_to_account id pw amount => exact reader_blocked closed
  | withdrawl_from_account id pw amount => exact reader_blocked closed
  | balance_check id pw => exact reader_blocked closed
  | transfer_between_accounts src pw dest amount => exact reader_blocked closed

end StructureOfOs.Effects
