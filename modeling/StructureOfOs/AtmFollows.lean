import StructureOfOs.BankOutline

/-!
The six operations of an ATM follow the outline: on every way through an operation
the locks are taken and left as the views permit, and the one line that it writes
to the log reports its command.
-/
namespace StructureOfOs.AtmFollows
open StructureOfOs.Programs StructureOfOs.Outlines StructureOfOs.RwLock StructureOfOs.BankState StructureOfOs.Accounts
open StructureOfOs.Atm StructureOfOs.Bank StructureOfOs.AccountBook StructureOfOs.Views StructureOfOs.Reports
open StructureOfOs.BankOutline

variable {S : Setting} {t : Tid} {g : View} {r : Ref} {p q : Phase} {i : Nat} {rest : List Command}

/-- The thread is at a point of the list's lock, at a point of one account's, and
    in no other lock. -/
structure Within (g : View) (p : Phase) (r : Ref) (q : Phase) : Prop where
  list : g.phase .account_list = p
  account : g.phase (.account r) = q
  others : ∀ x, x ≠ r → g.phase (.account x) = .idle
  transfer : g.transfer = false
  logging : g.logging = false

theorem Within.steady (within : Within g p r q) (inside : q.inside = true) : Steady g := by
  intro x
  by_cases same : x = r
  · subst same; exact .inr (by rw [within.account,inside])
  · exact .inl (within.others x same)
theorem Within.held (within : Within g p r q) (inside : p.inside = true) : g.Held := by
  rw [View.Held,within.list,inside]
theorem Within.left (within : Within g p r q) : View.Quiet ((g.put (.account r) .idle).forget (.account r)) := by
  intro x
  by_cases same : x = r
  · subst same; simp [View.forget]
  · simpa [View.forget,put_other same] using within.others x same

theorem commit_clean : (g.commit).Clean r := by
  intro c a known
  obtain ⟨x,_,same⟩ := Option.map_eq_some_iff.mp known
  cases same
  rfl
theorem commit_cleanBank : (g.commit).CleanBank := by
  intro c a known
  obtain ⟨x,_,same⟩ := Option.map_eq_some_iff.mp known
  cases same
  rfl

theorem Within.commit (within : Within g p r q) : Within g.commit p r q :=
  ⟨within.list,within.account,within.others,within.transfer,within.logging⟩

/-! ### The ways out -/

theorem follows_leave_write {Q : Unit → View → Prop} (within : Within g .reading r .writing) (clean : g.Clean r)
    (bank : g.CleanBank) (settled : g.change = .none) (next : Q () (.home g.todo)) :
    (outline S).Follows t (do unlock_from_write r; unlock_account_list_from_read) g Q := by
  refine follows_then (follows_unlock_write within.account (.inl ⟨within.account,clean,bank⟩) ?_)
  exact follows_unlock_list_from_read (by simpa [View.forget] using within.list) within.left within.transfer
    within.logging settled next
theorem follows_leave_read {Q : Unit → View → Prop} (within : Within g .reading r .reading) (settled : g.change = .none)
    (next : Q () (.home g.todo)) :
    (outline S).Follows t (do unlock_account_from_read r; unlock_account_list_from_read) g Q := by
  refine follows_then (follows_unlock_from_read within.account
    ⟨.inr within.account,within.held rfl,within.others,within.transfer,within.logging⟩ ?_)
  exact follows_unlock_list_from_read (by simpa [View.forget] using within.list) within.left within.transfer
    within.logging settled next
theorem follows_leave_list {Q : Unit → View → Prop} (within : Within g .writing r .writing) (clean : g.Clean r)
    (bank : g.CleanBank) (settled : g.change = .none) (next : Q () (.home g.todo)) :
    (outline S).Follows t (do unlock_from_write r; finish_writing) g Q := by
  refine follows_then (follows_unlock_write within.account (.inl ⟨within.account,clean,bank⟩) ?_)
  exact follows_finish_writing (by simpa [View.forget] using within.list) within.left within.transfer
    within.logging settled next

/-- A line with a balance that is read under the log's mutex. -/
theorem follows_log_balance_again {α : Type} {line : Int → Line} {k : Code α} {Q : α → View → Prop} {c a : Int}
    (within : Within g p r q) (held : p.inside = true) (inside : q.inside = true) (knows : g.Knows r)
    (read : g.cell r = some (c,a)) (reports : View.Reports { g with logging := true } t (line c))
    (next : (outline S).Follows t k g.commit Q) :
    (outline S).Follows t (do
      pthread_mutex_lock .log_print_lock
      let balance ← balance_of r
      .call (Act.log (line balance))
      pthread_mutex_unlock .log_print_lock
      k) g Q := by
  refine follows_then (follows_one ⟨within.held held,within.logging,within.steady inside⟩ ?_)
  rintro _ _ rfl
  refine follows_then (follows_balance_again (by rw [within.account,inside]) knows read fun _ => ?_)
  refine follows_then (follows_one ⟨rfl,within.held held,reports⟩ ?_)
  rintro _ _ rfl
  refine follows_then (follows_one rfl ?_)
  rintro _ _ rfl
  rw [commit_logging within.logging]
  exact next
theorem follows_log_balance {α : Type} {line : Int → Line} {k : Code α} {Q : α → View → Prop}
    (within : Within g p r q) (held : p.inside = true) (inside : q.inside = true) (knows : g.Knows r)
    (unread : g.cell r = none)
    (reports : ∀ c, View.Reports { g with cell := Function.update g.cell r (some (c,c)), logging := true } t (line c))
    (next : ∀ c, (outline S).Follows t k (View.commit { g with cell := Function.update g.cell r (some (c,c)) }) Q) :
    (outline S).Follows t (do
      pthread_mutex_lock .log_print_lock
      let balance ← balance_of r
      .call (Act.log (line balance))
      pthread_mutex_unlock .log_print_lock
      k) g Q := by
  refine follows_then (follows_one ⟨within.held held,within.logging,within.steady inside⟩ ?_)
  rintro _ _ rfl
  refine follows_then (follows_balance (by rw [within.account,inside]) knows unread fun c _ => ?_)
  refine follows_then (follows_one ⟨rfl,within.held held,reports c⟩ ?_)
  rintro _ _ rfl
  refine follows_then (follows_one rfl ?_)
  rintro _ _ rfl
  have same := commit_logging (g := { g with cell := Function.update g.cell r (some (c,c)) }) within.logging
  rw [same]
  exact next c

/-! ### The operations on one account -/

/-- The view of an ATM that has looked an id up as a reader or as a writer of the list. -/
def looking (p : Phase) (todo : List Command) (id : Int) (it : Option Ref) : View :=
  { (View.home todo).put .account_list p with looked := Function.update (fun _ => none) id (some it) }

/-- The ATM has looked an account up, is in its lock, and has changed no map. -/
structure Working (g : View) (todo : List Command) (p : Phase) (id : Int) (r : Ref) (q : Phase) : Prop where
  within : Within g p r q
  looked : g.looked id = some (some r)
  only : ∀ key, key ≠ id → g.looked key = none
  settled : g.change = .none
  bank : g.bank = none
  todo : g.todo = todo

variable {todo : List Command} {id : Int} {pw own : String} {c a : Int}

theorem Working.next {cmd : Command} (w : Working g (cmd :: rest) p id r q) : g.todo.head? = some cmd := by rw [w.todo]; rfl
theorem Working.knows (w : Working g todo p id r q) : g.Knows r := .inl ⟨id,w.looked⟩
theorem Working.learn (w : Working g todo p id r q) (x : Ref → Option String) : Working { g with pw := x } todo p id r q :=
  ⟨⟨w.within.list,w.within.account,w.within.others,w.within.transfer,w.within.logging⟩,w.looked,w.only,w.settled,w.bank,w.todo⟩
theorem Working.read (w : Working g todo p id r q) (x : Ref → Option (Int × Int)) :
    Working { g with cell := x } todo p id r q :=
  ⟨⟨w.within.list,w.within.account,w.within.others,w.within.transfer,w.within.logging⟩,w.looked,w.only,w.settled,w.bank,w.todo⟩
theorem Working.unchanged (w : Working g todo p id r q) (clean : g.Clean r) : Unchanged g := by
  refine ⟨w.settled,?_,?_⟩
  · intro c a known
    rw [w.bank] at known; cases known
  · intro key x looked
    by_cases same : key = id
    · subst same
      rw [w.looked] at looked
      cases looked
      exact clean
    · rw [w.only key same] at looked; cases looked

theorem looking_working : Working ((looking p todo id (some r)).put (.account r) q) todo p id r q where
  within :=
    { list := by simp [looking]
      account := by simp
      others := fun x other => by rw [put_other other]; simp [looking,View.home]
      transfer := rfl
      logging := rfl }
  looked := by simp [looking,View.put]
  only key other := by simp [looking,View.put,other]
  settled := rfl
  bank := rfl
  todo := rfl
theorem home_outside : (View.home todo).Outside := ⟨rfl,fun _ => rfl,rfl,rfl⟩

/-- From the ATM's loop to the lookup. -/
private theorem follows_look {α : Type} {k : Option Ref → Code α} {Q : α → View → Prop}
    (next : ∀ it, (outline S).Follows t (k it) (looking .reading todo id it) Q) :
    (outline S).Follows t (do
      wait_for_writer
      lock_account_list_for_read
      let it ← find id
      k it) (.home todo) Q := by
  refine follows_then (follows_wait_for_writer home_outside ?_)
  refine follows_then (follows_lock_list_for_read home_outside ?_)
  exact follows_then (follows_find (BankInvariant.held_of_reading put_phase_self) rfl fun it _ _ => next it)

/-- Nothing was found, and the list is left. -/
private theorem follows_absent {cmd : Command} (about : subject cmd = some (id,pw)) :
    (outline S).Follows (.atm i) (do log_print (.error i (.does_not_exist id)); unlock_account_list_from_read)
      (looking .reading (cmd :: rest) id none) fun _ g => g = .home rest := by
  have quiet : (looking .reading (cmd :: rest) id none).Quiet := fun r => by simp [looking,View.home]
  have reads : (looking .reading (cmd :: rest) id none).phase .account_list = .reading := by simp [looking]
  refine follows_then (follows_log_print rfl (BankInvariant.held_of_reading reads) (fun r => .inl (quiet r)) ?_ ?_)
  · exact reports_absent rfl rfl about (by simp [looking]) (unchanged_unread rfl rfl fun _ => rfl)
  · exact follows_unlock_list_from_read reads quiet rfl rfl rfl rfl

/-- The account found is locked for writing and is not deleted. -/
private theorem follows_enter {α : Type} {k e : Code α} {Q : α → View → Prop} (inside : p.inside = true)
    (next : ∀ g, Working g todo p id r .writing → (∀ x, g.cell x = none) → (outline S).Follows t k g Q) :
    (outline S).Follows t (do lock_for_write r; if ← deleted r then e else k) (looking p todo id (some r)) Q := by
  refine follows_then (follows_lock_write (by simp [looking,View.home]) ?_ ?_)
  · refine ⟨.inl (by simp [looking,View.home]),by simpa [View.Held,looking] using inside,?_,rfl⟩
    exact fun x _ => .inl (by simp [looking,View.home])
  refine follows_then (follows_deleted looking_working.looked ?_)
  rw [if_neg Bool.false_ne_true]
  exact next _ looking_working fun x => rfl

/-- An error in an account that is locked for writing. -/
private theorem follows_fail_write {line : Line} (w : Working g todo .reading id r .writing)
    (reports : View.Reports { g with logging := true } t line) :
    (outline S).Follows t (do log_print line; unlock_from_write r; unlock_account_list_from_read) g
      fun _ g' => g' = .home todo.tail := by
  refine follows_then (follows_log_print w.within.logging (w.within.held rfl) (w.within.steady rfl) reports ?_)
  exact follows_leave_write w.within.commit commit_clean commit_cleanBank rfl (congrArg (fun x => View.home x.tail) w.todo)

private theorem follows_incorrect {cmd : Command} (w : Working g (cmd :: rest) .reading id r .writing)
    (about : subject cmd = some (id,pw)) (alone : target cmd = none) (known : g.pw r = some own) (wrong : own ≠ pw)
    (clean : g.Clean r) :
    (outline S).Follows (.atm i) (do
      log_print (.error i (.incorrect_password id)); unlock_from_write r; unlock_account_list_from_read) g
      fun _ g' => g' = .home rest := by
  refine follows_fail_write w ?_
  refine reports_incorrect rfl w.next about w.looked known wrong ?_ (w.unchanged clean)
  intro dest there
  rw [alone] at there; cases there

theorem follows_deposit {amount : Int} (assumed : S.nonneg → 0 ≤ amount) :
    (outline S).Follows (.atm i) (deposit_to_account i id pw amount) (.home (.deposit_to_account id pw amount :: rest))
      fun _ g => g = .home rest := by
  refine follows_look fun it => ?_
  cases it with
  | none => exact follows_absent rfl
  | some r =>
    refine follows_enter rfl fun g w unread => ?_
    refine follows_then (follows_vallid_password w.knows fun own => ?_)
    have w := w.learn (Function.update g.pw r (some own))
    by_cases right : own = pw
    · subst right
      rw [if_pos (by simp)]
      refine follows_then (follows_then (follows_balance (by rw [w.within.account]; rfl) w.knows (unread r) fun c above => ?_))
      refine follows_set_balance (k := id) (c := c) (a := c) (by simp) w.within.account w.within.list w.looked (by simp) ?_ ?_
      · intro holds
        have := above holds
        have := assumed holds
        omega
      refine follows_log_balance_again (c := c + amount) (a := c) (w.read _).within rfl rfl (w.read _).knows (by simp) ?_ ?_
      · exact reports_deposited rfl w.next w.looked w.only (by simp) (by simp) w.settled w.bank
      · exact follows_leave_write (w.read _).within.commit commit_clean commit_cleanBank rfl
          (congrArg (fun x => View.home x.tail) w.todo)
    · rw [if_neg (by simpa using right)]
      exact follows_incorrect w rfl rfl (by simp) right fun c a known => by rw [unread r] at known; cases known

/-- The balance is compared and then lowered under the same lock. -/
theorem follows_withdrawl {amount : Int} {Q : Bool → View → Prop} (may : t ≠ .accounts_print ∧ t ≠ .main)
    (writes : g.phase (.account r) = .writing) (reads : g.phase .account_list = .reading)
    (looked : g.looked id = some (some r)) (unread : g.cell r = none)
    (lower : ∀ c, c < amount → Q false { g with cell := Function.update g.cell r (some (c,c)) })
    (enough : ∀ c, ¬ c < amount → Q true { g with cell := Function.update g.cell r (some (c - amount,c)) }) :
    (outline S).Follows t (withdrawl r amount) g Q := by
  have inside : (g.phase (.account r)).inside = true := by rw [writes]; rfl
  refine follows_then (follows_balance inside (.inl ⟨id,looked⟩) unread fun c _ => ?_)
  by_cases less : c < amount
  · rw [if_pos less]
    exact lower c less
  · rw [if_neg less]
    refine follows_then (follows_balance_again inside (.inl ⟨id,looked⟩) (c := c) (a := c) (by simp) fun _ => ?_)
    refine follows_then (follows_set_balance may writes reads looked (c := c) (a := c) (by simp) (fun _ => by omega) ?_)
    have result := enough c less
    simpa using result

theorem follows_withdrawl_from_account {amount : Int} :
    (outline S).Follows (.atm i) (withdrawl_from_account i id pw amount)
      (.home (.withdrawl_from_account id pw amount :: rest)) fun _ g => g = .home rest := by
  refine follows_look fun it => ?_
  cases it with
  | none => exact follows_absent rfl
  | some r =>
    refine follows_enter rfl fun g w unread => ?_
    refine follows_then (follows_vallid_password w.knows fun own => ?_)
    have w := w.learn (Function.update g.pw r (some own))
    by_cases right : own = pw
    · subst right
      rw [if_pos (by simp)]
      refine follows_then (follows_withdrawl (by simp) w.within.account w.within.list w.looked (unread r)
        (fun c less => ?_) fun c enough => ?_)
      · rw [if_neg Bool.false_ne_true]
        have w := w.read (Function.update g.cell r (some (c,c)))
        refine follows_fail_write w ?_
        refine reports_lower c rfl w.next w.looked (by simp) (by simp) less (w.unchanged ?_)
        intro c' a known
        simp only [Function.update_self,Option.some.injEq,Prod.mk.injEq] at known
        exact known.1.symm.trans known.2
      · rw [if_pos rfl]
        have w := w.read (Function.update g.cell r (some (c - amount,c)))
        refine follows_log_balance_again (c := c - amount) (a := c) w.within rfl rfl w.knows (by simp) ?_ ?_
        · exact reports_withdrew rfl w.next w.looked w.only (by simp) enough (by simp) w.settled w.bank
        · exact follows_leave_write w.within.commit commit_clean commit_cleanBank rfl
            (congrArg (fun x => View.home x.tail) w.todo)
    · rw [if_neg (by simpa using right)]
      exact follows_incorrect w rfl rfl (by simp) right fun c a known => by rw [unread r] at known; cases known

theorem follows_balance_check :
    (outline S).Follows (.atm i) (balance_check i id pw) (.home (.balance_check id pw :: rest))
      fun _ g => g = .home rest := by
  refine follows_look fun it => ?_
  cases it with
  | none => exact follows_absent rfl
  | some r =>
    refine follows_then (follows_lock_for_read (by simp [looking,View.home]) ?_ ?_)
    · refine ⟨.inl (by simp [looking,View.home]),BankInvariant.held_of_reading (by simp [looking]),?_,rfl,rfl⟩
      exact fun x _ => by simp [looking,View.home]
    have w : Working ((looking .reading (.balance_check id pw :: rest) id (some r)).put (.account r) .reading) _ .reading id r .reading :=
      looking_working
    have unread : ((looking .reading (.balance_check id pw :: rest) id (some r)).put (.account r) .reading).cell r = none := rfl
    revert w unread
    generalize (looking .reading (.balance_check id pw :: rest) id (some r)).put (.account r) .reading = g
    intro w unread
    refine follows_then (follows_deleted w.looked ?_)
    rw [if_neg Bool.false_ne_true]
    refine follows_then (follows_vallid_password w.knows fun own => ?_)
    have w := w.learn (Function.update g.pw r (some own))
    by_cases right : own = pw
    · subst right
      rw [if_pos (by simp)]
      refine follows_log_balance w.within rfl rfl w.knows unread (fun c => ?_) fun c => ?_
      · have w := w.read (Function.update g.cell r (some (c,c)))
        refine reports_checked c rfl w.next w.looked (by simp) (by simp) (w.unchanged ?_)
        intro c' a known
        simp only [Function.update_self,Option.some.injEq,Prod.mk.injEq] at known
        exact known.1.symm.trans known.2
      · have w := w.read (Function.update g.cell r (some (c,c)))
        exact follows_leave_read w.within.commit rfl (congrArg (fun x => View.home x.tail) w.todo)
    · rw [if_neg (by simpa using right)]
      refine follows_then (follows_log_print w.within.logging (w.within.held rfl) (w.within.steady rfl) ?_ ?_)
      · refine reports_incorrect rfl w.next rfl w.looked (by simp) right (fun dest there => by cases there) (w.unchanged ?_)
        intro c a known
        rw [unread] at known; cases known
      · exact follows_leave_read w.within.commit rfl (congrArg (fun x => View.home x.tail) w.todo)

/-! ### The writers of the list -/

/-- From the ATM's loop to the lookup of a writer. -/
private theorem follows_look_write {α : Type} {k : Option Ref → Code α} {Q : α → View → Prop}
    (next : ∀ it, (outline S).Follows t (k it) (looking .writing todo id it) Q) :
    (outline S).Follows t (do
      set_accounts_print true
      pthread_mutex_lock (.lock_write .account_list)
      let it ← find id
      k it) (.home todo) Q := by
  refine follows_then (follows_one trivial ?_)
  rintro _ _ rfl
  refine follows_then (follows_lock_write rfl ⟨.inl rfl,fun _ => rfl,rfl,rfl⟩ ?_)
  exact follows_then (follows_find (BankInvariant.held_of_writing put_phase_self) rfl fun it _ _ => next it)

/-- An error before any account is locked. -/
private theorem follows_fail_list {cmd : Command} {line : Line} {it : Option Ref}
    (reports : View.Reports { looking .writing (cmd :: rest) id it with logging := true } t line) :
    (outline S).Follows t (do log_print line; finish_writing) (looking .writing (cmd :: rest) id it)
      fun _ g => g = .home rest := by
  have quiet : (looking .writing (cmd :: rest) id it).Quiet := fun r => by simp [looking,View.home]
  have writes : (looking .writing (cmd :: rest) id it).phase .account_list = .writing := by simp [looking]
  refine follows_then (follows_log_print rfl (BankInvariant.held_of_writing writes) (fun r => .inl (quiet r)) reports ?_)
  exact follows_finish_writing writes quiet rfl rfl rfl rfl

/-- An account that is found is never deleted, so that a new one is made only for an id without one. -/
theorem follows_does_not_exsit (id : Int) {it : Option Ref} {Q : Bool → View → Prop} (looked : g.looked id = some it)
    (next : Q it.isNone g) : (outline S).Follows t (does_not_exsit it) g Q := by
  cases it with
  | none => exact next
  | some r => exact follows_deleted looked next

theorem follows_create_account {balance : Int} (assumed : S.nonneg → 0 ≤ balance) :
    (outline S).Follows (.atm i) (create_account i id pw balance) (.home (.create_account id pw balance :: rest))
      fun _ g => g = .home rest := by
  refine follows_look_write fun it => ?_
  refine follows_then (follows_does_not_exsit id (by simp [looking]) ?_)
  cases it with
  | some r =>
    rw [if_neg (by simp)]
    exact follows_fail_list (reports_same_id (r := r) rfl rfl (by simp [looking]) (unchanged_unread rfl rfl fun _ => rfl))
  | none =>
    rw [Option.isNone_none,if_pos rfl]
    refine follows_then (follows_one ⟨⟨i,rfl⟩,by simp [looking],rfl,fun r => by simp [looking,View.home],assumed⟩ ?_)
    rintro (r : Ref) _ rfl
    refine follows_then (follows_lock_write (by simp [looking,View.home]) ?_ ?_)
    · refine ⟨.inl (by simp [looking,View.home]),BankInvariant.held_of_writing (by simp [looking]),?_,rfl⟩
      exact fun x _ => .inl (by simp [looking,View.home])
    refine follows_then (follows_one ⟨⟨pw,balance,rfl⟩,by simp [looking,View.put],put_phase_self⟩ ?_)
    rintro _ _ ⟨_,_,_,_,changing,rfl⟩
    cases changing
    have within : ∀ change looked pass, Within
        { View.put { looking .writing (.create_account id pw balance :: rest) id none with
                     change := .allocated r id pw balance } (.account r) .writing with
          change := change, looked := looked, pass := pass } .writing r .writing := by
      intro change looked pass
      refine ⟨by simp [looking],by simp,fun x other => ?_,rfl,rfl⟩
      simp [put_other other,looking,View.home]
    refine follows_then (follows_log_print rfl ((within _ _ _).held rfl) ((within _ _ _).steady rfl) ?_ ?_)
    · exact reports_created rfl rfl rfl rfl
    · exact follows_leave_list (within _ _ _).commit commit_clean commit_cleanBank rfl rfl

theorem follows_closing_account :
    (outline S).Follows (.atm i) (closing_account i id pw) (.home (.closing_account id pw :: rest))
      fun _ g => g = .home rest := by
  refine follows_look_write fun it => ?_
  cases it with
  | none => exact follows_fail_list (reports_absent rfl rfl rfl (by simp [looking]) (unchanged_unread rfl rfl fun _ => rfl))
  | some r =>
    refine follows_enter rfl fun g w unread => ?_
    refine follows_then (follows_vallid_password w.knows fun own => ?_)
    have w := w.learn (Function.update g.pw r (some own))
    by_cases right : own = pw
    · subst right
      rw [if_pos (by simp)]
      refine follows_then (follows_one w.knows ?_)
      rintro (key : Int) _ ⟨rfl,named⟩
      have same : key = id := named id w.looked
      subst same
      refine follows_then (follows_one ⟨⟨i,rfl⟩,w.within.list,w.settled,w.looked,w.within.account⟩ ?_)
      rintro _ _ rfl
      refine follows_then (follows_one ⟨key,rfl⟩ ?_)
      rintro _ _ ⟨_,changing,rfl⟩
      cases changing
      refine follows_then (follows_one ⟨r,rfl⟩ ?_)
      rintro _ _ ⟨_,changing,rfl⟩
      cases changing
      have within := w.within
      refine follows_log_balance (r := r) (p := .writing) (q := .writing)
        ⟨within.list,within.account,within.others,within.transfer,within.logging⟩ rfl rfl (.inr rfl) (unread r)
        (fun c => ?_) fun c => ?_
      · exact reports_closed rfl w.next rfl (by simp) (by simp) w.bank
      · refine follows_leave_list ⟨within.list,within.account,within.others,within.transfer,within.logging⟩ commit_clean
          commit_cleanBank rfl ?_
        exact congrArg (fun x => View.home x.tail) w.todo
    · rw [if_neg (by simpa using right)]
      refine follows_then (follows_log_print w.within.logging (w.within.held rfl) (w.within.steady rfl) ?_ ?_)
      · refine reports_incorrect rfl w.next rfl w.looked (by simp) right (fun dest there => by cases there) (w.unchanged ?_)
        intro c a known
        rw [unread r] at known; cases known
      · exact follows_leave_list w.within.commit commit_clean commit_cleanBank rfl
          (congrArg (fun x => View.home x.tail) w.todo)

/-! ### Transfers -/

/-- The ATM has looked both accounts of a transfer up, is in the transfer lock, and
    is in the locks of the accounts `inside`. -/
structure Transferring (g : View) (todo : List Command) (src dest : Int) (it_src it_dest : Option Ref)
    (inside : Ref → Prop) : Prop where
  list : g.phase .account_list = .reading
  entered : ∀ x, inside x → g.phase (.account x) = .writing
  others : ∀ x, ¬ inside x → g.phase (.account x) = .idle
  transfer : g.transfer = true
  logging : g.logging = false
  found : g.looked src = some it_src
  there : g.looked dest = some it_dest
  only : ∀ key, key ≠ src → key ≠ dest → g.looked key = none
  settled : g.change = .none
  bank : g.bank = none
  todo : g.todo = todo

variable {dest : Int} {it_src it_dest : Option Ref} {inside : Ref → Prop} {x y : Ref}

theorem Transferring.learn (T : Transferring g todo id dest it_src it_dest inside) (k : Ref → Option String) :
    Transferring { g with pw := k } todo id dest it_src it_dest inside :=
  ⟨T.list,T.entered,T.others,T.transfer,T.logging,T.found,T.there,T.only,T.settled,T.bank,T.todo⟩
theorem Transferring.read (T : Transferring g todo id dest it_src it_dest inside) (k : Ref → Option (Int × Int)) :
    Transferring { g with cell := k } todo id dest it_src it_dest inside :=
  ⟨T.list,T.entered,T.others,T.transfer,T.logging,T.found,T.there,T.only,T.settled,T.bank,T.todo⟩
theorem Transferring.next {cmd : Command} (T : Transferring g (cmd :: rest) id dest it_src it_dest inside) :
    g.todo.head? = some cmd := by rw [T.todo]; rfl
theorem Transferring.held (T : Transferring g todo id dest it_src it_dest inside) : g.Held :=
  BankInvariant.held_of_reading T.list
theorem Transferring.steady (T : Transferring g todo id dest it_src it_dest inside) : Steady g := by
  intro x
  by_cases entered : inside x
  · exact .inr (by rw [T.entered x entered]; rfl)
  · exact .inl (T.others x entered)
theorem Transferring.bank_clean (T : Transferring g todo id dest it_src it_dest inside) : g.CleanBank := by
  intro c a known
  rw [T.bank] at known; cases known
/-- The next account of the transfer is entered. -/
theorem Transferring.enter (T : Transferring g todo id dest it_src it_dest inside) (x : Ref) :
    Transferring (g.put (.account x) .writing) todo id dest it_src it_dest (fun y => y = x ∨ inside y) where
  list := by simpa using T.list
  entered y entered := by
    by_cases same : y = x
    · subst same; simp
    · rw [put_other same]; exact T.entered y (entered.resolve_left same)
  others y outside := by
    rw [put_other (fun same => outside (.inl same))]
    exact T.others y (fun also => outside (.inr also))
  transfer := T.transfer
  logging := T.logging
  found := T.found
  there := T.there
  only := T.only
  settled := T.settled
  bank := T.bank
  todo := T.todo

/-- Before any account is locked: the transfer lock and the list are left. -/
theorem follows_leave_transfer {Q : Unit → View → Prop} (list : g.phase .account_list = .reading) (quiet : g.Quiet)
    (transfer : g.transfer = true) (logging : g.logging = false) (settled : g.change = .none)
    (next : Q () (.home g.todo)) :
    (outline S).Follows t (do pthread_mutex_unlock .transfer_lock; unlock_account_list_from_read) g Q := by
  refine follows_then (follows_one transfer ?_)
  rintro _ _ rfl
  exact follows_unlock_list_from_read list quiet rfl logging settled next

theorem follows_finish_transfer {Q : Unit → View → Prop} (apart : x ≠ y) (list : g.phase .account_list = .reading)
    (src : g.phase (.account x) = .writing) (dest : g.phase (.account y) = .writing)
    (others : ∀ z, z ≠ x → z ≠ y → g.phase (.account z) = .idle) (transfer : g.transfer = true)
    (logging : g.logging = false) (settled : g.change = .none) (clean : ∀ z, g.Clean z) (bank : g.CleanBank)
    (next : Q () (.home g.todo)) : (outline S).Follows t (finish_transfer x y) g Q := by
  refine follows_then (follows_unlock_write src (.inl ⟨src,clean x,bank⟩) ?_)
  have dest' : ((g.put (.account x) .idle).forget (.account x)).phase (.account y) = .writing := by
    simpa [View.forget,put_other (Ne.symm apart)] using dest
  refine follows_then (follows_unlock_write dest' (.inl ⟨dest',?_,bank⟩) ?_)
  · intro c a known
    refine clean y c a ?_
    simpa [View.forget,View.put,Ne.symm apart] using known
  refine follows_leave_transfer (by simpa [View.forget,View.put] using list) (fun z => ?_) transfer logging settled next
  by_cases at_y : z = y
  · subst at_y; simp [View.forget]
  · by_cases at_x : z = x
    · subst at_x; simp [View.forget,View.put,at_y]
    · simpa [View.forget,View.put,at_x,at_y] using others z at_x at_y

/-- An error with both accounts locked, or the line of the transfer itself. -/
private theorem follows_fail_transfer {line : Line} (apart : x ≠ y)
    (T : Transferring g todo id dest it_src it_dest fun z => z = y ∨ z = x ∨ False)
    (reports : View.Reports { g with logging := true } t line) :
    (outline S).Follows t (do log_print line; finish_transfer x y) g fun _ g' => g' = .home todo.tail := by
  refine follows_then (follows_log_print T.logging T.held T.steady reports ?_)
  refine follows_finish_transfer apart T.list (T.entered x (by simp)) (T.entered y (by simp)) (fun z other also => ?_)
    T.transfer T.logging rfl (fun z => commit_clean) commit_cleanBank (congrArg (fun x => View.home x.tail) T.todo)
  exact T.others z (by simp [other,also])

/-- Once both accounts are locked. -/
private theorem follows_transfer_locked {amount : Int} (assumed : S.nonneg → 0 ≤ amount) (apart : x ≠ y) (differ : id ≠ dest)
    (T : Transferring g (.transfer_between_accounts id pw dest amount :: rest) id dest (some x) (some y)
      fun z => z = y ∨ z = x ∨ False) (unread : ∀ z, g.cell z = none) {e : Code Unit} :
    (outline S).Follows (.atm i) (do
      if ← either_deleted x y then e
      else if ← vallid_password x pw then
        if ← withdrawl x amount then
          let balance ← balance_of y
          set_balance y (balance + amount)
          pthread_mutex_lock .log_print_lock
          let src_balance ← balance_of x
          let dest_balance ← balance_of y
          .call (Act.log (.transferred i amount id dest src_balance dest_balance))
          pthread_mutex_unlock .log_print_lock
          finish_transfer x y
        else
          log_print (.error i (.lower_balance id amount))
          finish_transfer x y
      else
        log_print (.error i (.incorrect_password id))
        finish_transfer x y) g fun _ g' => g' = .home rest := by
  have at_x := T.entered x (by simp)
  have at_y := T.entered y (by simp)
  have inside_x : (g.phase (.account x)).inside = true := by rw [at_x]; rfl
  have inside_y : (g.phase (.account y)).inside = true := by rw [at_y]; rfl
  refine follows_then (follows_then (follows_deleted T.found ?_))
  rw [if_neg Bool.false_ne_true]
  refine follows_deleted T.there ?_
  rw [if_neg Bool.false_ne_true]
  refine follows_then (follows_vallid_password (.inl ⟨id,T.found⟩) fun own => ?_)
  have T := T.learn (Function.update g.pw x (some own))
  by_cases right : own = pw
  · subst right
    rw [if_pos (by simp)]
    refine follows_then (follows_withdrawl (by simp) at_x T.list T.found (unread x) (fun c less => ?_) fun c enough => ?_)
    · rw [if_neg Bool.false_ne_true]
      have T := T.read (Function.update g.cell x (some (c,c)))
      refine follows_fail_transfer apart T ?_
      refine reports_transfer_lower c rfl T.next T.found T.there (by simp) (by simp) less ?_
      refine ⟨T.settled,T.bank_clean,fun key z _ c' a known => ?_⟩
      by_cases same : z = x
      · subst same
        simp only [Function.update_self,Option.some.injEq,Prod.mk.injEq] at known
        exact known.1.symm.trans known.2
      · simp [same,unread z] at known
    · rw [if_pos rfl]
      refine follows_then (follows_balance inside_y (.inl ⟨dest,T.there⟩) (by simp [Ne.symm apart,unread y]) fun b above => ?_)
      refine follows_then (follows_set_balance (k := dest) (c := b) (a := b) (by simp) at_y T.list T.there (by simp) ?_ ?_)
      · intro holds
        have := above holds
        have := assumed holds
        omega
      have T := T.read (Function.update (Function.update (Function.update g.cell x (some (c - amount,c))) y (some (b,b))) y
        (some (b + amount,b)))
      refine follows_then (follows_one ⟨T.held,T.logging,T.steady⟩ ?_)
      rintro _ _ rfl
      refine follows_then (follows_balance_again (c := c - amount) (a := c) inside_x (.inl ⟨id,T.found⟩) (by simp [apart]) fun _ => ?_)
      refine follows_then (follows_balance_again (c := b + amount) (a := b) inside_y (.inl ⟨dest,T.there⟩) (by simp) fun _ => ?_)
      refine follows_then (follows_one ⟨rfl,T.held,?_⟩ ?_)
      · exact reports_transferred c b rfl T.next differ T.found T.there T.only (by simp) enough
          (by simp [apart]) (by simp) T.settled T.bank
      rintro _ _ rfl
      refine follows_then (follows_one rfl ?_)
      rintro _ _ rfl
      refine follows_finish_transfer apart T.list at_x at_y (fun z other also => ?_)
        T.transfer rfl rfl (fun z => commit_clean) commit_cleanBank (congrArg (fun x => View.home x.tail) T.todo)
      exact T.others z (by simp [other,also])
  · rw [if_neg (by simpa using right)]
    refine follows_fail_transfer apart T ?_
    refine reports_incorrect rfl T.next rfl T.found (by simp) right (fun key named => ?_) (unchanged_unread T.settled T.bank unread)
    cases named
    exact ⟨y,T.there⟩

/-- A transfer to the same account stops for good at its second lock. -/
theorem follows_transfer_between_accounts {amount : Int} (assumed : S.nonneg → 0 ≤ amount)
    (targets : S.distinct → id ≠ dest) :
    (outline S).Follows (.atm i) (transfer_between_accounts i id pw dest amount)
      (.home (.transfer_between_accounts id pw dest amount :: rest)) fun _ g => g = .home rest := by
  refine follows_then (follows_wait_for_writer home_outside ?_)
  refine follows_then (follows_lock_list_for_read home_outside ?_)
  refine follows_then (follows_one ⟨put_phase_self,fun r => by simp [View.home],rfl,rfl⟩ ?_)
  rintro _ _ rfl
  have held : ∀ looked, View.Held { (View.home (.transfer_between_accounts id pw dest amount :: rest)).put
      .account_list .reading with transfer := true, looked := looked } := fun _ => by simp [View.Held,Phase.inside]
  refine follows_then (follows_find (held _) rfl fun it_src _ _ => ?_)
  refine follows_then (follows_find (held _) rfl fun it_dest again unique => ?_)
  have same : id = dest → it_dest = it_src := by
    rintro rfl
    exact again it_src (by simp)
  have unique : ∀ x, it_src = some x → it_dest = some x → id = dest := by
    rintro x rfl rfl
    exact unique x rfl id (by simp)
  -- From here on only these facts about the view matter.
  refine (?_ : ∀ g, Transferring g (.transfer_between_accounts id pw dest amount :: rest) id dest it_src it_dest
    (fun _ => False) → (∀ x, g.cell x = none) → (outline S).Follows _ _ g _) _ ?_ fun _ => rfl
  · intro g T unread
    have quiet : g.Quiet := fun r => T.others r not_false
    cases it_src with
    | none =>
      refine follows_then (follows_log_print T.logging T.held T.steady ?_ ?_)
      · exact reports_absent rfl T.next rfl T.found (unchanged_unread T.settled T.bank unread)
      · exact follows_leave_transfer T.list quiet T.transfer T.logging rfl (congrArg (fun x => View.home x.tail) T.todo)
    | some x =>
      cases it_dest with
      | none =>
        refine follows_then (follows_log_print T.logging T.held T.steady ?_ ?_)
        · exact reports_no_target rfl T.next T.found T.there (unchanged_unread T.settled T.bank unread)
        · exact follows_leave_transfer T.list quiet T.transfer T.logging rfl (congrArg (fun x => View.home x.tail) T.todo)
      | some y =>
        refine follows_then (follows_lock_write (quiet x) ⟨.inl (quiet x),T.held,fun z _ => .inl (quiet z),T.logging⟩ ?_)
        have T := T.enter x
        by_cases apart : x = y
        · subst apart
          refine follows_then (follows_one ⟨.inr (.inr ⟨put_phase_self,T.transfer,?_⟩),T.held,?_,T.logging⟩ ?_)
          · exact fun distinct => targets distinct (unique x rfl rfl)
          · exact fun z other => .inl (T.others z (by simp [other]))
          · rintro _ _ ⟨entered,_⟩
            exact absurd put_phase_self entered
        · have idle : (g.put (.account x) .writing).phase (.account y) = .idle := T.others y (by simp [Ne.symm apart])
          refine follows_then (follows_lock_write idle ⟨.inl idle,T.held,fun z other => ?_,T.logging⟩ ?_)
          · by_cases first : z = x
            · exact .inr ⟨T.transfer,T.entered z (.inl first)⟩
            · exact .inl (T.others z (by simp [first]))
          · have differ : id ≠ dest := fun equal => apart (Option.some.inj (same equal)).symm
            exact follows_transfer_locked assumed apart differ (T.enter y) unread
  · refine ⟨by simp,fun _ h => h.elim,fun x _ => by simp [View.home],rfl,rfl,?_,by simp,fun key other also => ?_,rfl,rfl,rfl⟩
    · by_cases equal : id = dest
      · subst equal; simp [same rfl]
      · simp [equal]
    · simp [other,also,View.put,View.home]

end StructureOfOs.AtmFollows
