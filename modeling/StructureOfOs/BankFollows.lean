import StructureOfOs.AtmFollows

/-!
Every round of every thread follows the outline: an ATM's next command, the two
threads that iterate over the accounts, and `main`. So the outline is sound, and
its invariant holds in every state that a schedule of the bank reaches.
-/
namespace StructureOfOs.BankFollows
open StructureOfOs.Programs StructureOfOs.Outlines StructureOfOs.RwLock StructureOfOs.BankState StructureOfOs.Accounts
open StructureOfOs.Atm StructureOfOs.Bank StructureOfOs.AccountBook StructureOfOs.Views StructureOfOs.Reports
open StructureOfOs.BankOutline StructureOfOs.AtmFollows

variable {S : Setting} {t : Tid} {g : View} {i : Nat} {rest : List Command}

theorem follows_perform {c : Command} (nonneg : S.nonneg → Nonneg c) (distinct : S.distinct → Distinct c) :
    (outline S).Follows (.atm i) (perform i c) (.home (c :: rest)) fun _ g => g = .home rest := by
  cases c with
  | create_account id pw balance => exact follows_create_account nonneg
  | deposit_to_account id pw amount => exact follows_deposit nonneg
  | withdrawl_from_account id pw amount => exact follows_withdrawl_from_account
  | balance_check id pw => exact follows_balance_check
  | closing_account id pw => exact follows_closing_account
  | transfer_between_accounts src pw dest amount => exact follows_transfer_between_accounts nonneg distinct

theorem follows_exit (ended : Loop S t .ended g) : (outline S).Follows t pthread_exit g (Loop S t) := by
  refine follows_then (follows_one trivial ?_)
  rintro _ _ rfl
  exact ended

theorem follows_parser_file {todo : List Command} (suffix : todo <:+ S.files i) :
    (outline S).Follows (.atm i) (parser_file i todo) (.home todo) (Loop S (.atm i)) := by
  cases todo with
  | nil => exact follows_exit rfl
  | cons c rest =>
    have member : c ∈ S.files i := suffix.subset (List.mem_cons_self ..)
    refine follows_seq (follows_perform (fun holds => S.amounts holds i c member) fun holds => S.targets holds i c member) ?_
    rintro _ _ rfl
    exact ⟨rfl,(List.suffix_cons c rest).trans suffix⟩

/-! ### The status printer -/

variable {done : List (Int × Ref)} {it : Option (Int × Ref)} {p q : Phase} {key : Int} {r : Ref}

theorem follows_accounts_status_print :
    (outline S).Follows .accounts_print accounts_status_print (.home []) (Loop S .accounts_print) := by
  refine follows_then (follows_one trivial ?_)
  rintro (flag : Bool) _ rfl
  cases flag with
  | false => exact follows_exit rfl
  | true =>
    rw [if_pos rfl]
    refine follows_then (follows_one trivial ?_)
    rintro _ _ rfl
    refine follows_then (follows_lock_write rfl ⟨.inl rfl,fun _ => rfl,rfl,rfl⟩ ?_)
    refine follows_then (follows_one ⟨rfl,put_phase_self,trivial⟩ ?_)
    rintro _ _ rfl
    refine follows_then (follows_one ⟨by simp [View.Held,Phase.inside],rfl,fun r => by simp [View.home]⟩ ?_)
    rintro it _ rfl
    refine ⟨[],[],?_,rfl,rfl⟩
    constructor <;> simp [View.visit,View.home,View.put,View.Quiet]

theorem follows_print_accounts (looped : Loop S .accounts_print (.print_accounts it) g) :
    (outline S).Follows .accounts_print (print_accounts it) g (Loop S .accounts_print) := by
  obtain ⟨done,rows,passing,shown,printed⟩ := looped
  cases it with
  | none =>
    refine follows_then (follows_one (.inr passing.list) ?_)
    rintro (b : Int) _ ⟨_,⟨_,read,_⟩ | ⟨_,rfl⟩⟩
    · rw [passing.bank] at read; cases read
    refine follows_then (follows_one ⟨rfl,passing.list,done,rows,passing.pass,shown,printed,rfl⟩ ?_)
    rintro _ _ rfl
    refine follows_then (follows_unlock_write passing.list (.inl ⟨passing.list,passing.quiet,passing.settled⟩) ?_)
    have home := leave_home (g := { g with bank := some (b,b) }) passing.quiet passing.transfer passing.logging passing.settled
    rw [home]
    refine follows_then (follows_one trivial ?_)
    rintro _ _ rfl
    refine follows_then (follows_one trivial ?_)
    rintro _ _ rfl
    exact congrArg View.home passing.todo
  | some e =>
    obtain ⟨key,r⟩ := e
    have held := BankInvariant.held_of_writing passing.list
    have looked : g.looked key = some (some r) := by simp [passing.looked]
    refine follows_then (follows_lock_for_read (passing.quiet r)
      ⟨.inl (passing.quiet r),held,fun x _ => passing.quiet x,passing.transfer,passing.logging⟩ ?_)
    refine follows_then (follows_one (.inl ⟨key,looked⟩) ?_)
    rintro id _ ⟨rfl,_⟩
    refine follows_then (follows_balance (by simp [Phase.inside]) (.inl ⟨key,looked⟩) (passing.read r) fun b _ => ?_)
    refine follows_then (follows_one (.inl ⟨key,looked⟩) ?_)
    rintro pw _ rfl
    refine follows_then (follows_one ⟨rfl,by simpa using passing.list,done,key,r,rows,passing.pass,by simp,shown⟩ ?_)
    rintro _ _ ⟨done',key',r',rows',passed,before,rfl⟩
    cases passing.pass.symm.trans passed
    cases shown.symm.trans before
    refine follows_then (follows_unlock_from_read put_phase_self
      ⟨.inr put_phase_self,by simpa [View.Held] using held,fun x other => ?_,passing.transfer,passing.logging⟩ ?_)
    · simpa [put_other other] using passing.quiet x
    refine follows_then (follows_one ⟨passing.settled,fun x => ?_,done,r,passing.pass⟩ ?_)
    · by_cases same : x = r
      · subst same; simp [View.forget]
      · simpa [View.forget,View.put,same] using passing.quiet x
    rintro it _ ⟨done',r',passed,rfl⟩
    cases passing.pass.symm.trans passed
    refine ⟨done ++ [(key,r)],rows ++ [(r,b)],?_,rfl,by simp [printed]⟩
    refine ⟨?_,fun x => ?_,passing.transfer,passing.logging,passing.settled,fun x => ?_,rfl,passing.todo,rfl,fun _ => rfl⟩
    · simpa [View.visit,View.forget,View.put] using passing.list
    · by_cases same : x = r
      · subst same; simp [View.visit,View.forget,View.put]
      · simpa [View.visit,View.forget,View.put,same] using passing.quiet x
    · by_cases same : x = r
      · subst same; simp [View.visit,View.forget]
      · simpa [View.visit,View.forget,View.put,same] using passing.read x

/-! ### The fee collector -/

theorem follows_fee_collection :
    (outline S).Follows .fee_collection fee_collection (.home []) (Loop S .fee_collection) := by
  refine follows_then (follows_one trivial ?_)
  rintro (flag : Bool) _ rfl
  cases flag with
  | false => exact follows_exit rfl
  | true =>
    rw [if_pos rfl]
    refine follows_then (follows_one trivial ?_)
    rintro (rand : Nat) _ rfl
    refine follows_then (follows_lock_list_for_read home_outside ?_)
    refine follows_then (follows_one ⟨BankInvariant.held_of_reading put_phase_self,rfl,fun r => by simp [View.home]⟩ ?_)
    rintro it _ rfl
    have low := Nat.mod_lt rand (show MAX_FEE > 0 by decide)
    refine ⟨by omega,by unfold MAX_FEE at low ⊢; omega,[],?_⟩
    constructor <;> simp [View.visit,View.home,View.put,View.Quiet]

theorem follows_charge_accounts {rate : Nat} (looped : Loop S .fee_collection (.charge_accounts rate it) g) :
    (outline S).Follows .fee_collection (charge_accounts rate it) g (Loop S .fee_collection) := by
  obtain ⟨low,high,done,passing⟩ := looped
  cases it with
  | none =>
    refine follows_then (follows_unlock_list_from_read passing.list passing.quiet passing.transfer passing.logging passing.settled ?_)
    exact congrArg View.home passing.todo
  | some e =>
    obtain ⟨key,r⟩ := e
    have held := BankInvariant.held_of_reading passing.list
    have looked : g.looked key = some (some r) := by simp [passing.looked]
    have only : ∀ k, k ≠ key → g.looked k = none := fun k other => by simp [passing.looked,Ne.symm other]
    refine follows_then (follows_lock_write (passing.quiet r)
      ⟨.inl (passing.quiet r),held,fun x _ => .inl (passing.quiet x),passing.logging⟩ ?_)
    have list : (g.put (.account r) .writing).phase .account_list = .reading := by simpa using passing.list
    have steady : Steady (g.put (.account r) .writing) := by
      intro x
      by_cases same : x = r
      · subst same; exact .inr (by simp [Phase.inside])
      · exact .inl (by simpa [put_other same] using passing.quiet x)
    refine follows_then (follows_balance (by simp [Phase.inside]) (.inl ⟨key,looked⟩) (passing.read r) fun c above => ?_)
    refine follows_then (follows_one (.inl ⟨rfl,list⟩) ?_)
    rintro (b : Int) _ ⟨aboveBank,⟨_,read,_⟩ | ⟨_,rfl⟩⟩
    · rw [show (g.put (.account r) .writing).bank = g.bank from rfl,passing.bank] at read; cases read
    refine follows_then (follows_one ⟨rfl,list,⟨r,put_phase_self⟩,⟨b,b,rfl⟩,fun holds => ?_⟩ ?_)
    · have : (0 : Int) ≤ b := aboveBank holds
      have : 0 ≤ fee c rate := fee_nonneg (above holds)
      omega
    rintro _ _ ⟨_,_,read,rfl⟩
    cases read
    refine follows_then (follows_balance_again (c := c) (a := c) (by simp [Phase.inside]) (.inl ⟨key,looked⟩) (by simp) fun _ => ?_)
    refine follows_then (follows_set_balance (c := c) (a := c) (by simp) put_phase_self list looked (by simp) (fun holds => ?_) ?_)
    · have := fee_le (above holds) high
      omega
    refine follows_then (follows_one ⟨by simpa [View.Held] using held,passing.logging,steady⟩ ?_)
    rintro _ _ rfl
    refine follows_then (follows_one (.inl ⟨key,looked⟩) ?_)
    rintro (id : Int) _ ⟨rfl,named⟩
    have same : id = key := named key looked
    subst same
    refine follows_then (follows_one ⟨rfl,by simpa [View.Held] using held,?_⟩ ?_)
    · exact reports_commission c b rfl looked only (by simp) passing.settled rfl
    rintro _ _ rfl
    refine follows_then (follows_one rfl ?_)
    rintro _ _ rfl
    refine follows_then (follows_unlock_write put_phase_self (.inl ⟨put_phase_self,commit_clean,?_⟩) ?_)
    · rintro _ _ known
      cases known
      rfl
    refine follows_then (follows_one ⟨rfl,fun x => ?_,done,r,passing.pass⟩ ?_)
    · by_cases same : x = r
      · subst same; simp [View.forget]
      · simpa [View.forget,View.put,View.commit,same] using passing.quiet x
    rintro it _ ⟨done',r',passed,rfl⟩
    have same : some (done,some (id,r)) = some (done',some (id,r')) := passing.pass.symm.trans passed
    cases same
    refine ⟨low,high,done ++ [(id,r)],?_⟩
    refine ⟨?_,fun x => ?_,passing.transfer,rfl,rfl,fun x => ?_,rfl,congrArg List.tail passing.todo,rfl,fun _ => rfl⟩
    · simpa [View.visit,View.forget,View.put,View.commit] using passing.list
    · by_cases same : x = r
      · subst same; simp [View.visit,View.forget,View.put]
      · simpa [View.visit,View.forget,View.put,View.commit,same] using passing.quiet x
    · by_cases same : x = r
      · subst same; simp [View.visit,View.forget]
      · simpa [View.visit,View.forget,View.put,View.commit,same] using passing.read x

/-! ### All threads -/

theorem follows_main {n joined : Nat} : (outline S).Follows .main (main n joined) (.home []) (Loop S .main) := by
  unfold main
  by_cases waits : joined < n
  · rw [if_pos waits]
    refine follows_then (follows_one home_outside ?_)
    rintro _ _ rfl
    exact rfl
  · rw [if_neg waits]
    refine follows_then (follows_one trivial ?_)
    rintro _ _ rfl
    exact follows_exit rfl

theorem round_follows {n : Nat} {point : Ctl} {p : Code Ctl} (looped : Loop S t point g) (started : rounds n t point = some p) :
    (outline S).Follows t p g (Loop S t) := by
  cases t <;> cases point <;> simp only [Loop,rounds,reduceCtorEq,Option.some.injEq] at looped started <;> subst started
  case atm.parser_file => obtain ⟨rfl,suffix⟩ := looped; exact follows_parser_file suffix
  case accounts_print.accounts_status_print => subst looped; exact follows_accounts_status_print
  case accounts_print.print_accounts => exact follows_print_accounts looped
  case fee_collection.fee_collection => subst looped; exact follows_fee_collection
  case fee_collection.charge_accounts => exact follows_charge_accounts looped
  case main.main => subst looped; exact follows_main

/-- The outline of the bank is sound. -/
theorem bank_sound (S : Setting) (n : Nat) : (outline S).Sound (bank n) where
  act := BankSound.act_sound
  round := round_follows

theorem initial_holds (S : Setting) (rand : Nat → Nat) : (outline S).Holds (initial S.files rand) := by
  refine ⟨_,BankInvariant.inv_initial S rand,fun t => ?_⟩
  cases t with
  | atm i => exact ⟨rfl,List.suffix_rfl⟩
  | _ => rfl

/-- The outline holds in every state of the bank. -/
theorem reachable_holds {n : Nat} {rand : Nat → Nat} {c : Config} (reachable : Reachable n S.files rand c) :
    (outline S).Holds c :=
  (bank_sound S n).reaches (initial_holds S rand) reachable

end StructureOfOs.BankFollows
