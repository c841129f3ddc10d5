import StructureOfOs.Atm
import Mathlib.Data.Rat.Floor
import Mathlib.Algebra.Order.Round

/-!
bank.cpp: the status printer, the fee collector, the destructor's `free_accounts`,
and the threads that `main` starts. A loop of the source is a point that its
thread comes back to. ATM `id` runs the commands `files id`; `main` waits for the
ATMs 1 to `n` and then ends the loops of the other two threads.
-/
namespace StructureOfOs.Bank
open StructureOfOs.Programs StructureOfOs.BankState StructureOfOs.Accounts StructureOfOs.Atm

def MAX_FEE : Nat := 5
def PERCENTAGE : Rat := 100

/-- C's `round`: to the nearest integer, halves away from zero. -/
def round (x : Rat) : Int := if 0 ≤ x then ⌊x + 1 / 2⌋ else -⌊-x + 1 / 2⌋
/-- The fee on a balance at a rate in percent. -/
def fee (balance : Int) (rand_fee : Nat) : Int := round ((balance : Rat) * ((rand_fee : Rat) / PERCENTAGE))

theorem fee_nonneg {balance : Int} {rand_fee : Nat} (above : 0 ≤ balance) : 0 ≤ fee balance rand_fee := by
  have scaled : (0 : Rat) ≤ (balance : Rat) * ((rand_fee : Rat) / PERCENTAGE) := by
    have : (0 : Rat) ≤ balance := by exact_mod_cast above
    unfold PERCENTAGE
    positivity
  rw [fee,round,if_pos scaled]
  exact Int.floor_nonneg.mpr (by linarith)
/-- No rate of the fee collector takes more than the balance. -/
theorem fee_le {balance : Int} {rand_fee : Nat} (above : 0 ≤ balance) (rate : rand_fee ≤ MAX_FEE) :
    fee balance rand_fee ≤ balance := by
  have above' : (0 : Rat) ≤ balance := by exact_mod_cast above
  have rate' : (rand_fee : Rat) ≤ 5 := by exact_mod_cast rate
  have scaled : (balance : Rat) * ((rand_fee : Rat) / PERCENTAGE) ≤ balance * (1 / 20) := by
    refine mul_le_mul_of_nonneg_left ?_ above'
    unfold PERCENTAGE
    linarith
  have nonneg : (0 : Rat) ≤ (balance : Rat) * ((rand_fee : Rat) / PERCENTAGE) := by
    unfold PERCENTAGE
    positivity
  rw [fee,round,if_pos nonneg]
  refine Int.lt_add_one_iff.mp (Int.floor_lt.mpr ?_)
  push_cast
  linarith

/-- The point of its outermost loop a thread has passed. The two iterations over
    the accounts come back to their own points, with the iterator. -/
inductive Ctl
  | parser_file (todo : List Command)
  | accounts_status_print
  | print_accounts (it : Option (Int × Ref))
  | fee_collection
  | charge_accounts (rand_fee : Nat) (it : Option (Int × Ref))
  | main (joined : Nat)
  | ended

def pthread_exit : Code Ctl := do
  .call Act.exit
  return .ended

/-- `while(getline(..))` of atm::parser_file, over the commands of the file. -/
def parser_file (this : Nat) : List Command → Code Ctl
  | [] => pthread_exit
  | command :: todo => do
    perform this command
    return .parser_file todo

/-- The head of the printer's loop, up to its iteration over the accounts. -/
def accounts_status_print : Code Ctl := do
  if ← .call Act.progress then
    set_accounts_print true
    lock_account_list_for_write
    print .header
    let it ← first
    return .print_accounts it
  else
    pthread_exit
def print_accounts : Option (Int × Ref) → Code Ctl
  | some (key,r) => do
    lock_for_readres r
    let id ← id_of r
    let balance ← balance_of r
    let password ← password_of r
    print (.row id balance password)
    unlock_account_from_read r
    let it ← after key
    return .print_accounts it
  | none => do
    let balance ← bank_balance
    print (.bank balance)
    unlock_account_list_from_write
    set_accounts_print false
    pthread_mutex_unlock .stdout_print_lock
    return .accounts_status_print

/-- The head of the fee collector's loop, up to its iteration over the accounts. -/
def fee_collection : Code Ctl := do
  if ← .call Act.progress then
    let rand ← .call Act.rand
    let rand_fee := rand % MAX_FEE + 1
    lock_account_list_for_read
    let it ← first
    return .charge_accounts rand_fee it
  else
    pthread_exit
def charge_accounts (rand_fee : Nat) : Option (Int × Ref) → Code Ctl
  | some (key,r) => do
    lock_for_write r
    let balance ← balance_of r
    let fee := fee balance rand_fee
    let bank ← bank_balance
    set_bank_balance (bank + fee)
    let balance ← balance_of r
    set_balance r (balance - fee)
    pthread_mutex_lock .log_print_lock
    let id ← id_of r
    .call (Act.log (.commission rand_fee fee id))
    pthread_mutex_unlock .log_print_lock
    unlock_from_write r
    let it ← after key
    return .charge_accounts rand_fee it
  | none => do
    unlock_account_list_from_read
    return .fee_collection

/-- `main` after it has started the threads: it joins the ATMs, then stops the bank. -/
def main (n joined : Nat) : Code Ctl :=
  if joined < n then do
    .call (Act.join (.atm (joined + 1)))
    return .main (joined + 1)
  else do
    .call (Act.set_progress false)
    pthread_exit

/-- The accounts that bank::free_accounts deletes, in this order. -/
def free_accounts (s : Shared) : List Ref :=
  s.map_of_accounts.entries.map (·.2) ++ s.map_of_deleted_accounts.entries.map (·.2)

def rounds (n : Nat) : Tid → Ctl → Option (Code Ctl)
  | .atm id, .parser_file todo => some (parser_file id todo)
  | _, .accounts_status_print => some accounts_status_print
  | _, .print_accounts it => some (print_accounts it)
  | _, .fee_collection => some fee_collection
  | _, .charge_accounts rand_fee it => some (charge_accounts rand_fee it)
  | _, .main joined => some (main n joined)
  | _, _ => none
/-- The bank with `n` ATMs. -/
def bank (n : Nat) : Machine Tid Shared Act Res Ctl := ⟨run,rounds n⟩

/-- Where each thread starts. -/
def start (files : Nat → List Command) : Tid → Ctl
  | .atm id => .parser_file (files id)
  | .accounts_print => .accounts_status_print
  | .fee_collection => .fee_collection
  | .main => .main 0
abbrev Config := Programs.Config Tid Shared Act Res Ctl
def initial (files : Nat → List Command) (rand : Nat → Nat) : Config :=
  ⟨.initial rand,fun t => ⟨start files t,.ret (start files t)⟩⟩
/-- The states of the bank under every schedule. -/
def Reachable (n : Nat) (files : Nat → List Command) (rand : Nat → Nat) (c : Config) : Prop :=
  (bank n).Reaches (initial files rand) c
theorem reachable_get {n : Nat} {files : Nat → List Command} {rand : Nat → Nat} {schedule : List Tid}
    (ran : ((bank n).runs schedule (initial files rand)).isSome = true) : Reachable n files rand (Option.get _ ran) :=
  ⟨schedule,(Option.some_get ran).symm⟩

end StructureOfOs.Bank
