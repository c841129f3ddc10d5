import StructureOfOs.Accounts

/-!
atm.cpp: the six operations of an ATM, step by step with every exit. An iterator
`it` is the account it points to, `none` for `end()`; `it->second` read through
the iterator that `closing_account` has just erased is counted as that account.
-/
namespace StructureOfOs.Atm
open StructureOfOs.Programs StructureOfOs.BankState StructureOfOs.Accounts

/-- A line of an ATM's file. -/
inductive Command
  | create_account (account_id : Int) (password : String) (balance : Int)
  | deposit_to_account (account_id : Int) (password : String) (amount : Int)
  | withdrawl_from_account (account_id : Int) (password : String) (amount : Int)
  | balance_check (account_id : Int) (password : String)
  | closing_account (account_id : Int) (password : String)
  | transfer_between_accounts (src_account_id : Int) (src_password : String) (dest_account_id : Int) (amount : Int)
deriving DecidableEq, Repr

/-- One line written under the log's mutex. -/
def log_print (line : Line) : Code Unit := do
  pthread_mutex_lock .log_print_lock
  .call (Act.log line)
  pthread_mutex_unlock .log_print_lock
/-- "if a writer wants to write in map_of_acounts -> go to sleep" -/
def wait_for_writer : Code Unit := do
  if ← accounts_print then pthread_mutex_lock .stdout_print_lock else return ()
/-- The end of a writer's section. -/
def finish_writing : Code Unit := do
  pthread_mutex_unlock (.lock_write .account_list)
  set_accounts_print false
  pthread_mutex_unlock .stdout_print_lock

/-- `it == map_of_accounts->end() || it->second->deleted` -/
def does_not_exsit : Option Ref → Code Bool
  | none => return true
  | some r => deleted r

def create_account (this : Nat) (account_id : Int) (password : String) (balance : Int) : Code Unit := do
  set_accounts_print true
  pthread_mutex_lock (.lock_write .account_list)
  let it ← find account_id
  if ← does_not_exsit it then
    let r ← new_account account_id balance password
    lock_for_write r
    .call (Act.insert account_id r)
    log_print (.created this account_id password balance)
    unlock_from_write r
    finish_writing
  else
    log_print (.error this .same_id_exists)
    finish_writing

def deposit_to_account (this : Nat) (account_id : Int) (password : String) (amount : Int) : Code Unit := do
  wait_for_writer
  lock_account_list_for_read
  let it ← find account_id
  match it with
  -- the account has never been created
  | none =>
    log_print (.error this (.does_not_exist account_id))
    unlock_account_list_from_read
  | some r =>
    lock_for_write r
    if ← deleted r then
      log_print (.error this (.does_not_exist account_id))
      unlock_from_write r
      unlock_account_list_from_read
    else if ← vallid_password r password then
      deposit r amount
      pthread_mutex_lock .log_print_lock
      let balance ← balance_of r
      .call (Act.log (.deposited this account_id balance amount))
      pthread_mutex_unlock .log_print_lock
      unlock_from_write r
      unlock_account_list_from_read
    else
      log_print (.error this (.incorrect_password account_id))
      unlock_from_write r
      unlock_account_list_from_read

def withdrawl_from_account (this : Nat) (account_id : Int) (password : String) (amount : Int) : Code Unit := do
  wait_for_writer
  lock_account_list_for_read
  let it ← find account_id
  match it with
  -- the account has never been created
  | none =>
    log_print (.error this (.does_not_exist account_id))
    unlock_account_list_from_read
  | some r =>
    lock_for_write r
    if ← deleted r then
      log_print (.error this (.does_not_exist account_id))
      unlock_from_write r
      unlock_account_list_from_read
    else if ← vallid_password r password then
      if ← withdrawl r amount then
        pthread_mutex_lock .log_print_lock
        let balance ← balance_of r
        .call (Act.log (.withdrew this account_id balance amount))
        pthread_mutex_unlock .log_print_lock
        unlock_from_write r
        unlock_account_list_from_read
      else
        log_print (.error this (.lower_balance account_id amount))
        unlock_from_write r
        unlock_account_list_from_read
    else
      log_print (.error this (.incorrect_password account_id))
      unlock_from_write r
      unlock_account_list_from_read

def closing_account (this : Nat) (account_id : Int) (password : String) : Code Unit := do
  set_accounts_print true
  pthread_mutex_lock (.lock_write .account_list)
  let it ← find account_id
  match it with
  -- the account has never been created
  | none =>
    log_print (.error this (.does_not_exist account_id))
    finish_writing
  | some r =>
    lock_for_write r
    if ← deleted r then
      log_print (.error this (.does_not_exist account_id))
      unlock_from_write r
      finish_writing
    else if ← vallid_password r password then
      let id ← id_of r
      .call (Act.insert_deleted id r)
      .call (Act.set_deleted r)
      .call (Act.erase account_id)
      pthread_mutex_lock .log_print_lock
      let balance ← balance_of r
      .call (Act.log (.closed this account_id balance))
      pthread_mutex_unlock .log_print_lock
      unlock_from_write r
      finish_writing
    else
      log_print (.error this (.incorrect_password account_id))
      unlock_from_write r
      finish_writing

def balance_check (this : Nat) (account_id : Int) (password : String) : Code Unit := do
  wait_for_writer
  lock_account_list_for_read
  let it ← find account_id
  match it with
  -- the account has never been created
  | none =>
    log_print (.error this (.does_not_exist account_id))
    unlock_account_list_from_read
  | some r =>
    lock_for_readres r
    if ← deleted r then
      log_print (.error this (.does_not_exist account_id))
      unlock_account_from_read r
      unlock_account_list_from_read
    else if ← vallid_password r password then
      pthread_mutex_lock .log_print_lock
      let balance ← balance_of r
      .call (Act.log (.checked this account_id balance))
      pthread_mutex_unlock .log_print_lock
      unlock_account_from_read r
      unlock_account_list_from_read
    else
      log_print (.error this (.incorrect_password account_id))
      unlock_account_from_read r
      unlock_account_list_from_read

/-- `it_src->second->deleted || it_dest->second->deleted` -/
def either_deleted (src dest : Ref) : Code Bool := do
  if ← deleted src then return true else deleted dest
/-- The end of a transfer that has locked its two accounts. -/
def finish_transfer (src dest : Ref) : Code Unit := do
  unlock_from_write src
  unlock_from_write dest
  pthread_mutex_unlock .transfer_lock
  unlock_account_list_from_read

def transfer_between_accounts (this : Nat) (src_account_id : Int) (src_password : String)
    (dest_account_id : Int) (amount : Int) : Code Unit := do
  wait_for_writer
  lock_account_list_for_read
  pthread_mutex_lock .transfer_lock
  let it_src ← find src_account_id
  let it_dest ← find dest_account_id
  match it_src, it_dest with
  -- the src_account has never been created
  | none, _ =>
    log_print (.error this (.does_not_exist src_account_id))
    pthread_mutex_unlock .transfer_lock
    unlock_account_list_from_read
  -- the dest_account has never been created
  | some _, none =>
    log_print (.error this (.does_not_exist dest_account_id))
    pthread_mutex_unlock .transfer_lock
    unlock_account_list_from_read
  | some src, some dest =>
    lock_for_write src
    lock_for_write dest
    if ← either_deleted src dest then
      if ← deleted src then
        log_print (.error this (.does_not_exist src_account_id))
        finish_transfer src dest
      else
        log_print (.error this (.does_not_exist dest_account_id))
        finish_transfer src dest
    else if ← vallid_password src src_password then
      if ← withdrawl src amount then
        let balance ← balance_of dest
        set_balance dest (balance + amount)
        pthread_mutex_lock .log_print_lock
        let src_balance ← balance_of src
        let dest_balance ← balance_of dest
        .call (Act.log (.transferred this amount src_account_id dest_account_id src_balance dest_balance))
        pthread_mutex_unlock .log_print_lock
        finish_transfer src dest
      else
        log_print (.error this (.lower_balance src_account_id amount))
        finish_transfer src dest
    else
      log_print (.error this (.incorrect_password src_account_id))
      finish_transfer src dest

/-- The switch of `parser_file` on a line's action. -/
def perform (this : Nat) : Command → Code Unit
  | .create_account account_id password balance => create_account this account_id password balance
  | .deposit_to_account account_id password amount => deposit_to_account this account_id password amount
  | .withdrawl_from_account account_id password amount => withdrawl_from_account this account_id password amount
  | .balance_check account_id password => balance_check this account_id password
  | .closing_account account_id password => closing_account this account_id password
  | .transfer_between_accounts src_account_id src_password dest_account_id amount =>
    transfer_between_accounts this src_account_id src_password dest_account_id amount

end StructureOfOs.Atm
