import StructureOfOs.BankState

/-!
The reader/writer locks of the account list and of an account, which atm.cpp,
bank.cpp and account.cpp write out with the same steps, and the functions of
account.cpp on an account's data.
-/
namespace StructureOfOs.Accounts
open StructureOfOs.Programs StructureOfOs.BankState

/-! ### The single operations, as programs -/

abbrev pthread_mutex_lock (m : Mutex) : Code Unit := .call (Act.lock m)
abbrev pthread_mutex_unlock (m : Mutex) : Code Unit := .call (Act.unlock m)
abbrev readers (l : RwId) : Code Int := .call (Act.readers l)
abbrev set_readers (l : RwId) (n : Int) : Code Unit := .call (Act.set_readers l n)
abbrev accounts_print : Code Bool := .call Act.accounts_print
abbrev set_accounts_print (flag : Bool) : Code Unit := .call (Act.set_accounts_print flag)
abbrev find (account_id : Int) : Code (Option Ref) := .call (Act.find account_id)
abbrev first : Code (Option (Int × Ref)) := .call Act.first
abbrev after (account_id : Int) : Code (Option (Int × Ref)) := .call (Act.after account_id)
abbrev new_account (id balance : Int) (password : String) : Code Ref := .call (Act.new_account id balance password)
abbrev id_of (r : Ref) : Code Int := .call (Act.id r)
abbrev password_of (r : Ref) : Code String := .call (Act.password r)
abbrev deleted (r : Ref) : Code Bool := .call (Act.deleted r)
abbrev balance_of (r : Ref) : Code Int := .call (Act.balance r)
abbrev set_balance (r : Ref) (balance : Int) : Code Unit := .call (Act.set_balance r balance)
abbrev bank_balance : Code Int := .call Act.bank_balance
abbrev set_bank_balance (balance : Int) : Code Unit := .call (Act.set_bank_balance balance)
abbrev print (output : Output) : Code Unit := .call (Act.print output)

/-- The way in of a reader: the first one takes the write mutex. -/
def lock_for_read (l : RwId) : Code Unit := do
  pthread_mutex_lock (.lock_read l)
  let n ← readers l
  set_readers l (n + 1)
  let n ← readers l
  if n = 1 then
    pthread_mutex_lock (.lock_write l)
    pthread_mutex_unlock (.lock_read l)
  else
    pthread_mutex_unlock (.lock_read l)
/-- The way out of a reader: the last one frees the write mutex. -/
def unlock_from_read (l : RwId) : Code Unit := do
  pthread_mutex_lock (.lock_read l)
  let n ← readers l
  set_readers l (n - 1)
  let n ← readers l
  if n = 0 then
    pthread_mutex_unlock (.lock_write l)
    pthread_mutex_unlock (.lock_read l)
  else
    pthread_mutex_unlock (.lock_read l)

/-! ### The account list: atm::lock_account_list_for_read and bank::lock_account_list_for_... -/

def lock_account_list_for_read : Code Unit := lock_for_read .account_list
def unlock_account_list_from_read : Code Unit := unlock_from_read .account_list
def lock_account_list_for_write : Code Unit := pthread_mutex_lock (.lock_write .account_list)
def unlock_account_list_from_write : Code Unit := pthread_mutex_unlock (.lock_write .account_list)

/-! ### account.cpp -/

def lock_for_readres (r : Ref) : Code Unit := lock_for_read (.account r)
def unlock_account_from_read (r : Ref) : Code Unit := unlock_from_read (.account r)
def lock_for_write (r : Ref) : Code Unit := pthread_mutex_lock (.lock_write (.account r))
def unlock_from_write (r : Ref) : Code Unit := pthread_mutex_unlock (.lock_write (.account r))

def vallid_password (r : Ref) (password : String) : Code Bool := do
  let own ← password_of r
  return own = password

def deposit (r : Ref) (amount : Int) : Code Unit := do
  let balance ← balance_of r
  set_balance r (balance + amount)

def withdrawl (r : Ref) (amount : Int) : Code Bool := do
  let balance ← balance_of r
  if balance < amount then
    return false
  else
    let balance ← balance_of r
    set_balance r (balance - amount)
    return true

end StructureOfOs.Accounts
