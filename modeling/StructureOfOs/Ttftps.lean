import StructureOfOs.ServerPasses

/-!
ttftps.cpp: the loop of `main` that handles one request after the other, with
`wrq_parser` of server.cpp. The struct of the request outlives its round, and what lies
behind it and behind the receive buffer in memory is not known: each round takes it as
a parameter. A C string that has no NUL within what is known has no meaning.
-/
namespace StructureOfOs.Ttftps
open StructureOfOs.Server StructureOfOs.ServerPasses

structure WRQ where
  opcode : UInt16
  file_name : Bytes
deriving DecidableEq, Repr
/-- `WRQ wrq_strcut = {0}` -/
def WRQ.zero : WRQ := ⟨0,List.replicate (FILE_NAME_SIZE + 1) 0⟩

/-- What a round finds behind `wrq_buff` and behind `wrq_strcut`. -/
structure Memory where
  behind_buff : Bytes
  behind_struct : Bytes

/-! ### C strings -/

/-- The C string that starts here, if it ends within these bytes. -/
def c_string (bytes : Bytes) : Option Name := if 0 ∈ bytes then some (bytes.takeWhile (· ≠ 0)) else none
def strlen (bytes : Bytes) : Option Nat := (c_string bytes).map List.length
/-- At most `n` bytes of the string, filled up with NULs to `n`: with a string of `n` bytes
    or more no NUL is written. -/
def strncpy (dest src : Bytes) (n : Nat) : Bytes :=
  let copied := (src.takeWhile (· ≠ 0)).take n
  copied ++ List.replicate (n - copied.length) 0 ++ dest.drop n

/-! ### The parser -/

/-- The struct after a request, unless bytes are copied past its end. -/
def wrq_parse (wrq_struct : WRQ) (wrq_buff behind_buff : Bytes) : Option WRQ := do
  let n ← strlen (wrq_buff.drop 2 ++ behind_buff)
  if n ≤ FILE_NAME_SIZE + 1 then
    return ⟨opcode wrq_buff,strncpy wrq_struct.file_name (wrq_buff.drop 2 ++ behind_buff) n⟩
  else
    none

/-! ### main -/

/-- After `fopen` for writing the file is there, and empty. -/
def opened (w : World) (file_name : Name) : World :=
  { w with files := Function.update w.files file_name (some []), disk := w.disk ++ [.fopen file_name] }
def fopen (file_name : Name) : Process Bool := do
  if ← attempt .fopen then
    modify (opened · file_name)
    return true
  else
    return false
def fclose (file_name : Name) : Process Bool := do
  if ← attempt .fclose then
    modify (·.closed file_name)
    return true
  else
    return false

/-- How a request has been answered. -/
inductive Answer
  | unknown_user
  | already_exists
  | uploaded (how : End)
deriving DecidableEq, Repr

/-- The conversion to `short int`. -/
def short_int (n : UInt16) : Int := if n.toNat < 2 ^ 15 then n.toNat else n.toNat - 2 ^ 16

/-- The last branch of a round: the upload of a file that does not exist yet. -/
def upload (max_num_of_resends : UInt16) (file_name : Name) (client_addr : Addr) : Process End := do
  if ← fopen file_name then
    send_ack 0 client_addr
    let how ← recieving_data_mode client_addr file_name (short_int max_num_of_resends)
    if ← fclose file_name then
      return how
    else
      delete_file file_name
      sys_call_error
  else
    sys_call_error

/-- What `main` makes of a request after `recvfrom`: the struct and the answer. The name is
    read out of the struct in the second condition, and wherever it is used after that. -/
def serve (max_num_of_resends : UInt16) (memory : Memory) (wrq_strcut : WRQ) (wrq_buff : Bytes) (client_addr : Addr) :
    Process (WRQ × Answer) := do
  match wrq_parse wrq_strcut wrq_buff memory.behind_buff with
  | none => throw .overrun
  | some wrq_strcut =>
    if wrq_strcut.opcode ≠ WRQ_OPCODE then
      send_error DATA_BEFORE_WRQ "Unknown user" client_addr
      return (wrq_strcut,.unknown_user)
    else
      match c_string (wrq_strcut.file_name ++ memory.behind_struct) with
      | none => throw .overrun
      | some file_name =>
        if ← file_is_exist file_name then
          send_error FILE_ALREADAY_EXSITS "File already exists" client_addr
          return (wrq_strcut,.already_exists)
        else
          let how ← upload max_num_of_resends file_name client_addr
          return (wrq_strcut,.uploaded how)

/-- A round of `main`'s loop, from the `memset`s on. -/
def main_round (max_num_of_resends : UInt16) (memory : Memory) (wrq_strcut : WRQ) (client_addr : Addr) :
    Process (WRQ × Answer) := do
  let (received_msg_size,wrq_buff,client_addr) ← recvfrom cleared client_addr
  if received_msg_size < 0 then sys_call_error else serve max_num_of_resends memory wrq_strcut wrq_buff client_addr

end StructureOfOs.Ttftps
