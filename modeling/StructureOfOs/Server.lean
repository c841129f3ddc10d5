import StructureOfOs.Loops
import Mathlib.Algebra.Group.Int.Defs
import Mathlib.Algebra.Group.Nat.Defs
import Mathlib.Data.List.Basic
import Mathlib.Logic.Function.Basic
import Mathlib.Order.Basic

/-!
The upload server's system calls and server.cpp. The world is what happens at the
socket, the answers of the system calls that may fail, and what the server has sent
and done to the files. A session's variables are a record that each pass of its loop
takes and returns. The bytes of a packet are as on the wire, a 16 bit field with its
high byte first.
-/
namespace StructureOfOs.Server
open StructureOfOs.Loops

def DATA_SIZE : Nat := 512
def FILE_NAME_SIZE : Nat := 514
def PACKET_SIZE : Nat := 516
def ERROR_OPCODE : UInt16 := 1
def WRQ_OPCODE : UInt16 := 2
def DATA_OPCODE : UInt16 := 3
def ACK_OPCODE : UInt16 := 4
def INVALID_BLOCK_NUM : UInt16 := 0
def REACHED_MAX_RESENDS : UInt16 := 0
def WRQ_FROM_SERVED_CLIENT : UInt16 := 4
def FILE_ALREADAY_EXSITS : UInt16 := 6
def DATA_BEFORE_WRQ : UInt16 := 7

abbrev Bytes := List UInt8
/-- A file's name, as a C string without its NUL. -/
abbrev Name := Bytes
structure Addr where
  s_addr : UInt32
  sin_port : UInt16
deriving DecidableEq, Repr
structure Datagram where
  sender : Addr
  bytes : Bytes
deriving DecidableEq, Repr
/-- What happens at the socket: nothing for longer than the timeout, or a datagram. -/
inductive Event
  | timeout
  | datagram (d : Datagram)
deriving DecidableEq, Repr

/-! ### Packets -/

def ntohs (high low : UInt8) : UInt16 := .ofNat (high.toNat * 256 + low.toNat)
def htons (n : UInt16) : Bytes := [.ofNat (n.toNat / 256),.ofNat (n.toNat % 256)]

/-- What the server sends: an ACK, or an ERROR with its text. -/
inductive Packet
  | ACK (block_number : UInt16)
  | ERROR (error_code : UInt16) (error_message : String)
deriving DecidableEq, Repr
/-- The packet on the wire. The text field has DATA_SIZE bytes. -/
def Packet.bytes : Packet → Bytes
  | .ACK block_number => htons ACK_OPCODE ++ htons block_number
  | .ERROR error_code error_message =>
    htons ERROR_OPCODE ++ htons error_code ++ (error_message.toUTF8.toList ++ List.replicate DATA_SIZE 0).take DATA_SIZE

/-- The two byte field that starts at byte `i` of a buffer, after `ntohs`. -/
def field (buff : Bytes) (i : Nat) : UInt16 := ntohs (buff.getD i 0) (buff.getD (i + 1) 0)
/-- `BUFFER.opcode` -/
def opcode (buff : Bytes) : UInt16 := field buff 0
/-- `BUFFER.block_number` -/
def block_number (buff : Bytes) : UInt16 := field buff 2
/-- `BUFFER.data` -/
def data (buff : Bytes) : Bytes := buff.drop (PACKET_SIZE - DATA_SIZE)

theorem ntohs_htons (n : UInt16) : field (htons n) 0 = n := by
  have below := n.toNat_lt
  refine UInt16.toNat.inj ?_
  simp [field,htons,ntohs]
  omega

/-! ### The world and its system calls -/

inductive SysCall
  | select
  | recvfrom
  | sendto
  | fopen
  | fwrite
  | fclose
deriving DecidableEq, Repr
/-- Whether the coming system calls fail (those beyond the list do not), and which
    ones have failed. -/
structure Oracle where
  faults : List Bool
  failed : List SysCall
deriving DecidableEq, Repr
/-- What is done to a file under which name. Of the bytes of a write that fails a part may
    be in the file. -/
inductive FileCall
  | exists_ (name : Name)
  | fopen (name : Name)
  | fwrite (name : Name) (bytes : Bytes)
  | fwrite_failed (name : Name) (bytes : Bytes)
  | fclose (name : Name)
  | remove (name : Name)
deriving DecidableEq, Repr
/-- `files` are the files with all that has been written to them. What of an open file is on
    the disk already is up to stdio, and can be told from the calls. -/
structure World where
  events : List Event
  oracle : Oracle
  sent : List (Addr × Packet)
  files : Name → Option Bytes
  disk : List FileCall

/-- Why the server does not go on: `sys_call_error` has ended the process, an access
    outside an object has no meaning, or no event is left to wait for. -/
inductive Stop
  | exit
  | overrun
  | waiting
deriving DecidableEq, Repr
/-- A part of the server's process. -/
abbrev Process := EStateM Stop World

def World.asked (w : World) (oracle : Oracle) : World := { w with oracle := oracle }
def World.said (w : World) (addr : Addr) (packet : Packet) : World := { w with sent := w.sent ++ [(addr,packet)] }
def World.wrote (w : World) (name : Name) (bytes : Bytes) : World :=
  { w with
    files := Function.update w.files name ((w.files name).map (· ++ bytes))
    disk := w.disk ++ [.fwrite name bytes] }
def World.unwritten (w : World) (name : Name) (bytes : Bytes) : World :=
  { w with disk := w.disk ++ [.fwrite_failed name bytes] }
def World.closed (w : World) (name : Name) : World := { w with disk := w.disk ++ [.fclose name] }
def World.removed (w : World) (name : Name) : World :=
  { w with files := Function.update w.files name none, disk := w.disk ++ [.remove name] }

/-- A system call that may fail: whether it succeeds. -/
def attempt (call : SysCall) : Process Bool := do
  let w ← get
  match w.oracle.faults with
  | [] => return true
  | fails :: faults =>
    set (w.asked ⟨faults,if fails then w.oracle.failed ++ [call] else w.oracle.failed⟩)
    return !fails

/-- Whether the socket is reported, -1 or the number of descriptors, and the set that is
    left. With an empty set nothing is ever reported, whatever arrives meanwhile. -/
def select (readfds : Bool) : Process (Int × Bool) := do
  if ← attempt .select then
    let w ← get
    if readfds then
      match w.events with
      | [] => throw .waiting
      | .timeout :: events =>
        set { w with events }
        return (0,false)
      | .datagram _ :: _ => return (1,true)
    else
      set { w with events := w.events.erase .timeout }
      return (0,false)
  else
    return (-1,readfds)

/-- The next datagram of the socket; silence is waited through. -/
def next_datagram : List Event → Option (Datagram × List Event)
  | [] => none
  | .timeout :: events => next_datagram events
  | .datagram d :: events => some (d,events)
/-- Number of bytes received or -1, the buffer and the address variable after it. What
    does not fit into a buffer of PACKET_SIZE bytes is cut off. -/
def recvfrom (buff : Bytes) (addr : Addr) : Process (Int × Bytes × Addr) := do
  if ← attempt .recvfrom then
    let w ← get
    match next_datagram w.events with
    | none => throw .waiting
    | some (d,events) =>
      set { w with events }
      let message := d.bytes.take PACKET_SIZE
      return (message.length,message ++ buff.drop message.length,d.sender)
  else
    return (-1,buff,addr)

/-- Whether the packet was sent. -/
def sendto (addr : Addr) (packet : Packet) : Process Bool := do
  if ← attempt .sendto then
    modify (·.said addr packet)
    return true
  else
    return false

/-- The conversion to `size_t`. -/
def size_t (n : Int) : Nat := (n % 2 ^ 64).toNat
/-- Number of bytes written. To write nothing cannot fail. -/
def fwrite (buff : Bytes) (size : Nat) (file_name : Name) : Process Nat := do
  if DATA_SIZE < size then
    throw .overrun
  else if ← if size = 0 then pure true else attempt .fwrite then
    modify (·.wrote file_name ((data buff).take size))
    return size
  else
    modify (·.unwritten file_name ((data buff).take size))
    return 0

/-! ### server.cpp -/

def sys_call_error {α : Type} : Process α := throw .exit

def send_error (error_code : UInt16) (error_message : String) (client_addr : Addr) : Process Unit := do
  if ← sendto client_addr (.ERROR error_code error_message) then return () else sys_call_error

def send_ack (block_number : UInt16) (client_addr : Addr) : Process Unit := do
  if ← sendto client_addr (.ACK block_number) then return () else sys_call_error

def file_is_exist (file_name : Name) : Process Bool := do
  modify fun w => { w with disk := w.disk ++ [.exists_ file_name] }
  return ((← get).files file_name).isSome

/-- `remove` succeeds on a file that is there. -/
def delete_file (file_name : Name) : Process Unit := do
  if ((← get).files file_name).isSome then modify (·.removed file_name) else sys_call_error

/-- The variables of `recieving_data_mode`; `readfds` says whether the socket is in the set. -/
structure Session where
  readfds : Bool
  block_number : UInt16
  missed_packets : Nat
  message_size : Nat
  buff : Bytes
  curr_client_addr : Addr
deriving DecidableEq, Repr
def cleared : Bytes := List.replicate PACKET_SIZE 0
/-- The session when it first waits, after the `memset` at the head of the do loop. -/
def Session.start : Session := ⟨true,0,0,0,cleared,⟨0,0⟩⟩

/-- Which way `recieving_data_mode` returns. -/
inductive End
  | complete
  | abandoned
  | bad_block
  | unexpected
deriving DecidableEq, Repr
/-- How a pass of `while(true)` ends. -/
inductive Wait
  | again (s : Session)
  | break_ (s : Session)
  | return_ (how : End)

section
variable (client_addr : Addr) (file_name : Name) (max_num_of_resends : Int)

/-- A pass of `while(true)`. `message_size < 0` compares an unsigned number. -/
def wait_for_data (s : Session) : Process Wait := do
  let (data_to_read,readfds) ← select s.readfds
  let s := { s with readfds }
  if data_to_read < 0 then
    delete_file file_name
    sys_call_error
  else if data_to_read = 0 then
    let s := { s with missed_packets := s.missed_packets + 1 }
    if s.missed_packets > max_num_of_resends then
      send_error REACHED_MAX_RESENDS "Abandoning file transmission" client_addr
      delete_file file_name
      return .return_ .abandoned
    else
      send_ack s.block_number client_addr
      return .again s
  else
    let (received,buff,curr_client_addr) ← recvfrom s.buff s.curr_client_addr
    let s := { s with message_size := size_t received, buff, curr_client_addr }
    if client_addr.s_addr ≠ s.curr_client_addr.s_addr ∨ client_addr.sin_port ≠ s.curr_client_addr.sin_port then
      send_error DATA_BEFORE_WRQ "Unknown user" s.curr_client_addr
      return .again s
    else if s.message_size < 0 then
      delete_file file_name
      sys_call_error
    else
      return .break_ s

/-- The do loop's body after `while(true)`, and its condition. The block numbers are
    compared as `int`, after `ntohs` of the received one. -/
def take_block (s : Session) : Process (Session ⊕ End) := do
  if (block_number s.buff).toNat ≠ s.block_number.toNat + 1 then
    send_error INVALID_BLOCK_NUM "Bad block number" client_addr
    delete_file file_name
    return .inr .bad_block
  else if opcode s.buff ≠ DATA_OPCODE then
    send_error WRQ_FROM_SERVED_CLIENT "Unexpected packet" client_addr
    delete_file file_name
    return .inr .unexpected
  else
    let s := { s with missed_packets := 0 }
    let size := size_t ((s.message_size : Int) - (PACKET_SIZE - DATA_SIZE : Nat))
    if (← fwrite s.buff size file_name) ≠ size then
      delete_file file_name
      sys_call_error
    else
      let s := { s with block_number := s.block_number + 1 }
      send_ack s.block_number client_addr
      if s.message_size ≥ PACKET_SIZE then
        return .inl { s with buff := cleared }
      else
        return .inr .complete

/-- One wait of the session, with what follows from it up to the next wait. -/
def pass (s : Session) : Process (Session ⊕ End) := do
  match ← wait_for_data client_addr file_name max_num_of_resends s with
  | .again s => return .inl s
  | .break_ s => take_block client_addr file_name s
  | .return_ how => return .inr how
end

end StructureOfOs.Server
