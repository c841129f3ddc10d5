import StructureOfOs.Server

/-!
What one pass of a session can do, said once: `Pass` has a constructor for each way a
pass goes, whatever system calls fail, and `pass_spec` shows that there are no others.
The session is the loop of its passes (`recieving_data_mode`), which is total: a pass
that goes on takes an event, answers one of the finitely many faults, or counts a
missed packet.
-/
namespace StructureOfOs.ServerPasses
open StructureOfOs.Loops StructureOfOs.Server

/-- Between the two some calls other than `sendto` have been answered. -/
structure Asked (o o' : Oracle) : Prop where
  fewer : o'.faults.length ≤ o.faults.length
  sends : SysCall.sendto ∈ o'.failed ↔ SysCall.sendto ∈ o.failed
  calm : o.faults = [] → o' = o
theorem Asked.refl (o : Oracle) : Asked o o := ⟨Nat.le_refl _,Iff.rfl,fun _ => rfl⟩
theorem Asked.trans {o o' o'' : Oracle} (first : Asked o o') (second : Asked o' o'') : Asked o o'' where
  fewer := Nat.le_trans second.fewer first.fewer
  sends := second.sends.trans first.sends
  calm none := (second.calm (by rw [first.calm none]; exact none)).trans (first.calm none)
theorem Asked.faulty {o o' : Oracle} (asked : Asked o o') (faulty : o'.faults ≠ []) : o.faults ≠ [] :=
  fun none => faulty (by rw [asked.calm none]; exact none)

/-- How the checks after `while(true)` come out for a message. -/
inductive Verdict
  | bad_block
  | unexpected
  | overrun
  | full
  | last
deriving DecidableEq, Repr
def verdict (expected : Nat) (buff : Bytes) (message_size : Nat) : Verdict :=
  if (block_number buff).toNat ≠ expected then .bad_block
  else if opcode buff ≠ DATA_OPCODE then .unexpected
  else if message_size < PACKET_SIZE - DATA_SIZE ∨ PACKET_SIZE < message_size then .overrun
  else if message_size = PACKET_SIZE then .full
  else .last

/-- The message of a datagram, as much of it as the buffer holds. -/
def message (d : Datagram) : Bytes := d.bytes.take PACKET_SIZE
theorem message_length (d : Datagram) : (message d).length ≤ PACKET_SIZE := by
  rw [message,List.length_take]
  exact Nat.min_le_left _ _
/-- A message over what a buffer held. -/
def overlay (d : Datagram) (buff : Bytes) : Bytes := message d ++ buff.drop (message d).length
/-- The session after it has received a datagram: its message lies over what the buffer held. -/
def received (s : Session) (d : Datagram) : Session :=
  { s with
    message_size := (message d).length
    buff := message d ++ s.buff.drop (message d).length
    curr_client_addr := d.sender }
/-- The session after `recvfrom` has failed: -1 as a `size_t`. -/
def not_received (s : Session) : Session := { s with message_size := size_t (-1) }
/-- The session at its next wait after a full block. -/
def advanced (s : Session) : Session :=
  { s with missed_packets := 0, block_number := s.block_number + 1, buff := cleared }
/-- The session after a wait in vain. -/
def missed (s : Session) : Session := { s with readfds := false, missed_packets := s.missed_packets + 1 }
/-- The bytes of a message's data field. -/
def block (s : Session) : Bytes := (data s.buff).take (s.message_size - (PACKET_SIZE - DATA_SIZE))

/-- `select` has waited in vain. With the empty set it does not matter what has arrived. -/
inductive Waited (s : Session) (w : World) : List Event → Prop
  | silence {events : List Event} (watches : s.readfds = true) (first : w.events = .timeout :: events) : Waited s w events
  | deaf (empty : s.readfds = false) : Waited s w (w.events.erase .timeout)
/-- `recvfrom` has been called for a datagram, and has taken it or failed. -/
inductive Received (s : Session) (w : World) : Session → World → Prop
  | datagram {o : Oracle} {d : Datagram} {events : List Event} (watches : s.readfds = true)
      (first : w.events = .datagram d :: events) (asked : Asked w.oracle o) :
      Received s w (received s d) { w with events := events, oracle := o }
  | failure {o : Oracle} (watches : s.readfds = true) (asked : Asked w.oracle o)
      (answered : o.faults.length < w.oracle.faults.length) : Received s w (not_received s) (w.asked o)

variable {client_addr : Addr} {file_name : Name} {max_num_of_resends : Int}

/-- How a run of the process ends in `sys_call_error`: the file is gone, unless it is
    `sendto` that has failed, or there was no file. -/
inductive Exited (file_name : Name) (w w' : World) : Prop
  | removed (faulty : w.oracle.faults ≠ []) (gone : w'.files file_name = none) (quiet : w'.sent = w.sent)
      (sends : SysCall.sendto ∈ w'.oracle.failed ↔ SysCall.sendto ∈ w.oracle.failed)
  | left (faulty : w.oracle.faults ≠ []) (there : (w'.files file_name).isSome = true) (quiet : w'.sent = w.sent)
      (unsent : SysCall.sendto ∈ w'.oracle.failed)
  | missing (absent : w.files file_name = none)
/-- The file may have been removed at last. -/
def Removes (file_name : Name) (calls calls' : List FileCall) : Prop :=
  calls' = calls ∨ calls' = calls ++ [.remove file_name]
/-- At most one event has been taken. -/
inductive Took (s : Session) (w : World) (events : List Event) : Prop
  | nothing (same : events = w.events)
  | waited (waited : Waited s w events)
  | datagram {d : Datagram} (first : w.events = .datagram d :: events)

/-- The ways the do loop's body goes on with a message of the client. -/
inductive Taken (client_addr : Addr) (file_name : Name) (s : Session) (w : World) :
    EStateM.Result Stop World (Session ⊕ End) → Prop
  | bad_block {o : Oracle} (asked : Asked w.oracle o)
      (bad : verdict (s.block_number.toNat + 1) s.buff s.message_size = .bad_block) :
    Taken client_addr file_name s w (.ok (.inr .bad_block)
      (((w.asked o).said client_addr (.ERROR INVALID_BLOCK_NUM "Bad block number")).removed file_name))
  | unexpected {o : Oracle} (asked : Asked w.oracle o)
      (bad : verdict (s.block_number.toNat + 1) s.buff s.message_size = .unexpected) :
    Taken client_addr file_name s w (.ok (.inr .unexpected)
      (((w.asked o).said client_addr (.ERROR WRQ_FROM_SERVED_CLIENT "Unexpected packet")).removed file_name))
  | overrun (bad : verdict (s.block_number.toNat + 1) s.buff s.message_size = .overrun) :
    Taken client_addr file_name s w (.error .overrun w)
  | full {o : Oracle} (asked : Asked w.oracle o)
      (good : verdict (s.block_number.toNat + 1) s.buff s.message_size = .full) :
    Taken client_addr file_name s w (.ok (.inl (advanced s))
      (((w.asked o).wrote file_name (block s)).said client_addr (.ACK (s.block_number + 1))))
  | last {o : Oracle} (asked : Asked w.oracle o)
      (good : verdict (s.block_number.toNat + 1) s.buff s.message_size = .last) :
    Taken client_addr file_name s w (.ok (.inr .complete)
      (((w.asked o).wrote file_name (block s)).said client_addr (.ACK (s.block_number + 1))))
  | exited {w' : World} {calls : List FileCall} (same : w'.events = w.events) (exited : Exited file_name w w')
      (disk : Removes file_name (w.disk ++ calls) w'.disk)
      (tried : calls ≠ [] → (calls = [.fwrite file_name (block s)] ∨ calls = [.fwrite_failed file_name (block s)]) ∧
        (verdict (s.block_number.toNat + 1) s.buff s.message_size = .full ∨
          verdict (s.block_number.toNat + 1) s.buff s.message_size = .last)) :
    Taken client_addr file_name s w (.error .exit w')
/-- The ways a pass goes. -/
inductive Pass (client_addr : Addr) (file_name : Name) (max_num_of_resends : Int) (s : Session) (w : World) :
    EStateM.Result Stop World (Session ⊕ End) → Prop
  | starved {o : Oracle} (watches : s.readfds = true) (silent : w.events = []) (asked : Asked w.oracle o) :
    Pass client_addr file_name max_num_of_resends s w (.error .waiting (w.asked o))
  | missed {o : Oracle} {events : List Event} (waited : Waited s w events) (asked : Asked w.oracle o)
      (within : (s.missed_packets + 1 : Nat) ≤ max_num_of_resends) :
    Pass client_addr file_name max_num_of_resends s w
      (.ok (.inl (missed s)) (({ w with events := events, oracle := o } : World).said client_addr (.ACK s.block_number)))
  | abandoned {o : Oracle} {events : List Event} (waited : Waited s w events) (asked : Asked w.oracle o)
      (beyond : max_num_of_resends < (s.missed_packets + 1 : Nat)) :
    Pass client_addr file_name max_num_of_resends s w
      (.ok (.inr .abandoned) ((({ w with events := events, oracle := o } : World).said client_addr
        (.ERROR REACHED_MAX_RESENDS "Abandoning file transmission")).removed file_name))
  | unknown_user {s' : Session} {w' : World} {o : Oracle} (received : Received s w s' w') (asked : Asked w'.oracle o)
      (foreign : s'.curr_client_addr ≠ client_addr) :
    Pass client_addr file_name max_num_of_resends s w
      (.ok (.inl s') ((w'.asked o).said s'.curr_client_addr (.ERROR DATA_BEFORE_WRQ "Unknown user")))
  | taken {s' : Session} {w' : World} {r : EStateM.Result Stop World (Session ⊕ End)} (received : Received s w s' w')
      (own : s'.curr_client_addr = client_addr) (taken : Taken client_addr file_name s' w' r) :
    Pass client_addr file_name max_num_of_resends s w r
  | exited {w' : World} (took : Took s w w'.events) (exited : Exited file_name w w')
      (disk : Removes file_name w.disk w'.disk) :
    Pass client_addr file_name max_num_of_resends s w (.error .exit w')

/-! ### The system calls -/

variable {s s' : Session} {w w' : World}

theorem attempt_cases (call : SysCall) (w : World) :
    ∃ o, o.faults.length ≤ w.oracle.faults.length ∧ (w.oracle.faults = [] → o = w.oracle) ∧
    (attempt call w = .ok true (w.asked o) ∧ o.failed = w.oracle.failed ∨
      attempt call w = .ok false (w.asked o) ∧ o.failed = w.oracle.failed ++ [call] ∧
        o.faults.length < w.oracle.faults.length) := by
  cases answers : w.oracle.faults with
  | nil => exact ⟨w.oracle,by simp [answers],fun _ => rfl,.inl ⟨by simp [attempt,answers,World.asked],rfl⟩⟩
  | cons fails faults =>
    cases fails with
    | true =>
      exact ⟨⟨faults,w.oracle.failed ++ [call]⟩,by simp,by simp,.inr ⟨by simp [attempt,answers],rfl,by simp⟩⟩
    | false => exact ⟨⟨faults,w.oracle.failed⟩,by simp,by simp,.inl ⟨by simp [attempt,answers],rfl⟩⟩
theorem faulty_of_answered {o o' : Oracle} (answered : o'.faults.length < o.faults.length) : o.faults ≠ [] := by
  rintro none
  simp [none] at answered

/-- A call other than `sendto`. -/
theorem attempt_other (call : SysCall) (other : call ≠ .sendto) (w : World) : ∃ o, Asked w.oracle o ∧
    (attempt call w = .ok true (w.asked o) ∨
      attempt call w = .ok false (w.asked o) ∧ o.faults.length < w.oracle.faults.length) := by
  obtain ⟨o,fewer,calm,⟨ran,failed⟩ | ⟨ran,failed,answered⟩⟩ := attempt_cases call w
  · exact ⟨o,⟨fewer,by rw [failed],calm⟩,.inl ran⟩
  · exact ⟨o,⟨fewer,by simp [failed,other.symm],calm⟩,.inr ⟨ran,answered⟩⟩

theorem select_cases (s : Session) (w : World) :
    (∃ o, Asked w.oracle o ∧ w.oracle.faults ≠ [] ∧ select s.readfds w = .ok (-1,s.readfds) (w.asked o)) ∨
    (∃ o events, Asked w.oracle o ∧ Waited s w events ∧
      select s.readfds w = .ok (0,false) { w with events := events, oracle := o }) ∨
    (∃ o d events, Asked w.oracle o ∧ s.readfds = true ∧ w.events = .datagram d :: events ∧
      select s.readfds w = .ok (1,true) (w.asked o)) ∨
    ∃ o, Asked w.oracle o ∧ s.readfds = true ∧ w.events = [] ∧ select s.readfds w = .error .waiting (w.asked o) := by
  obtain ⟨o,asked,ran | ⟨ran,answered⟩⟩ := attempt_other .select (by simp) w
  · cases watches : s.readfds with
    | false =>
      refine .inr (.inl ⟨o,w.events.erase .timeout,asked,.deaf watches,?_⟩)
      rw [select,bind_ok ran]
      simp [World.asked]
    | true =>
      cases first : w.events with
      | nil =>
        refine .inr (.inr (.inr ⟨o,asked,rfl,rfl,?_⟩))
        rw [select,bind_ok ran]
        simp [World.asked,first]
      | cons event events =>
        cases event with
        | timeout =>
          refine .inr (.inl ⟨o,events,asked,.silence watches first,?_⟩)
          rw [select,bind_ok ran]
          simp [World.asked,first]
        | datagram d =>
          refine .inr (.inr (.inl ⟨o,d,events,asked,rfl,rfl,?_⟩))
          rw [select,bind_ok ran]
          simp [World.asked,first]
  · refine .inl ⟨o,asked,faulty_of_answered answered,?_⟩
    rw [select,bind_ok ran]
    simp

theorem recvfrom_cases {d : Datagram} {events : List Event} (first : next_datagram w.events = some (d,events))
    (buff : Bytes) (addr : Addr) :
    (∃ o, Asked w.oracle o ∧ recvfrom buff addr w =
      .ok ((message d).length,message d ++ buff.drop (message d).length,d.sender) { w with events := events, oracle := o }) ∨
    ∃ o, Asked w.oracle o ∧ o.faults.length < w.oracle.faults.length ∧
      recvfrom buff addr w = .ok (-1,buff,addr) (w.asked o) := by
  obtain ⟨o,asked,ran | ⟨ran,answered⟩⟩ := attempt_other .recvfrom (by simp) w
  · refine .inl ⟨o,asked,?_⟩
    rw [recvfrom,bind_ok ran]
    simp [World.asked,first,message]
  · refine .inr ⟨o,asked,answered,?_⟩
    rw [recvfrom,bind_ok ran]
    simp

theorem sendto_cases (addr : Addr) (packet : Packet) (w : World) : ∃ o,
    (Asked w.oracle o ∧ sendto addr packet w = .ok true ((w.asked o).said addr packet)) ∨
      SysCall.sendto ∈ o.failed ∧ w.oracle.faults ≠ [] ∧ sendto addr packet w = .ok false (w.asked o) := by
  obtain ⟨o,fewer,calm,⟨ran,failed⟩ | ⟨ran,failed,answered⟩⟩ := attempt_cases .sendto w
  · refine ⟨o,.inl ⟨⟨fewer,by rw [failed],calm⟩,?_⟩⟩
    rw [sendto,bind_ok ran]
    simp
  · refine ⟨o,.inr ⟨by simp [failed],faulty_of_answered answered,?_⟩⟩
    rw [sendto,bind_ok ran]
    simp
theorem send_error_cases (code : UInt16) (text : String) (addr : Addr) (w : World) : ∃ o,
    (Asked w.oracle o ∧ send_error code text addr w = .ok () ((w.asked o).said addr (.ERROR code text))) ∨
      SysCall.sendto ∈ o.failed ∧ w.oracle.faults ≠ [] ∧ send_error code text addr w = .error .exit (w.asked o) := by
  obtain ⟨o,⟨asked,ran⟩ | ⟨unsent,faulty,ran⟩⟩ := sendto_cases addr (.ERROR code text) w
  · exact ⟨o,.inl ⟨asked,by rw [send_error,bind_ok ran]; rfl⟩⟩
  · exact ⟨o,.inr ⟨unsent,faulty,by rw [send_error,bind_ok ran]; rfl⟩⟩
theorem send_ack_cases (number : UInt16) (addr : Addr) (w : World) : ∃ o,
    (Asked w.oracle o ∧ send_ack number addr w = .ok () ((w.asked o).said addr (.ACK number))) ∨
      SysCall.sendto ∈ o.failed ∧ w.oracle.faults ≠ [] ∧ send_ack number addr w = .error .exit (w.asked o) := by
  obtain ⟨o,⟨asked,ran⟩ | ⟨unsent,faulty,ran⟩⟩ := sendto_cases addr (.ACK number) w
  · exact ⟨o,.inl ⟨asked,by rw [send_ack,bind_ok ran]; rfl⟩⟩
  · exact ⟨o,.inr ⟨unsent,faulty,by rw [send_ack,bind_ok ran]; rfl⟩⟩

theorem delete_there {name : Name} (there : (w.files name).isSome = true) :
    delete_file name w = .ok () (w.removed name) := by
  simp [delete_file,there]
@[simp] theorem removed_gone (w : World) (name : Name) : (w.removed name).files name = none := by
  simp [World.removed]

theorem exited_unsent (faulty : w.oracle.faults ≠ []) (same : w'.files = w.files) (quiet : w'.sent = w.sent)
    (unsent : SysCall.sendto ∈ w'.oracle.failed) : Exited file_name w w' := by
  cases there : w.files file_name with
  | none => exact .missing there
  | some content => exact .left faulty (by simp [same,there]) quiet unsent
/-- Calls other than `sendto` before it do not matter. -/
theorem Exited.before {w'' : World} (exited : Exited file_name w' w'') (same : w'.files = w.files)
    (quiet : w'.sent = w.sent) (asked : Asked w.oracle w'.oracle) : Exited file_name w w'' := by
  cases exited with
  | removed faulty gone still sends =>
    exact .removed (asked.faulty faulty) gone (still.trans quiet) (sends.trans asked.sends)
  | left faulty there still unsent => exact .left (asked.faulty faulty) there (still.trans quiet) unsent
  | missing absent => exact .missing (by rw [← same]; exact absent)
theorem delete_exit {α : Type} (file_name : Name) (calls : List FileCall) {o : Oracle} (asked : Asked w.oracle o)
    (faulty : w.oracle.faults ≠ []) : ∃ w', w'.events = w.events ∧ Exited file_name w w' ∧ Removes file_name calls w'.disk ∧
    (do delete_file file_name; sys_call_error : Process α) { w with oracle := o, disk := calls } = .error .exit w' := by
  cases there : w.files file_name with
  | none =>
    refine ⟨{ w with oracle := o, disk := calls },rfl,.missing there,.inl rfl,bind_error ?_⟩
    simp [delete_file,there,sys_call_error]
  | some content =>
    refine ⟨({ w with oracle := o, disk := calls } : World).removed file_name,rfl,
      .removed faulty (removed_gone _ _) rfl asked.sends,.inr rfl,?_⟩
    rw [bind_ok (delete_there (by simp [there]))]
    rfl

/-- The two ways of a failing session: an error to the client, then the file is removed. -/
theorem fail_cases {α : Type} (client_addr : Addr) (file_name : Name) (code : UInt16) (text : String) (value : α)
    (w : World) :
    (∃ o, Asked w.oracle o ∧ (do send_error code text client_addr; delete_file file_name; return value : Process α) w =
        .ok value (((w.asked o).said client_addr (.ERROR code text)).removed file_name)) ∨
    ∃ w', w'.events = w.events ∧ Exited file_name w w' ∧ Removes file_name w.disk w'.disk ∧
      (do send_error code text client_addr; delete_file file_name; return value : Process α) w = .error .exit w' := by
  obtain ⟨o,⟨asked,ran⟩ | ⟨unsent,faulty,ran⟩⟩ := send_error_cases code text client_addr w
  · rw [bind_ok ran]
    cases there : w.files file_name with
    | none =>
      refine .inr ⟨(w.asked o).said client_addr (.ERROR code text),rfl,.missing there,.inl rfl,bind_error ?_⟩
      simp [delete_file,World.asked,World.said,there,sys_call_error]
    | some content =>
      refine .inl ⟨o,asked,?_⟩
      rw [bind_ok (delete_there (by simp [World.asked,World.said,there]))]
      rfl
  · exact .inr ⟨w.asked o,rfl,exited_unsent faulty rfl rfl unsent,.inl rfl,bind_error ran⟩

/-- The conversions of `message_size - (PACKET_SIZE-DATA_SIZE)` wrap below 4. -/
theorem size_of_message {n : Nat} (below : n < 2 ^ 64) :
    DATA_SIZE < size_t ((n : Int) - (PACKET_SIZE - DATA_SIZE : Nat)) ↔ n < PACKET_SIZE - DATA_SIZE ∨ PACKET_SIZE < n := by
  simp only [size_t,PACKET_SIZE,DATA_SIZE]
  omega
theorem size_in_range {n : Nat} (above : PACKET_SIZE - DATA_SIZE ≤ n) (below : n ≤ PACKET_SIZE) :
    size_t ((n : Int) - (PACKET_SIZE - DATA_SIZE : Nat)) = n - (PACKET_SIZE - DATA_SIZE) := by
  simp only [size_t,PACKET_SIZE,DATA_SIZE] at *
  omega

/-! ### The passes -/

theorem fwrite_cases {size : Nat} (fits : size ≤ DATA_SIZE) (buff : Bytes) (name : Name) (w : World) : ∃ o, Asked w.oracle o ∧
    (fwrite buff size name w = .ok size ((w.asked o).wrote name ((data buff).take size)) ∨
      size ≠ 0 ∧ w.oracle.faults ≠ [] ∧
        fwrite buff size name w = .ok 0 ((w.asked o).unwritten name ((data buff).take size))) := by
  have within : ¬ DATA_SIZE < size := Nat.not_lt.mpr fits
  by_cases empty : size = 0
  · refine ⟨w.oracle,.refl _,.inl ?_⟩
    simp [fwrite,empty,World.asked]
  · obtain ⟨o,asked,ran | ⟨ran,answered⟩⟩ := attempt_other .fwrite (by simp) w
    · refine ⟨o,asked,.inl ?_⟩
      simp only [fwrite,if_neg within,if_neg empty]
      rw [bind_ok ran]
      simp
    · refine ⟨o,asked,.inr ⟨empty,faulty_of_answered answered,?_⟩⟩
      simp only [fwrite,if_neg within,if_neg empty]
      rw [bind_ok ran]
      simp

/-- Nothing has been written before the process ends. -/
theorem taken_exited (same : w'.events = w.events) (exited : Exited file_name w w') (disk : Removes file_name w.disk w'.disk) :
    Taken client_addr file_name s w (.error .exit w') :=
  .exited same exited (by rw [List.append_nil]; exact disk) fun wrote => absurd rfl wrote

theorem take_block_spec (small : s.message_size < 2 ^ 64) :
    Taken client_addr file_name s w (take_block client_addr file_name s w) := by
  unfold take_block
  by_cases number : (block_number s.buff).toNat ≠ s.block_number.toNat + 1
  · rw [if_pos number]
    have bad : verdict (s.block_number.toNat + 1) s.buff s.message_size = .bad_block := by simp [verdict,number]
    obtain ⟨o,asked,ran⟩ | ⟨w',same,exited,disk,ran⟩ := fail_cases client_addr file_name INVALID_BLOCK_NUM
      "Bad block number" (.inr .bad_block : Session ⊕ End) w
    · rw [ran]; exact .bad_block asked bad
    · rw [ran]; exact taken_exited same exited disk
  rw [if_neg number]
  by_cases code : opcode s.buff ≠ DATA_OPCODE
  · rw [if_pos code]
    have bad : verdict (s.block_number.toNat + 1) s.buff s.message_size = .unexpected := by simp [verdict,number,code]
    obtain ⟨o,asked,ran⟩ | ⟨w',same,exited,disk,ran⟩ := fail_cases client_addr file_name WRQ_FROM_SERVED_CLIENT
      "Unexpected packet" (.inr .unexpected : Session ⊕ End) w
    · rw [ran]; exact .unexpected asked bad
    · rw [ran]; exact taken_exited same exited disk
  rw [if_neg code]
  by_cases outside : s.message_size < PACKET_SIZE - DATA_SIZE ∨ PACKET_SIZE < s.message_size
  · have bad : verdict (s.block_number.toNat + 1) s.buff s.message_size = .overrun := by
      simp [verdict,number,code,outside]
    have beyond := (size_of_message small).mpr outside
    have stops : fwrite s.buff (size_t ((s.message_size : Int) - (PACKET_SIZE - DATA_SIZE : Nat))) file_name w =
        .error .overrun w := by
      simp [fwrite,beyond]
    rw [bind_error stops]
    exact .overrun bad
  · obtain ⟨above,below⟩ := not_or.mp outside
    rw [size_in_range (Nat.not_lt.mp above) (Nat.not_lt.mp below)]
    have fits : s.message_size - (PACKET_SIZE - DATA_SIZE) ≤ DATA_SIZE := by
      simp only [PACKET_SIZE,DATA_SIZE] at *; omega
    have good : verdict (s.block_number.toNat + 1) s.buff s.message_size = .full ∨
        verdict (s.block_number.toNat + 1) s.buff s.message_size = .last := by
      by_cases whole : s.message_size = PACKET_SIZE <;> simp [verdict,number,code,outside,whole]
    obtain ⟨o,asked,ran | ⟨some_,faulty,ran⟩⟩ := fwrite_cases fits s.buff file_name w
    · rw [bind_ok ran,if_neg (by simp)]
      show Taken client_addr file_name s w ((do
        send_ack (s.block_number + 1) client_addr
        if s.message_size ≥ PACKET_SIZE then return .inl (advanced s) else return .inr .complete : Process _)
        ((w.asked o).wrote file_name (block s)))
      obtain ⟨o',⟨asked',sent⟩ | ⟨unsent,faulty,sent⟩⟩ := send_ack_cases (s.block_number + 1) client_addr
        ((w.asked o).wrote file_name (block s))
      · have both : Asked w.oracle o' := asked.trans asked'
        rw [bind_ok sent]
        by_cases whole : s.message_size = PACKET_SIZE
        · rw [if_pos (Nat.le_of_eq whole.symm)]
          exact .full both (by simp [verdict,number,code,whole])
        · have short : ¬ s.message_size ≥ PACKET_SIZE := by omega
          rw [if_neg short]
          exact .last both (by simp [verdict,number,code,outside,whole])
      · rw [bind_error sent]
        refine .exited rfl ?_ (.inl rfl) fun _ => ⟨.inl rfl,good⟩
        cases there : w.files file_name with
        | none => exact .missing there
        | some content => exact .left (asked.faulty faulty) (by simp [World.asked,World.wrote,there]) rfl unsent
    · rw [bind_ok ran,if_pos (Ne.symm some_)]
      obtain ⟨w',same,exited,disk,exits⟩ := delete_exit (α := Session ⊕ End) file_name
        (w.disk ++ [.fwrite_failed file_name (block s)]) asked faulty
      refine exits ▸ .exited same exited disk fun _ => ⟨.inr rfl,good⟩

theorem received_small {s' : Session} (received : Received s w s' w') : s'.message_size < 2 ^ 64 := by
  cases received with
  | @datagram _ d =>
    have cut : (message d).length ≤ PACKET_SIZE := message_length d
    show (message d).length < 2 ^ 64
    simp only [PACKET_SIZE] at cut
    omega
  | failure => show size_t (-1) < 2 ^ 64; decide
theorem received_took {s' : Session} (received : Received s w s' w') : Took s w w'.events := by
  cases received with
  | datagram _ first _ => exact .datagram first
  | failure => exact .nothing rfl
theorem received_files {s' : Session} (received : Received s w s' w') : w'.files = w.files := by
  cases received <;> rfl
theorem received_disk {s' : Session} (received : Received s w s' w') : w'.disk = w.disk := by
  cases received <;> rfl

theorem received_asked {s' : Session} (received : Received s w s' w') : Asked w.oracle w'.oracle := by
  cases received with
  | datagram _ _ asked => exact asked
  | failure _ asked _ => exact asked
theorem received_sent {s' : Session} (received : Received s w s' w') : w'.sent = w.sent := by
  cases received <;> rfl

theorem same_addr {a b : Addr} : ¬ (a.s_addr ≠ b.s_addr ∨ a.sin_port ≠ b.sin_port) ↔ b = a := by
  cases a
  cases b
  simp [eq_comm]

theorem wait_in_vain {w₁ : World} (ran : select s.readfds w = .ok (0,false) w₁) :
    wait_for_data client_addr file_name max_num_of_resends s w =
      (if ((s.missed_packets + 1 : Nat) : Int) > max_num_of_resends then do
        send_error REACHED_MAX_RESENDS "Abandoning file transmission" client_addr
        delete_file file_name
        return Wait.return_ .abandoned
      else do
        send_ack s.block_number client_addr
        return Wait.again (missed s) : Process _) w₁ := by
  rw [wait_for_data,bind_ok ran]
  rfl
theorem wait_received {w₁ : World} {n : Int} {buff : Bytes} {addr : Addr} (watches : s.readfds = true)
    (ran : select s.readfds w = .ok (1,true) w₁) (came : recvfrom s.buff s.curr_client_addr w₁ = .ok (n,buff,addr) w')
    (same : s' = { s with message_size := size_t n, buff := buff, curr_client_addr := addr }) :
    wait_for_data client_addr file_name max_num_of_resends s w =
      (if client_addr.s_addr ≠ s'.curr_client_addr.s_addr ∨ client_addr.sin_port ≠ s'.curr_client_addr.sin_port then do
        send_error DATA_BEFORE_WRQ "Unknown user" s'.curr_client_addr
        return Wait.again s'
      else return Wait.break_ s' : Process _) w' := by
  obtain ⟨readfds,number,packets,size,held,last_addr⟩ := s
  cases watches
  subst same
  rw [wait_for_data,bind_ok ran]
  show (recvfrom held last_addr >>= _) w₁ = _
  rw [bind_ok came]
  by_cases foreign : client_addr.s_addr ≠ addr.s_addr ∨ client_addr.sin_port ≠ addr.sin_port
  · simp [foreign]
  · simp [foreign]

theorem pass_waited {o : Oracle} {events : List Event} (waited : Waited s w events) (asked : Asked w.oracle o)
    (ran : select s.readfds w = .ok (0,false) { w with events := events, oracle := o }) :
    Pass client_addr file_name max_num_of_resends s w (pass client_addr file_name max_num_of_resends s w) := by
  have gives : wait_for_data client_addr file_name max_num_of_resends s w = _ := wait_in_vain ran
  by_cases beyond : ((s.missed_packets + 1 : Nat) : Int) > max_num_of_resends
  · rw [if_pos beyond] at gives
    obtain ⟨o',asked',sent⟩ | ⟨w',same,exited,disk,sent⟩ := fail_cases client_addr file_name REACHED_MAX_RESENDS
      "Abandoning file transmission" (Wait.return_ .abandoned) { w with events := events, oracle := o }
    · rw [Server.pass,bind_ok (gives.trans sent)]
      exact .abandoned waited (asked.trans asked') beyond
    · rw [Server.pass,bind_error (gives.trans sent)]
      exact .exited (by rw [same]; exact .waited waited) (exited.before rfl rfl asked) disk
  · rw [if_neg beyond] at gives
    obtain ⟨o',⟨asked',sent⟩ | ⟨unsent,faulty,sent⟩⟩ :=
      send_ack_cases s.block_number client_addr { w with events := events, oracle := o }
    · rw [Server.pass,bind_ok (gives.trans (bind_ok sent))]
      exact .missed waited (asked.trans asked') (Int.not_lt.mp beyond)
    · rw [Server.pass,bind_error (gives.trans (bind_error sent))]
      exact .exited (.waited waited) (exited_unsent (asked.faulty faulty) rfl rfl unsent) (.inl rfl)

theorem pass_received {o : Oracle} {n : Int} {buff : Bytes} {addr : Addr} (received : Received s w s' w')
    (watches : s.readfds = true) (ran : select s.readfds w = .ok (1,true) (w.asked o))
    (came : recvfrom s.buff s.curr_client_addr (w.asked o) = .ok (n,buff,addr) w')
    (same : s' = { s with message_size := size_t n, buff := buff, curr_client_addr := addr }) :
    Pass client_addr file_name max_num_of_resends s w (pass client_addr file_name max_num_of_resends s w) := by
  have gives : wait_for_data client_addr file_name max_num_of_resends s w = _ := wait_received watches ran came same
  by_cases foreign : client_addr.s_addr ≠ s'.curr_client_addr.s_addr ∨ client_addr.sin_port ≠ s'.curr_client_addr.sin_port
  · rw [if_pos foreign] at gives
    obtain ⟨o',⟨asked',sent⟩ | ⟨unsent,faulty,sent⟩⟩ :=
      send_error_cases DATA_BEFORE_WRQ "Unknown user" s'.curr_client_addr w'
    · rw [Server.pass,bind_ok (gives.trans (bind_ok sent))]
      exact .unknown_user received asked' fun own => same_addr.mpr own foreign
    · rw [Server.pass,bind_error (gives.trans (bind_error sent))]
      have took := received_took received
      have files := received_files received
      have quiet := received_sent received
      have disk : w'.disk = w.disk := received_disk received
      exact .exited took (exited_unsent ((received_asked received).faulty faulty) files quiet unsent) (.inl disk)
  · rw [if_neg foreign] at gives
    rw [Server.pass,bind_ok gives]
    exact .taken received (same_addr.mp foreign) (take_block_spec (received_small received))

theorem size_of_received (d : Datagram) : size_t (message d).length = (message d).length := by
  have cut : (message d).length ≤ PACKET_SIZE := message_length d
  simp only [size_t,PACKET_SIZE] at *
  omega

/-- Whatever fails, a pass goes in one of these ways. -/
theorem pass_spec (client_addr : Addr) (file_name : Name) (max_num_of_resends : Int) (s : Session) (w : World) :
    Pass client_addr file_name max_num_of_resends s w (pass client_addr file_name max_num_of_resends s w) := by
  rcases select_cases s w with ⟨o,asked,faulty,ran⟩ | ⟨o,events,asked,waited,ran⟩ | ⟨o,d,events,asked,watches,first,ran⟩ |
    ⟨o,asked,watches,silent,ran⟩
  · obtain ⟨w',same,exited,disk,exits⟩ := delete_exit (α := Wait) file_name w.disk asked faulty
    have gives : wait_for_data client_addr file_name max_num_of_resends s w = .error .exit w' := by
      rw [wait_for_data,bind_ok ran]
      exact exits
    rw [Server.pass,bind_error gives]
    exact .exited (.nothing same) exited disk
  · exact pass_waited waited asked ran
  · have still : next_datagram (w.asked o).events = some (d,events) := by rw [World.asked,first]; rfl
    rcases recvfrom_cases still s.buff s.curr_client_addr with ⟨o',asked',came⟩ | ⟨o',asked',answered,came⟩
    · refine pass_received (.datagram watches first (asked.trans asked')) watches ran came ?_
      rw [size_of_received d]
      rfl
    · have fewer : o'.faults.length < w.oracle.faults.length := Nat.lt_of_lt_of_le answered asked.fewer
      exact pass_received (.failure watches (asked.trans asked') fewer) watches ran came rfl
  · have gives : wait_for_data client_addr file_name max_num_of_resends s w = .error .waiting (w.asked o) := by
      rw [wait_for_data,bind_error ran]
    rw [Server.pass,bind_error gives]
    exact .starved watches silent asked

/-- `while(true)` is left with what `recvfrom` has received, or not received, from the client. -/
theorem wait_breaks (broke : wait_for_data client_addr file_name max_num_of_resends s w = .ok (.break_ s') w') :
    Received s w s' w' ∧ s'.curr_client_addr = client_addr := by
  -- A received message leaves the loop when its sender is the client.
  have leaves : ∀ {s₁ w₁}, Received s w s₁ w₁ → wait_for_data client_addr file_name max_num_of_resends s w =
      (if client_addr.s_addr ≠ s₁.curr_client_addr.s_addr ∨ client_addr.sin_port ≠ s₁.curr_client_addr.sin_port then do
        send_error DATA_BEFORE_WRQ "Unknown user" s₁.curr_client_addr
        return Wait.again s₁
      else return Wait.break_ s₁ : Process _) w₁ → Received s w s' w' ∧ s'.curr_client_addr = client_addr := by
    intro s₁ w₁ received gives
    rw [broke] at gives
    split at gives
    · obtain ⟨o,⟨_,sent⟩ | ⟨_,_,sent⟩⟩ := send_error_cases DATA_BEFORE_WRQ "Unknown user" s₁.curr_client_addr w₁
      · rw [bind_ok sent] at gives; cases gives
      · rw [bind_error sent] at gives; cases gives
    · rename_i own
      cases gives
      exact ⟨received,same_addr.mp own⟩
  rcases select_cases s w with ⟨o,asked,faulty,ran⟩ | ⟨o,events,asked,waited,ran⟩ | ⟨o,d,events,asked,watches,first,ran⟩ |
    ⟨o,asked,watches,silent,ran⟩
  · obtain ⟨v,_,_,_,exits⟩ := delete_exit (α := Wait) file_name w.disk asked faulty
    rw [wait_for_data,bind_ok ran] at broke
    cases exits.symm.trans broke
  · have gives : wait_for_data client_addr file_name max_num_of_resends s w = _ := wait_in_vain ran
    rw [broke] at gives
    split at gives
    · obtain ⟨o',_,sent⟩ | ⟨v,_,_,_,sent⟩ := fail_cases client_addr file_name REACHED_MAX_RESENDS
        "Abandoning file transmission" (Wait.return_ .abandoned) { w with events := events, oracle := o }
      · cases gives.trans sent
      · cases gives.trans sent
    · obtain ⟨o',⟨_,sent⟩ | ⟨_,_,sent⟩⟩ := send_ack_cases s.block_number client_addr { w with events := events, oracle := o }
      · rw [bind_ok sent] at gives; cases gives
      · rw [bind_error sent] at gives; cases gives
  · have still : next_datagram (w.asked o).events = some (d,events) := by rw [World.asked,first]; rfl
    rcases recvfrom_cases still s.buff s.curr_client_addr with ⟨o',asked',came⟩ | ⟨o',asked',answered,came⟩
    · refine leaves (.datagram watches first (asked.trans asked')) (wait_received watches ran came ?_)
      rw [size_of_received d]
      rfl
    · have fewer : o'.faults.length < w.oracle.faults.length := Nat.lt_of_lt_of_le answered asked.fewer
      exact leaves (.failure watches (asked.trans asked') fewer) (wait_received watches ran came rfl)
  · rw [wait_for_data,bind_error ran] at broke
    cases broke

/-! ### The session -/

/-- What is left for a session: the coming events and faults, and the waits in vain. -/
def rank (max_num_of_resends : Int) (at_ : Session × World) : Nat :=
  (at_.2.events.length + at_.2.oracle.faults.length) * (max_num_of_resends.toNat + 1) +
    (max_num_of_resends.toNat - at_.1.missed_packets)

theorem rank_fewer {m : Int} {s' : Session}
    (fewer : w'.events.length + w'.oracle.faults.length < w.events.length + w.oracle.faults.length) :
    rank m (s',w') < rank m (s,w) := by
  have scaled := Nat.mul_le_mul_right (m.toNat + 1) (Nat.succ_le_of_lt fewer)
  rw [Nat.succ_mul] at scaled
  simp only [rank]
  omega
theorem waited_length {events : List Event} (waited : Waited s w events) : events.length ≤ w.events.length := by
  cases waited with
  | silence watches first => simp [first]
  | deaf empty => exact List.length_erase_le
theorem received_fewer {s' : Session} (received : Received s w s' w') :
    w'.events.length + w'.oracle.faults.length < w.events.length + w.oracle.faults.length := by
  cases received with
  | @datagram o d events watches first asked =>
    have := asked.fewer
    simp only [first,List.length_cons]
    omega
  | @failure o watches asked answered =>
    show w.events.length + o.faults.length < _
    omega
theorem pass_shrinks {s' : Session} (next : pass client_addr file_name max_num_of_resends s w = .ok (.inl s') w') :
    rank max_num_of_resends (s',w') < rank max_num_of_resends (s,w) := by
  have spec := pass_spec client_addr file_name max_num_of_resends s w
  rw [next] at spec
  cases spec with
  | @missed o events waited asked within =>
    have shorter := waited_length waited
    have fewer := asked.fewer
    have scaled := Nat.mul_le_mul_right (max_num_of_resends.toNat + 1) (Nat.add_le_add shorter fewer)
    show (events.length + o.faults.length) * _ + (max_num_of_resends.toNat - (s.missed_packets + 1)) < _
    simp only [rank]
    omega
  | unknown_user received asked foreign =>
    have fewer := received_fewer received
    have := asked.fewer
    refine rank_fewer ?_
    show _ + List.length _ < _
    simp only [World.said,World.asked]
    omega
  | taken received own taken =>
    have fewer := received_fewer received
    cases taken with
    | full asked good =>
      have := asked.fewer
      refine rank_fewer ?_
      simp only [World.said,World.wrote,World.asked]
      omega

/-- Both loops of `recieving_data_mode`, one wait at a time. -/
def session_loop (client_addr : Addr) (file_name : Name) (max_num_of_resends : Int) :
    Loop (Session × World) (EStateM.Result Stop World End) where
  body := passBody (pass client_addr file_name max_num_of_resends)
  size := rank max_num_of_resends
  shrinks next := pass_shrinks (passBody_inl next)
def recieving_data_mode (client_addr : Addr) (file_name : Name) (max_num_of_resends : Int) : Process End :=
  fun w => (session_loop client_addr file_name max_num_of_resends).run (Session.start,w)
/-- The world in which a program ends, however it ends. -/
def final {α : Type} : EStateM.Result Stop World α → World
  | .ok _ w => w
  | .error _ w => w
theorem final_last {at_ : Session × World} {r : EStateM.Result Stop World End}
    (left : (session_loop client_addr file_name max_num_of_resends).body at_ = .inr r) :
    final r = final (pass client_addr file_name max_num_of_resends at_.1 at_.2) := by
  rcases passBody_inr left with ⟨how,w',ran,out⟩ | ⟨stop,w',ran,out⟩
  · rw [ran,out]; rfl
  · rw [ran,out]; rfl

end StructureOfOs.ServerPasses
