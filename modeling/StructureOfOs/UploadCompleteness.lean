import StructureOfOs.CalmSessions

/-!
Uploads from the client's side: a file is cut into DATA packets of 512 bytes, the last
one shorter, and sent in order. The session takes every packet while its number fits
into 16 bits. The packet after number 65535 carries the number 0, and the session
compares that with 65536: there it ends with an error.
-/
namespace StructureOfOs.UploadCompleteness
open StructureOfOs.Loops StructureOfOs.Server StructureOfOs.ServerPasses StructureOfOs.Blocks StructureOfOs.CalmSessions

/-- The DATA packet with a block's number and its bytes. -/
def packet (client_addr : Addr) (number : Nat) (bytes : Bytes) : Datagram :=
  ⟨client_addr,htons DATA_OPCODE ++ htons (.ofNat number) ++ bytes⟩
/-- A file as the client sends it, from a block number on. -/
def packets (client_addr : Addr) (number : Nat) (content : Bytes) : List Datagram :=
  if DATA_SIZE ≤ content.length then
    packet client_addr number (content.take DATA_SIZE) :: packets client_addr (number + 1) (content.drop DATA_SIZE)
  else
    [packet client_addr number content]
termination_by content.length
decreasing_by simp only [List.length_drop,DATA_SIZE] at *; omega
/-- How many packets these are. -/
def count (content : Bytes) : Nat := content.length / DATA_SIZE + 1
/-- The ACKs of the packets. -/
def ackOf (client_addr : Addr) (number : Nat) : Addr × Packet := (client_addr,.ACK (.ofNat number))

variable {client_addr : Addr} {file_name : Name} {max_num_of_resends : Int} {s : Session} {w : World}
variable {content before bytes : Bytes} {rest : List Event} {number k : Nat}

/-! ### A packet -/

theorem message_packet (small : bytes.length ≤ DATA_SIZE) :
    message (packet client_addr number bytes) = htons DATA_OPCODE ++ htons (.ofNat number) ++ bytes := by
  refine List.take_of_length_le ?_
  simp only [packet,htons,List.length_append,List.length_cons,List.length_nil,DATA_SIZE,PACKET_SIZE] at *
  omega
theorem message_packet_length (small : bytes.length ≤ DATA_SIZE) :
    (message (packet client_addr number bytes)).length = bytes.length + (PACKET_SIZE - DATA_SIZE) := by
  rw [message_packet small]
  simp [htons,PACKET_SIZE,DATA_SIZE]
theorem opcode_packet (small : bytes.length ≤ DATA_SIZE) :
    opcode (message (packet client_addr number bytes)) = DATA_OPCODE := by
  rw [message_packet small]
  have header : htons DATA_OPCODE = [0,3] := rfl
  rw [header]
  show ntohs 0 3 = DATA_OPCODE
  decide
theorem block_number_packet (small : bytes.length ≤ DATA_SIZE) :
    block_number (message (packet client_addr number bytes)) = .ofNat number := by
  rw [message_packet small]
  show field (htons (.ofNat number) ++ bytes) 0 = _
  rw [field_append (by simp [htons]),ntohs_htons]
theorem payload_packet (small : bytes.length ≤ DATA_SIZE) : payload (packet client_addr number bytes) = bytes := by
  rw [payload,message_packet small]
  rfl

/-- What the checks say to the packet that the session waits for. -/
theorem verdict_packet (counted : s.block_number.toNat = k) (small : bytes.length ≤ DATA_SIZE) :
    let d := packet client_addr (k + 1) bytes
    verdict ((received s d).block_number.toNat + 1) (received s d).buff (received s d).message_size =
      if k + 1 = 65536 then .bad_block else if bytes.length = DATA_SIZE then .full else .last := by
  intro d
  have size : (message d).length = bytes.length + (PACKET_SIZE - DATA_SIZE) := message_packet_length small
  have whole : PACKET_SIZE - DATA_SIZE ≤ (message d).length := by omega
  have code : opcode (received s d).buff = DATA_OPCODE := by rw [opcode_received whole,opcode_packet small]
  have carried : (block_number (received s d).buff).toNat = (k + 1) % 65536 := by
    rw [block_number_received whole,block_number_packet small]
    simp
  have bound := s.block_number.toNat_lt
  rw [counted] at bound
  show verdict (s.block_number.toNat + 1) _ (message d).length = _
  rw [verdict,carried,code,size,counted]
  by_cases wraps : k + 1 = 65536
  · rw [if_pos (by omega),if_pos wraps]
  · rw [if_neg (by omega),if_neg (by simp),if_neg wraps]
    have fits : ¬ (bytes.length + (PACKET_SIZE - DATA_SIZE) < PACKET_SIZE - DATA_SIZE ∨
        PACKET_SIZE < bytes.length + (PACKET_SIZE - DATA_SIZE)) := by
      simp only [PACKET_SIZE,DATA_SIZE] at *; omega
    have whole_iff : bytes.length + (PACKET_SIZE - DATA_SIZE) = PACKET_SIZE ↔ bytes.length = DATA_SIZE := by
      simp only [PACKET_SIZE,DATA_SIZE]; omega
    rw [if_neg fits,ite_cond_congr (propext whole_iff)]

/-! ### The packets of a file -/

theorem packets_more (whole : DATA_SIZE ≤ content.length) : packets client_addr number content =
    packet client_addr number (content.take DATA_SIZE) :: packets client_addr (number + 1) (content.drop DATA_SIZE) := by
  rw [packets,if_pos whole]
theorem packets_last (short : ¬ DATA_SIZE ≤ content.length) :
    packets client_addr number content = [packet client_addr number content] := by
  rw [packets,if_neg short]
theorem count_more (whole : DATA_SIZE ≤ content.length) : count content = count (content.drop DATA_SIZE) + 1 := by
  simp only [count,List.length_drop,DATA_SIZE] at *
  omega
theorem count_last (short : ¬ DATA_SIZE ≤ content.length) : count content = 1 := by
  simp only [count,DATA_SIZE] at *
  omega

/-- A full packet: it is written and acknowledged, and the session waits for the next. -/
theorem session_full (max_num_of_resends : Int) (calm : Calm file_name w) (watches : s.readfds = true) (counted : s.block_number.toNat = k)
    (whole : bytes.length = DATA_SIZE) (fits : k + 1 < 65536)
    (first : w.events = .datagram (packet client_addr (k + 1) bytes) :: rest) :
    ∃ s', s'.readfds = true ∧ s'.block_number.toNat = k + 1 ∧
      session client_addr file_name max_num_of_resends s w = session client_addr file_name max_num_of_resends s'
        ((({ w with events := rest } : World).wrote file_name bytes).said client_addr (.ACK (.ofNat (k + 1)))) := by
  have small : bytes.length ≤ DATA_SIZE := Nat.le_of_eq whole
  have next : pass client_addr file_name max_num_of_resends s w = _ := calm_own calm watches first rfl
  rw [judged,verdict_packet counted small,if_neg (by omega),if_pos whole] at next
  have number : s.block_number + 1 = .ofNat (k + 1) := by
    refine UInt16.toNat.inj ?_
    rw [advanced_number counted fits,UInt16.toNat_ofNat',Nat.mod_eq_of_lt fits]
  have data_of : block (received s (packet client_addr (k + 1) bytes)) = bytes := by
    rw [block_received (by rw [message_packet_length small]; omega),payload_packet small]
  refine ⟨advanced (received s (packet client_addr (k + 1) bytes)),watches,advanced_number counted fits,?_⟩
  rw [session_next next,data_of]
  show session _ _ _ _ (World.said _ _ (.ACK (s.block_number + 1))) = _
  rw [number]
/-- A short packet: it is written and acknowledged, and the session ends. -/
theorem session_short (calm : Calm file_name w) (watches : s.readfds = true) (counted : s.block_number.toNat = k)
    (short : bytes.length < DATA_SIZE) (fits : k + 1 < 65536)
    (first : w.events = .datagram (packet client_addr (k + 1) bytes) :: rest) :
    session client_addr file_name max_num_of_resends s w =
      .ok .complete ((({ w with events := rest } : World).wrote file_name bytes).said client_addr (.ACK (.ofNat (k + 1)))) := by
  have small : bytes.length ≤ DATA_SIZE := Nat.le_of_lt short
  have last : pass client_addr file_name max_num_of_resends s w = _ := calm_own calm watches first rfl
  rw [judged,verdict_packet counted small,if_neg (by omega),if_neg (by omega)] at last
  have number : s.block_number + 1 = .ofNat (k + 1) := by
    refine UInt16.toNat.inj ?_
    rw [advanced_number counted fits,UInt16.toNat_ofNat',Nat.mod_eq_of_lt fits]
  have data_of : block (received s (packet client_addr (k + 1) bytes)) = bytes := by
    rw [block_received (by rw [message_packet_length small]; omega),payload_packet small]
  rw [session_last last,data_of]
  show EStateM.Result.ok _ (World.said _ _ (.ACK (s.block_number + 1))) = _
  rw [number]
/-- The packet after number 65535. -/
theorem session_wraps (calm : Calm file_name w) (watches : s.readfds = true) (counted : s.block_number.toNat = k)
    (last : k = 65535) (small : bytes.length ≤ DATA_SIZE)
    (first : w.events = .datagram (packet client_addr (k + 1) bytes) :: rest) :
    ∃ w', session client_addr file_name max_num_of_resends s w = .ok .bad_block w' := by
  have refused : pass client_addr file_name max_num_of_resends s w = _ := calm_own calm watches first rfl
  rw [judged,verdict_packet counted small,if_pos (by omega)] at refused
  exact ⟨_,session_last refused⟩

/-- What is sent as the numbers fit into 16 bits arrives. -/
theorem session_accepts (calm : Calm file_name w) (watches : s.readfds = true) (counted : s.block_number.toNat = k)
    (fits : k + count content ≤ 65535) (so_far : w.files file_name = some before)
    (events : w.events = (packets client_addr (k + 1) content).map .datagram ++ rest) :
    ∃ w', session client_addr file_name max_num_of_resends s w = .ok .complete w' ∧ w'.events = rest ∧
      w'.sent = w.sent ++ (List.range' (k + 1) (count content)).map (ackOf client_addr) ∧
      w'.disk = w.disk ++ (packets client_addr (k + 1) content).map (fun d => .fwrite file_name (payload d)) ∧
      w'.files file_name = some (before ++ content) := by
  induction size : content.length using Nat.strongRecOn generalizing s w k before content with
  | _ n ih =>
    subst size
    by_cases whole : DATA_SIZE ≤ content.length
    · rw [count_more whole] at fits ⊢
      rw [packets_more whole] at events ⊢
      have full : (content.take DATA_SIZE).length = DATA_SIZE := List.length_take_of_le whole
      obtain ⟨s',watches',counted',goes⟩ :=
        session_full max_num_of_resends calm watches counted full (by omega) events
      have shorter : (content.drop DATA_SIZE).length < content.length := by
        simp only [List.length_drop,DATA_SIZE] at *; omega
      have calm' := ((calm.at ((packets client_addr (k + 1 + 1) (content.drop DATA_SIZE)).map .datagram ++ rest)).wrote
        (content.take DATA_SIZE)).said client_addr (.ACK (.ofNat (k + 1)))
      obtain ⟨w',ended,left,sent,disk,file⟩ := ih _ shorter calm' watches' counted' (by omega)
        (by simp [World.said,World.wrote,so_far]; rfl) rfl rfl
      refine ⟨w',goes.trans ended,left,?_,?_,?_⟩
      · rw [sent,List.range'_succ]
        simp [World.said,World.wrote,ackOf]
      · rw [disk]
        simp [World.said,World.wrote,payload_packet (Nat.le_of_eq full)]
      · rw [file,List.append_assoc,List.take_append_drop]
    · have short : content.length < DATA_SIZE := Nat.lt_of_not_le whole
      rw [count_last whole] at fits ⊢
      rw [packets_last whole] at events ⊢
      refine ⟨_,session_short calm watches counted short (by omega) events,rfl,?_,?_,?_⟩
      · simp [World.said,World.wrote,ackOf]
      · simp [World.said,World.wrote,payload_packet (Nat.le_of_lt short)]
      · simp [World.said,World.wrote,so_far]
theorem one_block_less {left size : Nat} (long : (left + 1) * DATA_SIZE ≤ size) : left * DATA_SIZE ≤ size - DATA_SIZE := by
  rw [Nat.succ_mul] at long
  exact Nat.le_sub_of_add_le long
/-- What is longer ends in an error. -/
theorem session_rejects {left : Nat} (calm : Calm file_name w) (watches : s.readfds = true)
    (counted : s.block_number.toNat = k) (still : left + k = 65535) (long : left * DATA_SIZE ≤ content.length)
    (events : w.events = (packets client_addr (k + 1) content).map .datagram ++ rest) :
    ∃ w', session client_addr file_name max_num_of_resends s w = .ok .bad_block w' := by
  induction left generalizing s w k content with
  | zero =>
    have last : k = 65535 := by omega
    by_cases whole : DATA_SIZE ≤ content.length
    · rw [packets_more whole] at events
      exact session_wraps calm watches counted last (Nat.le_of_eq (List.length_take_of_le whole)) events
    · rw [packets_last whole] at events
      exact session_wraps calm watches counted last (Nat.le_of_not_le whole) events
  | succ left ih =>
    have fits : k + 1 < 65536 := by omega
    have still' : left + (k + 1) = 65535 := by omega
    have whole : DATA_SIZE ≤ content.length := Nat.le_trans (Nat.le_mul_of_pos_left _ (Nat.succ_pos left)) long
    rw [packets_more whole] at events
    obtain ⟨s',watches',counted',goes⟩ :=
      session_full max_num_of_resends calm watches counted (List.length_take_of_le whole) fits events
    have calm' := ((calm.at ((packets client_addr (k + 1 + 1) (content.drop DATA_SIZE)).map .datagram ++ rest)).wrote
      (content.take DATA_SIZE)).said client_addr (.ACK (.ofNat (k + 1)))
    have long' : left * DATA_SIZE ≤ (content.drop DATA_SIZE).length := by
      rw [List.length_drop]
      exact one_block_less long
    obtain ⟨w',ended⟩ := ih calm' watches' counted' still' long' rfl
    exact ⟨w',goes.trans ended⟩

/-- The upload of a file: every packet is written and acknowledged, the session ends
    normally, and the file is what was sent. -/
def Uploads (client_addr : Addr) (file_name : Name) (max_num_of_resends : Int) (content : Bytes) (w : World) : Prop :=
  ∃ w', recieving_data_mode client_addr file_name max_num_of_resends w = .ok .complete w' ∧
    w'.sent = w.sent ++ (List.range' 1 (count content)).map (ackOf client_addr) ∧
    w'.disk = w.disk ++ (packets client_addr 1 content).map (fun d => .fwrite file_name (payload d)) ∧
    w'.files file_name = some content

theorem uploads_short (faultless : w.oracle.faults = []) (created : w.files file_name = some [])
    (events : w.events = (packets client_addr 1 content).map .datagram ++ rest)
    (uploads : Uploads client_addr file_name max_num_of_resends content w) : content.length < 65535 * DATA_SIZE := by
  obtain ⟨w',ended,_⟩ := uploads
  have calm : Calm file_name w := ⟨faultless,by simp [created]⟩
  have counted : Session.start.block_number.toNat = 0 := rfl
  by_contra long
  obtain ⟨w'',refused⟩ := session_rejects calm rfl counted (Nat.add_zero 65535) (Nat.le_of_not_lt long) events
  cases ended.symm.trans refused

/-- A file arrives exactly when it takes fewer than 65536 packets. -/
theorem uploads_iff (client_addr : Addr) (file_name : Name) (max_num_of_resends : Int) (content : Bytes)
    (w : World) (rest : List Event) (faultless : w.oracle.faults = []) (created : w.files file_name = some [])
    (events : w.events = (packets client_addr 1 content).map .datagram ++ rest) :
    Uploads client_addr file_name max_num_of_resends content w ↔ content.length < 65535 * DATA_SIZE := by
  refine ⟨uploads_short faultless created events,fun short => ?_⟩
  have calm : Calm file_name w := ⟨faultless,by simp [created]⟩
  have counted : Session.start.block_number.toNat = 0 := rfl
  have fits : 0 + count content ≤ 65535 := by
    simp only [count,DATA_SIZE] at *
    omega
  obtain ⟨w',ended,_,sent,disk,file⟩ := session_accepts calm rfl counted fits created events
  exact ⟨w',ended,sent,disk,by simpa using file⟩

/-- A client that sends a file to the name `f`. -/
def sender : Addr := ⟨2130706433,4000⟩
def sending (content : Bytes) : World where
  events := (packets sender 1 content).map .datagram
  oracle := ⟨[],[]⟩
  sent := [(sender,.ACK 0)]
  files := Function.update (fun _ => none) [102] (some [])
  disk := []

/-- 65535 full packets are taken; the packet that ends the file has the number 0. -/
theorem long_file_refused : ¬ ∀ client_addr file_name max_num_of_resends content w rest, w.oracle.faults = [] →
    w.files file_name = some [] → w.events = (packets client_addr 1 content).map .datagram ++ rest →
    Uploads client_addr file_name max_num_of_resends content w := by
  intro claimed
  let content : Bytes := List.replicate (65535 * DATA_SIZE) 0
  have events : (sending content).events = (packets sender 1 content).map .datagram ++ [] := (List.append_nil _).symm
  have created : (sending content).files [102] = some [] := by simp [sending]
  have short := uploads_short rfl created events (claimed sender [102] 3 content (sending content) [] rfl created events)
  rw [List.length_replicate] at short
  exact Nat.lt_irrefl _ short

theorem uploads_iff_two_bytes : Uploads sender [102] 3 [104,105] (sending [104,105]) :=
  (uploads_iff sender [102] 3 [104,105] (sending [104,105]) [] rfl (by simp [sending]) (List.append_nil _).symm).mpr
    (by decide)

end StructureOfOs.UploadCompleteness
