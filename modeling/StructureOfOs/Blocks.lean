import StructureOfOs.ServerPasses
import Mathlib.Data.List.GetD

/-!
The blocks that a session accepts. A message of at least a header's length covers
what its checks read of the buffer, whatever earlier datagrams have left there; an
accepted message is a DATA block of the next number, and what is written is its data
field (`accepted`).
-/
namespace StructureOfOs.Blocks
open StructureOfOs.Loops StructureOfOs.Server StructureOfOs.ServerPasses

/-- A DATA packet of the client with the given block number. -/
structure IsBlock (client_addr : Addr) (number : Nat) (d : Datagram) : Prop where
  sender : d.sender = client_addr
  opcode : opcode (message d) = DATA_OPCODE
  number : (block_number (message d)).toNat = number
/-- A DATA packet with a full data field: another block is to follow. -/
def IsFullBlock (client_addr : Addr) (number : Nat) (d : Datagram) : Prop :=
  IsBlock client_addr number d ∧ (message d).length = PACKET_SIZE
/-- The datagrams are full blocks 1, 2, .. of the client. -/
def FullBlocks (client_addr : Addr) (blocks : List Datagram) : Prop :=
  ∀ i (inside : i < blocks.length), IsFullBlock client_addr (i + 1) blocks[i]
/-- The data field of a packet. -/
def payload (d : Datagram) : Bytes := data (message d)
/-- The datagrams among the events. -/
def datagrams : List Event → List Datagram
  | [] => []
  | .timeout :: events => datagrams events
  | .datagram d :: events => d :: datagrams events
/-- The events without the datagrams of other addresses. -/
def without_strangers (client_addr : Addr) : List Event → List Event
  | [] => []
  | .timeout :: events => .timeout :: without_strangers client_addr events
  | .datagram d :: events =>
    if d.sender = client_addr then .datagram d :: without_strangers client_addr events
    else without_strangers client_addr events

variable {client_addr : Addr} {file_name : Name} {max_num_of_resends : Int} {s s' : Session} {w w' : World} {d : Datagram}

theorem field_append {m : Bytes} {i : Nat} (inside : i + 1 < m.length) (rest : Bytes) : field (m ++ rest) i = field m i := by
  rw [field,field,List.getD_append _ _ _ _ (Nat.lt_of_succ_lt inside),List.getD_append _ _ _ _ inside]
theorem opcode_received (whole : PACKET_SIZE - DATA_SIZE ≤ (message d).length) :
    opcode (received s d).buff = opcode (message d) := by
  simp only [PACKET_SIZE,DATA_SIZE] at whole
  exact field_append (by omega) _
theorem block_number_received (whole : PACKET_SIZE - DATA_SIZE ≤ (message d).length) :
    block_number (received s d).buff = block_number (message d) := by
  simp only [PACKET_SIZE,DATA_SIZE] at whole
  exact field_append (by omega) _
theorem block_received (whole : PACKET_SIZE - DATA_SIZE ≤ (message d).length) : block (received s d) = payload d := by
  simp only [block,payload,data,received,PACKET_SIZE,DATA_SIZE] at *
  rw [List.drop_append_of_le_length (by omega)]
  exact List.take_left' (by simp)

/-- What the checks of an accepted message have found. -/
theorem verdict_accepts {expected size : Nat} {buff : Bytes}
    (good : verdict expected buff size = .full ∨ verdict expected buff size = .last) :
    (block_number buff).toNat = expected ∧ opcode buff = DATA_OPCODE ∧ PACKET_SIZE - DATA_SIZE ≤ size ∧ size ≤ PACKET_SIZE := by
  unfold verdict at good
  split_ifs at good with number code outside <;> simp_all
theorem verdict_full {expected size : Nat} {buff : Bytes} (good : verdict expected buff size = .full) : size = PACKET_SIZE := by
  unfold verdict at good
  split_ifs at good with number code outside whole
  exact whole
theorem verdict_last {expected size : Nat} {buff : Bytes} (good : verdict expected buff size = .last) : size < PACKET_SIZE := by
  have below := (verdict_accepts (.inr good)).2.2.2
  unfold verdict at good
  split_ifs at good with number code outside whole
  exact Nat.lt_of_le_of_ne below whole

/-- A message that is accepted has come in a datagram of the client, and is the block of
    the next number. -/
theorem accepted (received_ : Received s w s' w') (own : s'.curr_client_addr = client_addr)
    (good : verdict (s'.block_number.toNat + 1) s'.buff s'.message_size = .full ∨
      verdict (s'.block_number.toNat + 1) s'.buff s'.message_size = .last) :
    ∃ d events o, s.readfds = true ∧ w.events = .datagram d :: events ∧ Asked w.oracle o ∧ s' = received s d ∧
      w' = { w with events := events, oracle := o } ∧ IsBlock client_addr (s.block_number.toNat + 1) d ∧
      block s' = payload d ∧ PACKET_SIZE - DATA_SIZE ≤ (message d).length := by
  obtain ⟨number,code,above,below⟩ := verdict_accepts good
  cases received_ with
  | @datagram o d events watches first asked =>
    have whole : PACKET_SIZE - DATA_SIZE ≤ (message d).length := above
    refine ⟨d,events,o,watches,first,asked,rfl,rfl,⟨own,?_,?_⟩,block_received whole,whole⟩
    · rw [← opcode_received (s := s) whole]; exact code
    · rw [← block_number_received (s := s) whole]; exact number
  | failure =>
    have huge : ¬ size_t (-1) ≤ PACKET_SIZE := by decide
    exact absurd below huge

/-- A datagram of the client makes the session go on when it is the full block of the next number. -/
theorem verdict_full_iff {k : Nat} (own : d.sender = client_addr) :
    verdict k (received s d).buff (message d).length = .full ↔ IsFullBlock client_addr k d := by
  constructor
  · intro good
    obtain ⟨number,code,above,_⟩ := verdict_accepts (.inl good)
    rw [block_number_received above] at number
    rw [opcode_received above] at code
    exact ⟨⟨own,code,number⟩,verdict_full good⟩
  · rintro ⟨block,whole⟩
    have above : PACKET_SIZE - DATA_SIZE ≤ (message d).length := by rw [whole]; decide
    have fits : ¬ ((message d).length < PACKET_SIZE - DATA_SIZE ∨ PACKET_SIZE < (message d).length) := by
      rw [whole]; decide
    rw [verdict,block_number_received above,opcode_received above,if_neg (not_not.mpr block.number),
      if_neg (not_not.mpr block.opcode),if_neg fits,if_pos whole]

theorem received_number (received_ : Received s w s' w') : s'.block_number = s.block_number := by
  cases received_ <;> rfl
theorem advanced_number {k : Nat} (number : s.block_number.toNat = k) (next : k + 1 < 65536) :
    (s.block_number + 1).toNat = k + 1 := by
  rw [UInt16.toNat_add,number]
  exact Nat.mod_eq_of_lt next
/-- The number of a block has 16 bits, so the counter never wraps. -/
theorem block_number_lt {k : Nat} (block : IsBlock client_addr k d) : k < 65536 := by
  rw [← block.number]
  exact UInt16.toNat_lt _

theorem accepted_number (received_ : Received s w s' w') (own : s'.curr_client_addr = client_addr)
    (good : verdict (s'.block_number.toNat + 1) s'.buff s'.message_size = .full ∨
      verdict (s'.block_number.toNat + 1) s'.buff s'.message_size = .last) :
    (s'.block_number + 1).toNat = s.block_number.toNat + 1 := by
  obtain ⟨d,events,o,_,_,_,rfl,_,block,_⟩ := accepted received_ own good
  exact advanced_number rfl (block_number_lt block)

theorem datagrams_erase (events : List Event) : datagrams (events.erase .timeout) = datagrams events := by
  induction events with
  | nil => rfl
  | cons event events ih =>
    cases event with
    | timeout => simp [datagrams]
    | datagram d => simp [datagrams,ih]
theorem waited_datagrams {events : List Event} (waited : Waited s w events) : datagrams events = datagrams w.events := by
  cases waited with
  | silence watches first => rw [first]; rfl
  | deaf empty => exact datagrams_erase w.events

end StructureOfOs.Blocks
