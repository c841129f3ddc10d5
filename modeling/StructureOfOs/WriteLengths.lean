import StructureOfOs.CalmSessions

/-!
The length that is passed to `fwrite`. Nothing checks how long a received message is, so
a datagram of the client that is shorter than a header is written from when its header
can be read off the buffer all the same: from what strangers' datagrams have left there,
or from the zeros that the buffer was filled with. A failing `recvfrom` is never written
from.
-/
namespace StructureOfOs.WriteLengths
open StructureOfOs.Loops StructureOfOs.Server StructureOfOs.ServerPasses StructureOfOs.Blocks StructureOfOs.CalmSessions

/-- The next pass comes to `fwrite`, with these variables. -/
def ReachesFwrite (client_addr : Addr) (file_name : Name) (max_num_of_resends : Int) (s : Session) (w : World) (s' : Session) : Prop :=
  (∃ w', wait_for_data client_addr file_name max_num_of_resends s w = .ok (.break_ s') w') ∧
    (block_number s'.buff).toNat = s'.block_number.toNat + 1 ∧ opcode s'.buff = DATA_OPCODE
/-- `message_size - (PACKET_SIZE-DATA_SIZE)` does not underflow: it is the length of the data
    that have been received, and these fit into the data field. -/
structure TrueLength (message_size : Nat) : Prop where
  header : PACKET_SIZE - DATA_SIZE ≤ message_size
  exact_ : size_t ((message_size : Int) - (PACKET_SIZE - DATA_SIZE : Nat)) = message_size - (PACKET_SIZE - DATA_SIZE)
  fits : message_size - (PACKET_SIZE - DATA_SIZE) ≤ DATA_SIZE
/-- Whenever the session comes to `fwrite`. -/
def TrueLengths (client_addr : Addr) (file_name : Name) (max_num_of_resends : Int) (w : World) : Prop :=
  ∀ s v s', Leads (session_loop client_addr file_name max_num_of_resends) (Session.start,w) (s,v) →
    ReachesFwrite client_addr file_name max_num_of_resends s v s' → TrueLength s'.message_size

/-- What the buffer shows after a datagram is the header of DATA block `k`. -/
def ShowsBlock (k : Nat) (buff : Bytes) : Prop := (block_number buff).toNat = k ∧ opcode buff = DATA_OPCODE
instance (k : Nat) (buff : Bytes) : Decidable (ShowsBlock k buff) :=
  inferInstanceAs (Decidable ((block_number buff).toNat = k ∧ opcode buff = DATA_OPCODE))
/-- Before the first timeout, and as long as the client sends the full blocks from `k` on: no
    datagram of its that is shorter than a header shows block `k` over what the buffer holds. -/
def NoneCompleted (client_addr : Addr) : Nat → Bytes → List Event → Prop
  | _,_,[] => True
  | _,_,.timeout :: _ => True
  | k,buff,.datagram d :: events =>
    if d.sender = client_addr then
      ((message d).length < PACKET_SIZE - DATA_SIZE → ¬ ShowsBlock k (overlay d buff)) ∧
      (IsFullBlock client_addr k d → NoneCompleted client_addr (k + 1) cleared events)
    else NoneCompleted client_addr k (overlay d buff) events

variable {client_addr : Addr} {file_name : Name} {max_num_of_resends : Int} {s s' : Session} {w w' v : World}
variable {d : Datagram} {events : List Event}

theorem true_length {n : Nat} (above : PACKET_SIZE - DATA_SIZE ≤ n) (below : n ≤ PACKET_SIZE) : TrueLength n := by
  refine ⟨above,size_in_range above below,?_⟩
  simp only [PACKET_SIZE,DATA_SIZE] at *
  omega

/-! ### Whatever fails -/

/-- While the socket is watched nothing that is to come completes a header, and after a block
    of the client the buffer is clear until somebody else's datagram. -/
structure Whole (client_addr : Addr) (s : Session) (w : World) : Prop where
  coming : s.readfds = true → NoneCompleted client_addr (s.block_number.toNat + 1) s.buff w.events
  clear : s.curr_client_addr = client_addr → s.buff = cleared

theorem whole_pass (whole : Whole client_addr s w)
    (next : pass client_addr file_name max_num_of_resends s w = .ok (.inl s') w') : Whole client_addr s' w' := by
  have spec := pass_spec client_addr file_name max_num_of_resends s w
  rw [next] at spec
  cases spec with
  | missed waited asked within => exact ⟨fun watches => (Bool.false_ne_true watches).elim,whole.clear⟩
  | unknown_user received_ asked foreign =>
    refine ⟨fun _ => ?_,fun own => absurd own foreign⟩
    cases received_ with
    | @datagram o d events watches first =>
      have other : d.sender ≠ client_addr := foreign
      have coming := whole.coming watches
      rw [first,NoneCompleted,if_neg other] at coming
      exact coming
    | failure watches => exact whole.coming watches
  | taken received_ own taken =>
    cases taken with
    | full asked good =>
      obtain ⟨d,events,o,watches,first,_,rfl,rfl,block,_⟩ := accepted received_ own (.inl good)
      have coming := whole.coming watches
      rw [first,NoneCompleted,if_pos block.sender] at coming
      refine ⟨fun _ => ?_,fun _ => rfl⟩
      have later := coming.2 ((verdict_full_iff block.sender).mp good)
      rw [← advanced_number rfl (block_number_lt block)] at later
      exact later
theorem whole_start (none_completed : NoneCompleted client_addr 1 cleared w.events) : Whole client_addr Session.start w :=
  ⟨fun _ => none_completed,fun _ => rfl⟩

/-- Where a short message, or none, comes to `fwrite`. -/
theorem whole_writes (whole : Whole client_addr s w) (reaches : ReachesFwrite client_addr file_name max_num_of_resends s w s') :
    TrueLength s'.message_size := by
  obtain ⟨⟨w',broke⟩,number,code⟩ := reaches
  obtain ⟨received_,own⟩ := wait_breaks broke
  cases received_ with
  | @datagram o d events watches first =>
    have mine : d.sender = client_addr := own
    have coming := whole.coming watches
    rw [first,NoneCompleted,if_pos mine] at coming
    refine true_length (Nat.le_of_not_lt fun short => ?_) (message_length d)
    exact coming.1 short ⟨number,code⟩
  | failure watches =>
    -- The buffer is clear, and no block has the number 0.
    have zeros : (not_received s).buff = cleared := whole.clear own
    rw [zeros] at number
    have none_ : (block_number cleared).toNat = 0 := by decide
    omega

/-! ### Sessions without failing calls -/

theorem none_completed_of_true (true_lengths : TrueLengths client_addr file_name max_num_of_resends w)
    (leads : Leads (session_loop client_addr file_name max_num_of_resends) (Session.start,w) (s,v))
    (calm : Calm file_name v) (watches : s.readfds = true) (coming : v.events = events) :
    NoneCompleted client_addr (s.block_number.toNat + 1) s.buff events := by
  induction events generalizing s v with
  | nil => trivial
  | cons event events ih =>
    cases event with
    | timeout => trivial
    | datagram d =>
      rw [NoneCompleted]
      split
      · rename_i own
        refine ⟨fun short shows => ?_,fun full => ?_⟩
        · have length := true_lengths s v (received s d) leads ⟨⟨_,calm_breaks calm watches coming own⟩,shows⟩
          exact Nat.not_le_of_gt short length.header
        · have next : pass client_addr file_name max_num_of_resends s v = _ := calm_own calm watches coming own
          have good : verdict ((received s d).block_number.toNat + 1) (received s d).buff (received s d).message_size = .full :=
            (verdict_full_iff own).mpr full
          rw [judged,good] at next
          have later := ih (leads.snoc (passBody_next next)) (((calm.at events).wrote _).said _ _) watches rfl
          rw [show (advanced (received s d)).block_number.toNat = s.block_number.toNat + 1 from
            advanced_number rfl (block_number_lt full.1)] at later
          exact later
      · rename_i foreign
        have next : pass client_addr file_name max_num_of_resends s v = _ := calm_foreign calm watches coming foreign
        exact ih (leads.snoc (passBody_next next)) ((calm.at events).said _ _) watches rfl

/-- Whatever calls fail, the length is right when no short datagram of the client completes the
    header of the next block; and if no call fails, only then. -/
theorem write_lengths_iff (client_addr : Addr) (file_name : Name) (max_num_of_resends : Int) (w : World)
    (created : (w.files file_name).isSome = true) :
    (NoneCompleted client_addr 1 cleared w.events → TrueLengths client_addr file_name max_num_of_resends w) ∧
    (w.oracle.faults = [] →
      (TrueLengths client_addr file_name max_num_of_resends w ↔ NoneCompleted client_addr 1 cleared w.events)) := by
  have enough : NoneCompleted client_addr 1 cleared w.events → TrueLengths client_addr file_name max_num_of_resends w := by
    intro none_completed s v s' leads reaches
    have whole : Whole client_addr s v := leads.invariant (I := fun at_ => Whole client_addr at_.1 at_.2)
      (whole_start none_completed) fun _ _ holds next => whole_pass holds (passBody_inl next)
    exact whole_writes whole reaches
  refine ⟨enough,fun faultless => ⟨fun true_lengths => ?_,enough⟩⟩
  exact none_completed_of_true true_lengths (.refl _) ⟨faultless,created⟩ rfl rfl

/-- The client whose file is received, somebody else, and what they send. -/
def sender : Addr := ⟨2130706433,4000⟩
def other_sender : Addr := ⟨2130706433,4001⟩
def between (events : List Event) : World where
  events := events
  oracle := ⟨[],[]⟩
  sent := [(sender,.ACK 0)]
  files := Function.update (fun _ => none) [102] (some [])
  disk := [.exists_ [102],.fopen [102]]

/-- The client's empty datagram comes to `fwrite` with the header that somebody else has sent. -/
theorem empty_datagram_written : ¬ ∀ client_addr file_name max_num_of_resends (w : World),
    (w.files file_name).isSome = true → TrueLengths client_addr file_name max_num_of_resends w := by
  intro claimed
  have created : ((between [.datagram ⟨other_sender,[0,3,0,1]⟩,.datagram ⟨sender,[]⟩]).files [102]).isSome = true := by
    simp [between]
  have completed := none_completed_of_true (claimed sender [102] 3 _ created) (.refl _) ⟨rfl,created⟩ rfl rfl
  exact completed.1 (by decide) (by decide : ShowsBlock 1 _)

theorem write_lengths_iff_block : TrueLengths sender [102] 3 (between [.datagram ⟨sender,[0,3,0,1,104]⟩]) :=
  (write_lengths_iff sender [102] 3 (between [.datagram ⟨sender,[0,3,0,1,104]⟩]) (by simp [between])).1
    ⟨fun short => absurd short (by decide),fun _ => trivial⟩

end StructureOfOs.WriteLengths
