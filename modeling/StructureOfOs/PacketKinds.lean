import StructureOfOs.CalmSessions

/-!
How the served client's packets are answered. The two bytes after the opcode are read as
a block number whatever the opcode is, and are looked at first: a packet of another kind is
answered as unexpected only if these two bytes happen to be the number of the next block.
-/
namespace StructureOfOs.PacketKinds
open StructureOfOs.Loops StructureOfOs.Server StructureOfOs.ServerPasses StructureOfOs.Blocks StructureOfOs.CalmSessions

/-- What the served client's packet is for a session that has accepted `accepted` blocks. -/
inductive Kind
  | unexpected
  | bad_block
  | next
deriving DecidableEq, Repr
def kind (accepted : Nat) (d : Datagram) : Kind :=
  if opcode (message d) ≠ DATA_OPCODE then .unexpected
  else if (block_number (message d)).toNat ≠ accepted + 1 then .bad_block
  else .next
def answer (d : Datagram) : Kind → Packet
  | .unexpected => .ERROR WRQ_FROM_SERVED_CLIENT "Unexpected packet"
  | .bad_block => .ERROR INVALID_BLOCK_NUM "Bad block number"
  | .next => .ACK (block_number (message d))

/-- The pass ends the session, and all it does to the files is to remove this one. -/
structure Rejected (file_name : Name) (v : World) (r : EStateM.Result Stop World (Session ⊕ End)) : Prop where
  ends : ∃ how w', r = .ok (.inr how) w'
  gone : (final r).files file_name = none
  unwritten : (final r).disk = v.disk ++ [.remove file_name]
/-- The pass answers the packet by its kind, and rejects it unless it is the next block. -/
structure AnsweredByKind (client_addr : Addr) (file_name : Name) (max_num_of_resends : Int) (s : Session) (v : World) (d : Datagram) :
    Prop where
  reply : (final (pass client_addr file_name max_num_of_resends s v)).sent =
    v.sent ++ [(client_addr,answer d (kind s.block_number.toNat d))]
  rejects : kind s.block_number.toNat d ≠ .next → Rejected file_name v (pass client_addr file_name max_num_of_resends s v)

variable {client_addr : Addr} {file_name : Name} {max_num_of_resends : Int} {s : Session} {w v : World}
variable {d : Datagram} {events : List Event}

theorem rejected_removed (file_name : Name) (v : World) (how : End) (client_addr : Addr) (packet : Packet) (events : List Event) :
    Rejected file_name v (.ok (.inr how) ((({ v with events := events } : World).said client_addr packet).removed file_name)) :=
  ⟨⟨how,_,rfl⟩,removed_gone _ _,rfl⟩

theorem kind_next_iff (accepted : Nat) (d : Datagram) :
    kind accepted d = .next ↔ opcode (message d) = DATA_OPCODE ∧ (block_number (message d)).toNat = accepted + 1 := by
  unfold kind
  split_ifs with code wrong
  · simp [code]
  · simp [wrong]
  · simp [not_not.mp code,not_not.mp wrong]

/-- After a wait in vain the packet is not looked at. -/
theorem deaf_answer (calm : Calm file_name v) (deaf : s.readfds = false) :
    ¬ AnsweredByKind client_addr file_name max_num_of_resends s v d := by
  rintro ⟨reply,_⟩
  rw [calm_waited calm (.deaf deaf)] at reply
  split at reply
  · have other : Packet.ERROR REACHED_MAX_RESENDS "Abandoning file transmission" ≠ answer d (kind s.block_number.toNat d) := by
      cases kind s.block_number.toNat d <;> simp [answer]
    exact other (by simpa [final,World.said,World.removed] using reply)
  · have same : Packet.ACK s.block_number = answer d (kind s.block_number.toNat d) := by simpa [final,World.said] using reply
    cases this_kind : kind s.block_number.toNat d with
    | unexpected => rw [this_kind] at same; cases same
    | bad_block => rw [this_kind] at same; cases same
    | next =>
      rw [this_kind] at same
      have number := ((kind_next_iff _ _).mp this_kind).2
      rw [← Packet.ACK.inj same] at number
      omega

/-- A packet that is received. -/
theorem watched_answer (calm : Calm file_name v) (watches : s.readfds = true) (first : v.events = .datagram d :: events)
    (own : d.sender = client_addr) (whole : PACKET_SIZE - DATA_SIZE ≤ (message d).length) :
    AnsweredByKind client_addr file_name max_num_of_resends s v d ↔
      opcode (message d) = DATA_OPCODE ∨ (block_number (message d)).toNat = s.block_number.toNat + 1 := by
  have ran : pass client_addr file_name max_num_of_resends s v = _ := calm_own calm watches first own
  have code : opcode (received s d).buff = opcode (message d) := opcode_received whole
  have number : block_number (received s d).buff = block_number (message d) := block_number_received whole
  have expected : (received s d).block_number.toNat = s.block_number.toNat := rfl
  by_cases data : opcode (message d) = DATA_OPCODE
  · refine iff_of_true ?_ (.inl data)
    by_cases next : (block_number (message d)).toNat = s.block_number.toNat + 1
    · have this_kind : kind s.block_number.toNat d = .next := (kind_next_iff _ _).mpr ⟨data,next⟩
      have successor : s.block_number + 1 = block_number (message d) := by
        refine UInt16.toNat.inj ((advanced_number rfl ?_).trans next.symm)
        rw [← next]
        exact UInt16.toNat_lt _
      have fits : ¬ ((message d).length < PACKET_SIZE - DATA_SIZE ∨ PACKET_SIZE < (message d).length) := by
        have := message_length d
        omega
      have size : (received s d).message_size = (message d).length := rfl
      refine ⟨?_,fun other => absurd this_kind other⟩
      rw [ran,this_kind,answer,← successor]
      by_cases full : (message d).length = PACKET_SIZE
      · simp [judged,verdict,code,number,expected,data,next,size,full,final,World.said,World.wrote,DATA_SIZE]
        rfl
      · simp [judged,verdict,code,number,expected,data,next,size,full,fits,final,World.said,World.wrote]
        rfl
    · have this_kind : kind s.block_number.toNat d = .bad_block := by simp [kind,data,next]
      have bad : verdict ((received s d).block_number.toNat + 1) (received s d).buff (received s d).message_size = .bad_block := by
        simp [verdict,number,expected,next]
      rw [judged,bad] at ran
      refine ⟨?_,fun _ => ?_⟩
      · rw [ran,this_kind]; rfl
      · rw [ran]; exact rejected_removed file_name v _ client_addr _ events
  · have this_kind : kind s.block_number.toNat d = .unexpected := by simp [kind,data]
    by_cases next : (block_number (message d)).toNat = s.block_number.toNat + 1
    · have bad : verdict ((received s d).block_number.toNat + 1) (received s d).buff (received s d).message_size = .unexpected := by
        simp [verdict,number,expected,next,code,data]
      rw [judged,bad] at ran
      refine iff_of_true ⟨?_,fun _ => ?_⟩ (.inr next)
      · rw [ran,this_kind]; rfl
      · rw [ran]; exact rejected_removed file_name v _ client_addr _ events
    · have bad : verdict ((received s d).block_number.toNat + 1) (received s d).buff (received s d).message_size = .bad_block := by
        simp [verdict,number,expected,next]
      rw [judged,bad] at ran
      refine iff_of_false (fun answered => ?_) (by simp [data,next])
      have reply := answered.reply
      rw [ran,this_kind] at reply
      simp [final,World.said,World.removed,answer] at reply

/-- A packet of the served client is answered by its kind exactly when the socket is still
    watched and the packet is DATA, or its bytes show the next block's number all the same. -/
theorem answered_by_kind_iff (client_addr : Addr) (file_name : Name) (max_num_of_resends : Int) (w : World)
    (faultless : w.oracle.faults = []) (created : (w.files file_name).isSome = true) (s : Session) (v : World)
    (leads : Leads (session_loop client_addr file_name max_num_of_resends) (Session.start,w) (s,v)) (d : Datagram)
    (events : List Event) (first : v.events = .datagram d :: events) (own : d.sender = client_addr)
    (whole : PACKET_SIZE - DATA_SIZE ≤ d.bytes.length) :
    AnsweredByKind client_addr file_name max_num_of_resends s v d ↔ s.readfds = true ∧
      (opcode (message d) = DATA_OPCODE ∨ (block_number (message d)).toNat = s.block_number.toNat + 1) := by
  have calm : Calm file_name v := calm_leads ⟨faultless,created⟩ leads
  have header : PACKET_SIZE - DATA_SIZE ≤ (message d).length := by
    rw [message,List.length_take]
    exact Nat.le_min.mpr ⟨Nat.sub_le _ _,whole⟩
  cases watches : s.readfds with
  | true =>
    rw [watched_answer calm watches first own header]
    simp
  | false => exact iff_of_false (deaf_answer calm watches) (by simp)

/-- A client that has begun an upload, and asks for another one. -/
def uploader : Addr := ⟨2130706433,4000⟩
def started (events : List Event) : World where
  events := events
  oracle := ⟨[],[]⟩
  sent := [(uploader,.ACK 0)]
  files := Function.update (fun _ => none) [102] (some [])
  disk := [.exists_ [102],.fopen [102]]
def new_request : Datagram := ⟨uploader,[0,2,103,103,0,111,99,116,101,116,0]⟩

theorem new_request_bad_block : ¬ ∀ client_addr file_name max_num_of_resends (w : World), w.oracle.faults = [] →
    (w.files file_name).isSome = true → ∀ s v,
    Leads (session_loop client_addr file_name max_num_of_resends) (Session.start,w) (s,v) → ∀ d events,
    v.events = .datagram d :: events → d.sender = client_addr → PACKET_SIZE - DATA_SIZE ≤ d.bytes.length →
    AnsweredByKind client_addr file_name max_num_of_resends s v d := by
  intro claimed
  have created : ((started [.datagram new_request]).files [102]).isSome = true := by simp [started]
  have answered := claimed uploader [102] 3 _ rfl created _ _ (.refl _) new_request [] rfl rfl (by decide)
  have either := (watched_answer ⟨rfl,created⟩ rfl rfl rfl (by decide)).mp answered
  revert either
  decide

theorem answered_by_kind_iff_block : AnsweredByKind uploader [102] 3 Session.start
    (started [.datagram ⟨uploader,[0,3,0,2,104]⟩]) ⟨uploader,[0,3,0,2,104]⟩ :=
  (answered_by_kind_iff uploader [102] 3 (started [.datagram ⟨uploader,[0,3,0,2,104]⟩]) rfl (by simp [started]) _ _ (.refl _)
    ⟨uploader,[0,3,0,2,104]⟩ [] rfl rfl (by decide)).mpr ⟨rfl,.inl (by decide)⟩

end StructureOfOs.PacketKinds
