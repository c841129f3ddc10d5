import StructureOfOs.CalmSessions

/-!
Two sessions side by side in which no system call fails. They are alike when the client
has been told the same and the files are the same; others may have been told more in
one of them, and other bytes may be left in its buffer. A datagram of the client on
which the checks agree keeps them alike, whether they go on (`twins_next`) or
end there (`twins_last`). Once both have waited in vain they are abandoned alike.
-/
namespace StructureOfOs.TwinSessions
open StructureOfOs.Loops StructureOfOs.Server StructureOfOs.ServerPasses StructureOfOs.Blocks StructureOfOs.CalmSessions

/-- What has been sent to an address. -/
def told (addr : Addr) (w : World) : List Packet := (w.sent.filter (·.1 = addr)).map (·.2)
/-- How a session ends. -/
def ending : EStateM.Result Stop World End → Except Stop End
  | .ok how _ => .ok how
  | .error stop _ => .error stop

/-- Neither the client nor the disk sees a difference. -/
structure Alike (client_addr : Addr) (w v : World) : Prop where
  told : told client_addr w = told client_addr v
  files : w.files = v.files
  disk : w.disk = v.disk
/-- The runs end the same way, and alike. -/
structure SameOutcome (client_addr : Addr) (r r' : EStateM.Result Stop World End) : Prop where
  ending : ending r = ending r'
  alike : Alike client_addr (final r) (final r')

/-- Both sessions wait after `k` blocks. -/
structure Twins (client_addr : Addr) (file_name : Name) (k : Nat) (s t : Session) (w v : World) : Prop where
  calm : Calm file_name w
  calm' : Calm file_name v
  watches : s.readfds = true
  watches' : t.readfds = true
  number : s.block_number.toNat = k
  same : t.block_number = s.block_number
  missed : t.missed_packets = s.missed_packets
  fresh : t.buff = cleared
  alike : Alike client_addr w v

variable {client_addr addr : Addr} {file_name : Name} {max_num_of_resends : Int} {s t : Session} {w v : World}
variable {d : Datagram} {events later : List Event} {k : Nat} {r r' : EStateM.Result Stop World End}

/-! ### Worlds -/

theorem Alike.refl (client_addr : Addr) (w : World) : Alike client_addr w w := ⟨rfl,rfl,rfl⟩
theorem Alike.at (alike : Alike client_addr w v) (events later : List Event) :
    Alike client_addr { w with events := events } { v with events := later } :=
  ⟨alike.told,alike.files,alike.disk⟩
theorem Alike.said (alike : Alike client_addr w v) (packet : Packet) :
    Alike client_addr (w.said client_addr packet) (v.said client_addr packet) := by
  refine ⟨?_,alike.files,alike.disk⟩
  have same : (w.sent.filter (·.1 = client_addr)).map (·.2) = (v.sent.filter (·.1 = client_addr)).map (·.2) := alike.told
  simp [TwinSessions.told,World.said,same]
theorem Alike.said_other (alike : Alike client_addr w v) (other : addr ≠ client_addr) (packet : Packet) :
    Alike client_addr (w.said addr packet) v := by
  refine ⟨?_,alike.files,alike.disk⟩
  rw [← alike.told]
  simp [TwinSessions.told,World.said,other]
theorem Alike.wrote (alike : Alike client_addr w v) (bytes : Bytes) :
    Alike client_addr (w.wrote file_name bytes) (v.wrote file_name bytes) :=
  ⟨alike.told,by simp [World.wrote,alike.files],by simp [World.wrote,alike.disk]⟩
theorem Alike.removed (alike : Alike client_addr w v) : Alike client_addr (w.removed file_name) (v.removed file_name) :=
  ⟨alike.told,by simp [World.removed,alike.files],by simp [World.removed,alike.disk]⟩

theorem Twins.itself (twins : Twins client_addr file_name k s t w v) : Twins client_addr file_name k t t v v where
  calm := twins.calm'
  calm' := twins.calm'
  watches := twins.watches'
  watches' := twins.watches'
  number := by rw [twins.same]; exact twins.number
  same := rfl
  missed := rfl
  fresh := twins.fresh
  alike := .refl client_addr v
theorem twins_start (client_addr : Addr) (calm : Calm file_name w) (events later : List Event) :
    Twins client_addr file_name 0 Session.start Session.start { w with events := events } { w with events := later } where
  calm := calm.at events
  calm' := calm.at later
  watches := rfl
  watches' := rfl
  number := rfl
  same := rfl
  missed := rfl
  fresh := rfl
  alike := (Alike.refl client_addr w).at events later

/-- Both sessions wait for what never comes. -/
theorem twins_starved (max_num_of_resends : Int) (twins : Twins client_addr file_name k s t w v) (silent : w.events = [])
    (silent' : v.events = []) :
    SameOutcome client_addr (session client_addr file_name max_num_of_resends s w)
      (session client_addr file_name max_num_of_resends t v) := by
  have waits : pass client_addr file_name max_num_of_resends s w = _ := calm_starved twins.calm twins.watches silent
  have waits' : pass client_addr file_name max_num_of_resends t v = _ := calm_starved twins.calm' twins.watches' silent'
  rw [session_fails waits,session_fails waits']
  exact ⟨rfl,twins.alike⟩

/-! ### Datagrams of the client -/

/-- Both sessions take the full block of the next number. -/
theorem twins_next (max_num_of_resends : Int) (twins : Twins client_addr file_name k s t w v)
    (first : w.events = .datagram d :: events) (first' : v.events = .datagram d :: later)
    (full : IsFullBlock client_addr (k + 1) d) :
    ∃ s' t' w' v', Twins client_addr file_name (k + 1) s' t' w' v' ∧ s'.buff = cleared ∧ w'.events = events ∧ v'.events = later ∧
      session client_addr file_name max_num_of_resends s w = session client_addr file_name max_num_of_resends s' w' ∧
      session client_addr file_name max_num_of_resends t v = session client_addr file_name max_num_of_resends t' v' := by
  have own : d.sender = client_addr := full.1.sender
  have whole : PACKET_SIZE - DATA_SIZE ≤ (message d).length := by rw [full.2]; decide
  have finds : ∀ u : Session, u.block_number.toNat = k →
      verdict ((received u d).block_number.toNat + 1) (received u d).buff (received u d).message_size = .full := by
    intro u number
    show verdict (u.block_number.toNat + 1) _ _ = _
    rw [number]
    exact (verdict_full_iff own).mpr full
  have number' : t.block_number.toNat = k := by rw [twins.same]; exact twins.number
  have next : pass client_addr file_name max_num_of_resends s w = _ := calm_own twins.calm twins.watches first own
  have next' : pass client_addr file_name max_num_of_resends t v = _ := calm_own twins.calm' twins.watches' first' own
  rw [judged,finds s twins.number] at next
  rw [judged,finds t number'] at next'
  have wrote : block (received t d) = block (received s d) := by rw [block_received whole,block_received whole]
  have same : (received t d).block_number = (received s d).block_number := twins.same
  rw [wrote,same] at next'
  refine ⟨advanced (received s d),advanced (received t d),_,_,?_,rfl,rfl,rfl,session_next next,session_next next'⟩
  exact {
    calm := ((twins.calm.at events).wrote (block (received s d))).said client_addr (.ACK ((received s d).block_number + 1))
    calm' := ((twins.calm'.at later).wrote (block (received s d))).said client_addr (.ACK ((received s d).block_number + 1))
    watches := twins.watches
    watches' := twins.watches'
    number := advanced_number twins.number (block_number_lt full.1)
    same := by simp [advanced,same]
    missed := rfl
    fresh := rfl
    alike := ((twins.alike.at events later).wrote (block (received s d))).said (.ACK ((received s d).block_number + 1)) }

/-- Both sessions end with a message that is not the full block of the next number. -/
theorem twins_last (max_num_of_resends : Int) (twins : Twins client_addr file_name k s t w v)
    (first : w.events = .datagram d :: events) (first' : v.events = .datagram d :: later) (own : d.sender = client_addr)
    (agree : verdict (k + 1) (received s d).buff (message d).length = verdict (k + 1) (received t d).buff (message d).length)
    (not_full : ¬ IsFullBlock client_addr (k + 1) d) :
    SameOutcome client_addr (session client_addr file_name max_num_of_resends s w)
      (session client_addr file_name max_num_of_resends t v) := by
  have number' : t.block_number.toNat = k := by rw [twins.same]; exact twins.number
  have last : pass client_addr file_name max_num_of_resends s w = _ := calm_own twins.calm twins.watches first own
  have last' : pass client_addr file_name max_num_of_resends t v = _ := calm_own twins.calm' twins.watches' first' own
  have same : (received t d).block_number = (received s d).block_number := twins.same
  have judgement : verdict ((received s d).block_number.toNat + 1) (received s d).buff (received s d).message_size =
      verdict (k + 1) (received s d).buff (message d).length := by
    rw [← twins.number]; rfl
  have judgement' : verdict ((received t d).block_number.toNat + 1) (received t d).buff (received t d).message_size =
      verdict (k + 1) (received s d).buff (message d).length := by
    rw [agree,← number']; rfl
  have alike := twins.alike.at events later
  rw [judged,judgement] at last
  rw [judged,judgement',same] at last'
  cases finds : verdict (k + 1) (received s d).buff (message d).length with
  | bad_block =>
    rw [finds] at last last'
    rw [session_last last,session_last last']
    exact ⟨rfl,(alike.said (.ERROR INVALID_BLOCK_NUM "Bad block number")).removed⟩
  | unexpected =>
    rw [finds] at last last'
    rw [session_last last,session_last last']
    exact ⟨rfl,(alike.said (.ERROR WRQ_FROM_SERVED_CLIENT "Unexpected packet")).removed⟩
  | overrun =>
    rw [finds] at last last'
    rw [session_fails last,session_fails last']
    exact ⟨rfl,alike⟩
  | full => exact absurd ((verdict_full_iff own).mp finds) not_full
  | last =>
    have whole : PACKET_SIZE - DATA_SIZE ≤ (message d).length := (verdict_accepts (.inr finds)).2.2.1
    have wrote : block (received t d) = block (received s d) := by rw [block_received whole,block_received whole]
    rw [finds] at last last'
    rw [wrote] at last'
    rw [session_last last,session_last last']
    exact ⟨rfl,(alike.wrote (block (received s d))).said (.ACK ((received s d).block_number + 1))⟩

/-- How a session ends with a message that is not the full block of the next number. -/
theorem ending_last (calm : Calm file_name w) (watches : s.readfds = true) (number : s.block_number.toNat = k)
    (first : w.events = .datagram d :: events) (own : d.sender = client_addr)
    (not_full : ¬ IsFullBlock client_addr (k + 1) d) :
    ending (session client_addr file_name max_num_of_resends s w) =
      match verdict (k + 1) (received s d).buff (message d).length with
      | .bad_block => .ok .bad_block
      | .unexpected => .ok .unexpected
      | .overrun => .error .overrun
      | .full => .ok .complete
      | .last => .ok .complete := by
  have last : pass client_addr file_name max_num_of_resends s w = _ := calm_own calm watches first own
  have judgement : verdict ((received s d).block_number.toNat + 1) (received s d).buff (received s d).message_size =
      verdict (k + 1) (received s d).buff (message d).length := by
    rw [← number]; rfl
  rw [judged,judgement] at last
  cases finds : verdict (k + 1) (received s d).buff (message d).length with
  | full => exact absurd ((verdict_full_iff own).mp finds) not_full
  | overrun => rw [finds] at last; rw [session_fails last]; rfl
  | bad_block => rw [finds] at last; rw [session_last last]; rfl
  | unexpected => rw [finds] at last; rw [session_last last]; rfl
  | last => rw [finds] at last; rw [session_last last]; rfl

/-! ### Timeouts -/

/-- A wait in vain: no datagram is taken any more, and the session is abandoned. -/
theorem session_late (client_addr : Addr) (max_num_of_resends : Int) (calm : Calm file_name w)
    (watches : s.readfds = true) (first : w.events = .timeout :: events) :
    ∃ later, session client_addr file_name max_num_of_resends s w =
      .ok .abandoned (gives_up client_addr file_name s (max_num_of_resends.toNat - s.missed_packets) later w) := by
  have waited : Waited s w events := .silence watches first
  have passes : pass client_addr file_name max_num_of_resends s w = _ := calm_waited calm waited
  by_cases beyond : max_num_of_resends < (s.missed_packets + 1 : Nat)
  · rw [if_pos beyond] at passes
    have none_left : max_num_of_resends.toNat - s.missed_packets = 0 := by omega
    refine ⟨events,?_⟩
    rw [session_last passes,none_left]
    simp [gives_up]
  · rw [if_neg beyond] at passes
    have deaf : (missed s).readfds = false := rfl
    obtain ⟨later,_,ended⟩ := session_deaf ((calm.at events).said client_addr (.ACK s.block_number)) deaf
    have one_less : max_num_of_resends.toNat - s.missed_packets =
        (max_num_of_resends.toNat - (s.missed_packets + 1)) + 1 := by omega
    refine ⟨later,?_⟩
    rw [session_next passes,ended,one_less]
    simp [gives_up,World.said,missed,List.replicate_succ]
theorem twins_late (twins : Twins client_addr file_name k s t w v) (first : w.events = .timeout :: events)
    (first' : v.events = .timeout :: later) :
    SameOutcome client_addr (session client_addr file_name max_num_of_resends s w)
      (session client_addr file_name max_num_of_resends t v) := by
  obtain ⟨after,ended⟩ := session_late client_addr max_num_of_resends twins.calm twins.watches first
  obtain ⟨after',ended'⟩ := session_late client_addr max_num_of_resends twins.calm' twins.watches' first'
  rw [ended,ended',twins.missed]
  refine ⟨rfl,Alike.removed (Alike.said ?_ _)⟩
  refine ⟨?_,twins.alike.files,twins.alike.disk⟩
  have same : (w.sent.filter (·.1 = client_addr)).map (·.2) = (v.sent.filter (·.1 = client_addr)).map (·.2) :=
    twins.alike.told
  simp [told,twins.same,same]

end StructureOfOs.TwinSessions
