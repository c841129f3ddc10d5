import StructureOfOs.TwinSessions

/-!
Datagrams of strangers. They are received into the buffer that the client's next
datagram comes into, and stay there when that one is shorter than a header: its block
number is then read from a stranger's bytes. Nothing else of them reaches the client,
the file or the end of the session, and a stranger is only told that it is unknown.
-/
namespace StructureOfOs.ForeignDatagrams
open StructureOfOs.Loops StructureOfOs.Server StructureOfOs.ServerPasses StructureOfOs.Blocks StructureOfOs.CalmSessions
open StructureOfOs.TwinSessions

/-- As long as the client sends the full blocks from `k` on: a datagram of its that is
    shorter than a header shows the number `k` over what the buffer holds exactly when it
    shows it over zeros. -/
def Untouched (client_addr : Addr) : Nat → Bytes → List Event → Prop
  | _,_,[] => True
  | _,_,.timeout :: _ => True
  | k,buff,.datagram d :: events =>
    if d.sender = client_addr then
      ((message d).length < PACKET_SIZE - DATA_SIZE →
        ((block_number (overlay d buff)).toNat = k ↔ (block_number (overlay d cleared)).toNat = k)) ∧
      (IsFullBlock client_addr k d → Untouched client_addr (k + 1) cleared events)
    else Untouched client_addr k (overlay d buff) events

/-- Whoever is not the client has only been told that it is unknown. -/
def TurnedAway (client_addr : Addr) (earlier : List (Addr × Packet)) (w : World) : Prop :=
  ∀ addr packet, (addr,packet) ∈ w.sent → addr ≠ client_addr →
    (addr,packet) ∈ earlier ∨ packet = .ERROR DATA_BEFORE_WRQ "Unknown user"
/-- The client and the files see no difference between the runs, and strangers are turned away. -/
structure Unaffected (client_addr : Addr) (earlier : List (Addr × Packet)) (r r' : EStateM.Result Stop World End) : Prop where
  same : SameOutcome client_addr r r'
  strangers : TurnedAway client_addr earlier (final r)

variable {client_addr addr : Addr} {file_name : Name} {max_num_of_resends : Int} {s s' t : Session} {w w' v : World}
variable {d : Datagram} {k : Nat} {buff : Bytes} {earlier : List (Addr × Packet)} {packet : Packet}

/-! ### What strangers are told -/

theorem TurnedAway.client (turned : TurnedAway client_addr earlier w) (packet : Packet) :
    TurnedAway client_addr earlier (w.said client_addr packet) := by
  intro addr packet' among foreign
  rcases List.mem_append.mp among with before | now
  · exact turned addr packet' before foreign
  · simp only [List.mem_singleton,Prod.mk.injEq] at now
    exact absurd now.1 foreign
theorem TurnedAway.stranger (turned : TurnedAway client_addr earlier w) (addr : Addr) :
    TurnedAway client_addr earlier (w.said addr (.ERROR DATA_BEFORE_WRQ "Unknown user")) := by
  intro addr' packet among foreign
  rcases List.mem_append.mp among with before | now
  · exact turned addr' packet before foreign
  · simp only [List.mem_singleton,Prod.mk.injEq] at now
    exact .inr now.2

/-- A pass turns strangers away. -/
theorem turned_pass (client_addr : Addr) (max_num_of_resends : Int) (s : Session) (calm : Calm file_name w)
    (turned : TurnedAway client_addr earlier w) :
    TurnedAway client_addr earlier (final (pass client_addr file_name max_num_of_resends s w)) := by
  have spec := pass_spec client_addr file_name max_num_of_resends s w
  generalize pass client_addr file_name max_num_of_resends s w = r at spec ⊢
  cases spec with
  | starved => exact turned
  | missed => exact TurnedAway.client turned _
  | abandoned => exact TurnedAway.client turned _
  | unknown_user received_ =>
    have quiet := received_sent received_
    exact TurnedAway.stranger (fun addr packet among => turned addr packet (by rw [← quiet]; exact among)) _
  | taken received_ own taken =>
    have calm' := received_calm calm received_
    have turned' : TurnedAway client_addr earlier _ :=
      fun addr packet among => turned addr packet (by rw [← received_sent received_]; exact among)
    cases taken with
    | bad_block => exact TurnedAway.client turned' _
    | unexpected => exact TurnedAway.client turned' _
    | overrun => exact turned'
    | full => exact TurnedAway.client turned' _
    | last => exact TurnedAway.client turned' _
    | exited same exited => exact (calm'.exits exited).elim
  | exited took exited => exact (calm.exits exited).elim
theorem turned_session (client_addr : Addr) (max_num_of_resends : Int) (s : Session) (calm : Calm file_name w) :
    TurnedAway client_addr w.sent (final (session client_addr file_name max_num_of_resends s w)) := by
  show TurnedAway client_addr w.sent (final ((session_loop client_addr file_name max_num_of_resends).run (s,w)))
  refine Loop.ensures (I := fun at_ => Calm file_name at_.2 ∧ TurnedAway client_addr w.sent at_.2)
    (Q := fun r => TurnedAway client_addr w.sent (final r)) ⟨calm,fun _ _ among _ => .inl among⟩ ?_ ?_
  · intro at_ at' holds next
    have goes := passBody_inl next
    have after := turned_pass client_addr max_num_of_resends at_.1 holds.1 holds.2
    rw [goes] at after
    exact ⟨calm_pass holds.1 goes,after⟩
  · intro at_ r holds left
    rw [final_last left]
    exact turned_pass client_addr max_num_of_resends at_.1 holds.1 holds.2

/-! ### A client's datagram that is shorter than a header -/

theorem overlay_cleared_zero {i : Nat} (beyond : (message d).length ≤ i) : (overlay d cleared).getD i 0 = 0 := by
  rw [overlay,List.getD_append_right _ _ _ _ beyond,cleared,List.drop_replicate]
  simp only [List.getD_eq_getElem?_getD,List.getElem?_replicate]
  split <;> rfl
theorem overlay_cleared_number (short : (message d).length ≤ 2) : block_number (overlay d cleared) = 0 := by
  rw [block_number,field,overlay_cleared_zero short,overlay_cleared_zero (Nat.le_succ_of_le short)]
  rfl

/-- The verdicts on a short message are the same when both or none show the number. -/
theorem short_agree_iff (short : (message d).length < PACKET_SIZE - DATA_SIZE) :
    verdict (k + 1) (overlay d buff) (message d).length = verdict (k + 1) (overlay d cleared) (message d).length ↔
      ((block_number (overlay d buff)).toNat = k + 1 ↔ (block_number (overlay d cleared)).toNat = k + 1) := by
  have under : (message d).length < PACKET_SIZE - DATA_SIZE ∨ PACKET_SIZE < (message d).length := .inl short
  by_cases shows : (block_number (overlay d buff)).toNat = k + 1
  · by_cases shows' : (block_number (overlay d cleared)).toNat = k + 1
    · have longer : 0 + 1 < (message d).length := by
        by_contra small
        rw [overlay_cleared_number (by omega)] at shows'
        exact absurd shows' (Nat.succ_ne_zero k).symm
      have same : opcode (overlay d buff) = opcode (overlay d cleared) := by
        rw [opcode,opcode,overlay,overlay,field_append longer,field_append longer]
      simp [verdict,shows,shows',same]
    · refine iff_of_false ?_ (by simp [shows,shows'])
      rw [verdict,verdict,if_neg (not_not.mpr shows),if_pos shows',if_pos under]
      split <;> simp
  · by_cases shows' : (block_number (overlay d cleared)).toNat = k + 1
    · refine iff_of_false ?_ (by simp [shows,shows'])
      rw [verdict,verdict,if_pos shows,if_neg (not_not.mpr shows'),if_pos under]
      split <;> simp
    · simp [verdict,shows,shows']
theorem whole_agree (whole : PACKET_SIZE - DATA_SIZE ≤ (message d).length) :
    verdict (k + 1) (overlay d buff) (message d).length = verdict (k + 1) (overlay d cleared) (message d).length := by
  have inside : 2 + 1 < (message d).length := whole
  have first : 0 + 1 < (message d).length := by omega
  rw [verdict,verdict,block_number,block_number,opcode,opcode,overlay,overlay,field_append inside,field_append inside,
    field_append first,field_append first]

/-- The sessions end alike where the verdicts agree. -/
theorem last_same_iff {events later : List Event} (twins : Twins client_addr file_name k s t w v)
    (first : w.events = .datagram d :: events) (first' : v.events = .datagram d :: later) (own : d.sender = client_addr)
    (not_full : ¬ IsFullBlock client_addr (k + 1) d) :
    SameOutcome client_addr (session client_addr file_name max_num_of_resends s w)
      (session client_addr file_name max_num_of_resends t v) ↔
    verdict (k + 1) (overlay d s.buff) (message d).length = verdict (k + 1) (overlay d cleared) (message d).length := by
  have lies : (received s d).buff = overlay d s.buff := rfl
  have lies' : (received t d).buff = overlay d cleared := by rw [← twins.fresh]; rfl
  constructor
  · intro same
    have ends : ending (session client_addr file_name max_num_of_resends s w) = _ :=
      ending_last twins.calm twins.watches twins.number first own not_full
    have ends' : ending (session client_addr file_name max_num_of_resends t v) = _ :=
      ending_last twins.itself.calm twins.itself.watches twins.itself.number first' own not_full
    have equal := ends.symm.trans (same.ending.trans ends')
    have goes_on : verdict (k + 1) (received s d).buff (message d).length ≠ .full :=
      fun full => not_full ((verdict_full_iff own).mp full)
    have goes_on' : verdict (k + 1) (received t d).buff (message d).length ≠ .full :=
      fun full => not_full ((verdict_full_iff own).mp full)
    rw [lies] at equal goes_on
    rw [lies'] at equal goes_on'
    cases finds : verdict (k + 1) (overlay d s.buff) (message d).length <;>
      cases finds' : verdict (k + 1) (overlay d cleared) (message d).length <;> simp_all
  · intro agree
    exact twins_last max_num_of_resends twins first first' own (by rw [lies,lies',agree]) not_full

/-! ### Whole sessions -/

theorem twins_untouched_iff (max_num_of_resends : Int) (twins : Twins client_addr file_name k s t w v)
    (rest : v.events = without_strangers client_addr w.events) :
    SameOutcome client_addr (session client_addr file_name max_num_of_resends s w)
      (session client_addr file_name max_num_of_resends t v) ↔ Untouched client_addr (k + 1) s.buff w.events := by
  induction first : w.events generalizing s t w v k with
  | nil =>
    rw [first] at rest
    exact iff_of_true (twins_starved max_num_of_resends twins first rest) trivial
  | cons event events ih =>
    rw [first] at rest
    cases event with
    | timeout => exact iff_of_true (twins_late twins first rest) trivial
    | datagram d =>
      by_cases own : d.sender = client_addr
      · rw [without_strangers,if_pos own] at rest
        rw [Untouched,if_pos own]
        by_cases full : IsFullBlock client_addr (k + 1) d
        · obtain ⟨s',t',w',v',twins',fresh,left,left',goes,goes'⟩ := twins_next max_num_of_resends twins first rest full
          have whole : ¬ (message d).length < PACKET_SIZE - DATA_SIZE := by rw [full.2]; decide
          rw [goes,goes',ih twins' (by rw [left,left']) left,fresh]
          simp [whole,full]
        · rw [last_same_iff twins first rest own full]
          by_cases short : (message d).length < PACKET_SIZE - DATA_SIZE
          · rw [short_agree_iff short]
            simp [short,full]
          · simp [whole_agree (Nat.le_of_not_lt short),short,full]
      · rw [without_strangers,if_neg own] at rest
        rw [Untouched,if_neg own]
        have next : pass client_addr file_name max_num_of_resends s w = _ := calm_foreign twins.calm twins.watches first own
        rw [session_next next]
        have twins' : Twins client_addr file_name k (received s d) t
            (({ w with events := events } : World).said d.sender (.ERROR DATA_BEFORE_WRQ "Unknown user")) v :=
          { twins with
            calm := (twins.calm.at events).said _ _
            alike := Alike.said_other (twins.alike.at events v.events) own _ }
        exact ih twins' rest rfl

/-- The datagrams of strangers change nothing exactly when no short datagram of the
    client shows another number over the bytes that they have left than over zeros. -/
theorem foreign_datagrams_iff (client_addr : Addr) (file_name : Name) (max_num_of_resends : Int) (w : World)
    (faultless : w.oracle.faults = []) (created : (w.files file_name).isSome = true) :
    Unaffected client_addr w.sent
      (recieving_data_mode client_addr file_name max_num_of_resends w)
      (recieving_data_mode client_addr file_name max_num_of_resends
        { w with events := without_strangers client_addr w.events }) ↔
    Untouched client_addr 1 cleared w.events := by
  have calm : Calm file_name w := ⟨faultless,created⟩
  have twins := twins_start client_addr calm w.events (without_strangers client_addr w.events)
  have same_iff := twins_untouched_iff max_num_of_resends twins rfl
  exact ⟨fun unaffected => same_iff.mp unaffected.same,
    fun untouched => ⟨same_iff.mpr untouched,turned_session client_addr max_num_of_resends _ calm⟩⟩

/-- A client whose file is being received, and a stranger. -/
def served : Addr := ⟨2130706433,4000⟩
def stranger : Addr := ⟨2130706433,4001⟩
def meeting (events : List Event) : World where
  events := events
  oracle := ⟨[],[]⟩
  sent := [(served,.ACK 0)]
  files := Function.update (fun _ => none) [102] (some [])
  disk := [.exists_ [102],.fopen [102]]

/-- An empty datagram of the client shows the header that a stranger has sent before. -/
theorem stranger_header_read : ¬ ∀ client_addr file_name max_num_of_resends (w : World), w.oracle.faults = [] →
    (w.files file_name).isSome = true → Unaffected client_addr w.sent
      (recieving_data_mode client_addr file_name max_num_of_resends w)
      (recieving_data_mode client_addr file_name max_num_of_resends
        { w with events := without_strangers client_addr w.events }) := by
  intro claimed
  let events : List Event := [.datagram ⟨stranger,[0,3,0,1]⟩,.datagram ⟨served,[]⟩]
  have calm : Calm [102] (meeting events) := ⟨rfl,by simp [meeting]⟩
  have twins := twins_start served calm events (without_strangers served events)
  have unaffected := claimed served [102] 3 (meeting events) rfl calm.there
  have untouched := (twins_untouched_iff 3 twins rfl).mp unaffected.same
  simp only [Untouched,events] at untouched
  exact absurd (untouched.1 (by decide)) (by decide)

theorem foreign_datagrams_iff_block : Unaffected served [(served,.ACK 0)]
    (recieving_data_mode served [102] 3 (meeting [.datagram ⟨stranger,[0,3,0,1]⟩,.datagram ⟨served,[0,3,0,1,104]⟩]))
    (recieving_data_mode served [102] 3 (meeting [.datagram ⟨served,[0,3,0,1,104]⟩])) :=
  (foreign_datagrams_iff served [102] 3 (meeting [.datagram ⟨stranger,[0,3,0,1]⟩,.datagram ⟨served,[0,3,0,1,104]⟩])
    rfl (by simp [meeting])).mpr ⟨fun short => absurd short (by decide),fun _ => trivial⟩

end StructureOfOs.ForeignDatagrams
