import StructureOfOs.Blocks

/-!
Sessions in which no system call fails. What happens at the socket then decides every
pass, and a session is followed event by event. Once a wait has been in vain the
socket is not in the set any more: whatever arrives, the session counts waits and is
abandoned (`session_deaf`).
-/
namespace StructureOfOs.CalmSessions
open StructureOfOs.Loops StructureOfOs.Server StructureOfOs.ServerPasses StructureOfOs.Blocks

/-- No system call fails, and the file is there. -/
structure Calm (file_name : Name) (w : World) : Prop where
  faultless : w.oracle.faults = []
  there : (w.files file_name).isSome = true

/-- The rest of a session. -/
abbrev session (client_addr : Addr) (file_name : Name) (max_num_of_resends : Int) (s : Session) (w : World) :
    EStateM.Result Stop World End :=
  (session_loop client_addr file_name max_num_of_resends).run (s,w)

/-- What the do loop's body makes of a message of the client. -/
def judged (client_addr : Addr) (file_name : Name) (s : Session) (w : World) :
    EStateM.Result Stop World (Session ⊕ End) :=
  match verdict (s.block_number.toNat + 1) s.buff s.message_size with
  | .bad_block => .ok (.inr .bad_block) ((w.said client_addr (.ERROR INVALID_BLOCK_NUM "Bad block number")).removed file_name)
  | .unexpected =>
    .ok (.inr .unexpected) ((w.said client_addr (.ERROR WRQ_FROM_SERVED_CLIENT "Unexpected packet")).removed file_name)
  | .overrun => .error .overrun w
  | .full => .ok (.inl (advanced s)) ((w.wrote file_name (block s)).said client_addr (.ACK (s.block_number + 1)))
  | .last => .ok (.inr .complete) ((w.wrote file_name (block s)).said client_addr (.ACK (s.block_number + 1)))

variable {client_addr : Addr} {file_name : Name} {max_num_of_resends : Int} {s s' : Session} {w w' : World}
variable {d : Datagram} {events : List Event} {r : EStateM.Result Stop World (Session ⊕ End)}

theorem Calm.said (calm : Calm file_name w) (addr : Addr) (packet : Packet) : Calm file_name (w.said addr packet) :=
  ⟨calm.faultless,calm.there⟩
theorem Calm.wrote (calm : Calm file_name w) (bytes : Bytes) : Calm file_name (w.wrote file_name bytes) :=
  ⟨calm.faultless,by simpa [World.wrote] using calm.there⟩
theorem Calm.at (calm : Calm file_name w) (events : List Event) : Calm file_name { w with events := events } :=
  ⟨calm.faultless,calm.there⟩
theorem Calm.exits (calm : Calm file_name w) (exited : Exited file_name w w') : False := by
  cases exited with
  | removed faulty => exact faulty calm.faultless
  | left faulty => exact faulty calm.faultless
  | missing absent => simpa [absent] using calm.there

theorem received_calm (calm : Calm file_name w) (received_ : Received s w s' w') : Calm file_name w' := by
  cases received_ with
  | datagram watches first asked =>
    rw [asked.calm calm.faultless]
    exact calm.at _
  | failure watches asked answered => exact absurd calm.faultless (faulty_of_answered answered)
/-- No call fails in a pass. -/
theorem calm_pass (calm : Calm file_name w)
    (next : pass client_addr file_name max_num_of_resends s w = .ok (.inl s') w') : Calm file_name w' := by
  have spec := pass_spec client_addr file_name max_num_of_resends s w
  rw [next] at spec
  cases spec with
  | missed waited asked within =>
    rw [asked.calm calm.faultless]
    exact (calm.at _).said _ _
  | unknown_user received_ asked foreign =>
    have calm' := received_calm calm received_
    rw [asked.calm calm'.faultless]
    exact calm'.said _ _
  | taken received_ own taken =>
    have calm' := received_calm calm received_
    cases taken with
    | full asked good =>
      rw [asked.calm calm'.faultless]
      exact (calm'.wrote _).said _ _
theorem calm_leads {v : World} (calm : Calm file_name w)
    (leads : Leads (session_loop client_addr file_name max_num_of_resends) (s,w) (s',v)) : Calm file_name v :=
  leads.invariant (I := fun at_ => Calm file_name at_.2) calm fun _ _ holds next => calm_pass holds (passBody_inl next)

/-! ### One pass -/

theorem calm_taken (calm : Calm file_name w) (taken : Taken client_addr file_name s w r) :
    r = judged client_addr file_name s w := by
  unfold judged
  cases taken with
  | bad_block asked bad => rw [bad,asked.calm calm.faultless]; rfl
  | unexpected asked bad => rw [bad,asked.calm calm.faultless]; rfl
  | overrun bad => rw [bad]
  | full asked good => rw [good,asked.calm calm.faultless]; rfl
  | last asked good => rw [good,asked.calm calm.faultless]; rfl
  | exited same exited => exact (calm.exits exited).elim

theorem calm_received (calm : Calm file_name w) (first : w.events = .datagram d :: events) (received_ : Received s w s' w') :
    s' = received s d ∧ w' = { w with events := events } := by
  cases received_ with
  | datagram watches also asked =>
    rw [first] at also
    cases also
    rw [asked.calm calm.faultless]
    exact ⟨rfl,rfl⟩
  | failure watches asked answered => exact absurd calm.faultless (faulty_of_answered answered)
theorem not_waited {later : List Event} (watches : s.readfds = true) (first : w.events = .datagram d :: events) :
    ¬ Waited s w later := by
  rintro (⟨_,also⟩ | empty)
  · rw [first] at also; cases also
  · rw [watches] at empty; cases empty

/-- A datagram of the client. -/
theorem calm_own (calm : Calm file_name w) (watches : s.readfds = true) (first : w.events = .datagram d :: events)
    (own : d.sender = client_addr) :
    pass client_addr file_name max_num_of_resends s w = judged client_addr file_name (received s d) { w with events := events } := by
  have spec := pass_spec client_addr file_name max_num_of_resends s w
  generalize pass client_addr file_name max_num_of_resends s w = r at spec ⊢
  cases spec with
  | starved _ silent => rw [first] at silent; cases silent
  | missed waited => exact absurd waited (not_waited watches first)
  | abandoned waited => exact absurd waited (not_waited watches first)
  | unknown_user received_ asked foreign =>
    obtain ⟨rfl,rfl⟩ := calm_received calm first received_
    exact absurd own foreign
  | taken received_ _ taken =>
    obtain ⟨rfl,rfl⟩ := calm_received calm first received_
    exact calm_taken (calm.at events) taken
  | exited _ exited => exact (calm.exits exited).elim
/-- `while(true)` is left with the datagram, before its checks. -/
theorem calm_breaks (calm : Calm file_name w) (watches : s.readfds = true) (first : w.events = .datagram d :: events)
    (own : d.sender = client_addr) :
    wait_for_data client_addr file_name max_num_of_resends s w = .ok (.break_ (received s d)) { w with events := events } := by
  rcases select_cases s w with ⟨o,_,faulty,_⟩ | ⟨o,later,_,waited,_⟩ | ⟨o,d',later,asked,_,also,ran⟩ | ⟨o,_,_,silent,_⟩
  · exact absurd calm.faultless faulty
  · exact absurd waited (not_waited watches first)
  · rw [first] at also
    cases also
    rw [asked.calm calm.faultless] at ran
    have still : next_datagram w.events = some (d,events) := by rw [first]; rfl
    rcases recvfrom_cases still s.buff s.curr_client_addr with ⟨o',asked',came⟩ | ⟨_,_,answered,_⟩
    · rw [asked'.calm calm.faultless] at came
      have taken : received s d = { s with
          message_size := size_t (message d).length
          buff := message d ++ s.buff.drop (message d).length
          curr_client_addr := d.sender } := by
        rw [size_of_received d]
        rfl
      have gives : wait_for_data client_addr file_name max_num_of_resends s w = _ := wait_received watches ran came taken
      have mine : (received s d).curr_client_addr = client_addr := own
      rw [gives,if_neg (same_addr.mpr mine)]
      rfl
    · exact absurd calm.faultless (faulty_of_answered answered)
  · rw [first] at silent
    cases silent
/-- A datagram of somebody else. -/
theorem calm_foreign (calm : Calm file_name w) (watches : s.readfds = true) (first : w.events = .datagram d :: events)
    (foreign : d.sender ≠ client_addr) :
    pass client_addr file_name max_num_of_resends s w =
      .ok (.inl (received s d)) (({ w with events := events } : World).said d.sender (.ERROR DATA_BEFORE_WRQ "Unknown user")) := by
  have spec := pass_spec client_addr file_name max_num_of_resends s w
  generalize pass client_addr file_name max_num_of_resends s w = r at spec ⊢
  cases spec with
  | starved _ silent => rw [first] at silent; cases silent
  | missed waited => exact absurd waited (not_waited watches first)
  | abandoned waited => exact absurd waited (not_waited watches first)
  | unknown_user received_ asked _ =>
    obtain ⟨rfl,rfl⟩ := calm_received calm first received_
    rw [asked.calm calm.faultless]
    rfl
  | taken received_ own taken =>
    obtain ⟨rfl,rfl⟩ := calm_received calm first received_
    exact absurd own foreign
  | exited _ exited => exact (calm.exits exited).elim
/-- The end of what happens at the socket. -/
theorem calm_starved (calm : Calm file_name w) (watches : s.readfds = true) (silent : w.events = []) :
    pass client_addr file_name max_num_of_resends s w = .error .waiting w := by
  have spec := pass_spec client_addr file_name max_num_of_resends s w
  generalize pass client_addr file_name max_num_of_resends s w = r at spec ⊢
  have none_came : ∀ {later}, ¬ Waited s w later := by
    rintro later (⟨_,also⟩ | empty)
    · rw [silent] at also; cases also
    · rw [watches] at empty; cases empty
  have none_taken : ∀ {s' w'}, ¬ Received s w s' w' := by
    rintro s' w' (⟨_,also,_⟩ | ⟨_,_,answered⟩)
    · rw [silent] at also; cases also
    · exact absurd calm.faultless (faulty_of_answered answered)
  cases spec with
  | starved _ _ asked => rw [asked.calm calm.faultless]; rfl
  | missed waited => exact absurd waited none_came
  | abandoned waited => exact absurd waited none_came
  | unknown_user received_ => exact absurd received_ none_taken
  | taken received_ => exact absurd received_ none_taken
  | exited _ exited => exact (calm.exits exited).elim

theorem waited_unique {later : List Event} (waited : Waited s w events) (also : Waited s w later) : later = events := by
  cases waited with
  | silence watches first =>
    cases also with
    | silence _ first' => rw [first] at first'; cases first'; rfl
    | deaf empty => rw [watches] at empty; cases empty
  | deaf empty =>
    cases also with
    | silence watches _ => rw [empty] at watches; cases watches
    | deaf => rfl
theorem waited_not_received (waited : Waited s w events) : ¬ Received s w s' w' ∨ w.oracle.faults ≠ [] := by
  refine or_iff_not_imp_right.mpr fun faultless received_ => ?_
  cases received_ with
  | datagram watches first _ => exact not_waited watches first waited
  | failure _ _ answered => exact faultless (faulty_of_answered answered)
theorem waited_not_starved (waited : Waited s w events) (watches : s.readfds = true) : w.events ≠ [] := by
  cases waited with
  | silence _ first => simp [first]
  | deaf empty => rw [watches] at empty; cases empty

/-- A wait in vain. -/
theorem calm_waited (calm : Calm file_name w) (waited : Waited s w events) :
    pass client_addr file_name max_num_of_resends s w =
      if max_num_of_resends < (s.missed_packets + 1 : Nat) then
        .ok (.inr .abandoned) ((({ w with events := events } : World).said client_addr
          (.ERROR REACHED_MAX_RESENDS "Abandoning file transmission")).removed file_name)
      else
        .ok (.inl (missed s)) (({ w with events := events } : World).said client_addr (.ACK s.block_number)) := by
  have spec := pass_spec client_addr file_name max_num_of_resends s w
  generalize pass client_addr file_name max_num_of_resends s w = r at spec ⊢
  have none_taken : ∀ {s' w'}, ¬ Received s w s' w' := by
    intro s' w'
    exact (waited_not_received waited).resolve_right (by simpa using calm.faultless)
  cases spec with
  | starved watches silent => exact absurd silent (waited_not_starved waited watches)
  | missed also asked within =>
    rw [if_neg (Int.not_lt.mpr within),waited_unique waited also,asked.calm calm.faultless]
  | abandoned also asked beyond =>
    rw [if_pos beyond,waited_unique waited also,asked.calm calm.faultless]
  | unknown_user received_ => exact absurd received_ none_taken
  | taken received_ => exact absurd received_ none_taken
  | exited _ exited => exact (calm.exits exited).elim

/-! ### Whole sessions -/

theorem session_next (next : pass client_addr file_name max_num_of_resends s w = .ok (.inl s') w') :
    session client_addr file_name max_num_of_resends s w = session client_addr file_name max_num_of_resends s' w' :=
  run_next (passBody_next next)
theorem session_last {how : End} (last : pass client_addr file_name max_num_of_resends s w = .ok (.inr how) w') :
    session client_addr file_name max_num_of_resends s w = .ok how w' :=
  run_end (passBody_last last)
theorem session_fails {stop : Stop} (fails : pass client_addr file_name max_num_of_resends s w = .error stop w') :
    session client_addr file_name max_num_of_resends s w = .error stop w' :=
  run_end (passBody_fails fails)

/-- The session ends as abandoned, after `waits` more ACKs. -/
def gives_up (client_addr : Addr) (file_name : Name) (s : Session) (waits : Nat) (events : List Event) (w : World) : World :=
  (({ w with events := events, sent := w.sent ++ List.replicate waits (client_addr,.ACK s.block_number) } : World).said
    client_addr (.ERROR REACHED_MAX_RESENDS "Abandoning file transmission")).removed file_name
/-- After a wait in vain no datagram is taken any more. -/
theorem session_deaf (calm : Calm file_name w) (empty : s.readfds = false) :
    ∃ later, datagrams later = datagrams w.events ∧ session client_addr file_name max_num_of_resends s w =
      .ok .abandoned
        (gives_up client_addr file_name s (max_num_of_resends.toNat - s.missed_packets) later w) := by
  induction left : max_num_of_resends.toNat - s.missed_packets generalizing s w with
  | zero =>
    have beyond : max_num_of_resends < (s.missed_packets + 1 : Nat) := by omega
    have last : pass client_addr file_name max_num_of_resends s w = _ := calm_waited calm (.deaf empty)
    rw [if_pos beyond] at last
    refine ⟨w.events.erase .timeout,datagrams_erase w.events,?_⟩
    rw [session_last last]
    simp [gives_up]
  | succ waits ih =>
    have within : ¬ max_num_of_resends < (s.missed_packets + 1 : Nat) := by omega
    have next : pass client_addr file_name max_num_of_resends s w = _ := calm_waited calm (.deaf empty)
    rw [if_neg within] at next
    have fewer : max_num_of_resends.toNat - (missed s).missed_packets = waits := by simp only [missed]; omega
    have deaf : (missed s).readfds = false := rfl
    obtain ⟨later,same,ended⟩ :=
      ih ((calm.at (w.events.erase .timeout)).said client_addr (.ACK s.block_number)) deaf fewer
    refine ⟨later,same.trans (datagrams_erase w.events),?_⟩
    rw [session_next next,ended]
    simp [gives_up,World.said,missed,List.replicate_succ]

end StructureOfOs.CalmSessions
