import StructureOfOs.Blocks

/-!
How long a session lasts. Between two accepted blocks it waits in vain at most
`max_num_of_resends` times, and a block is only accepted under the next of the numbers
1, .., 65535. What the session has taken so far, strangers apart, is therefore bounded
by its block number and its missed packets (`Spent`).
-/
namespace StructureOfOs.SessionBound
open StructureOfOs.Loops StructureOfOs.Server StructureOfOs.ServerPasses StructureOfOs.Blocks

/-- How many of the events are not datagrams of strangers. -/
def load (client_addr : Addr) (events : List Event) : Nat := (without_strangers client_addr events).length

/-- The session has come from the events `events` to these, and has taken at most `n`
    of them that are not datagrams of strangers. -/
structure Consumed (client_addr : Addr) (events : List Event) (n : Nat) (w : World) : Prop where
  left : w.events.Sublist events
  few : load client_addr events ≤ load client_addr w.events + n
/-- What a session that waits has taken so far. -/
structure Spent (client_addr : Addr) (max_num_of_resends : Int) (events : List Event) (s : Session) (w : World) : Prop where
  consumed : Consumed client_addr events (s.block_number.toNat * (max_num_of_resends.toNat + 1) + s.missed_packets) w
  within : s.missed_packets ≤ max_num_of_resends.toNat

/-- A run that ends, or waits for more, has taken at most `n` events of the session's own;
    with `n` of them or more it does not wait for more. -/
structure Bounded (client_addr : Addr) (events : List Event) (n : Nat) (r : EStateM.Result Stop World End) : Prop where
  consumed : Consumed client_addr events n (final r)
  ends : n ≤ load client_addr events → ∀ w, r ≠ .error .waiting w

variable {client_addr : Addr} {file_name : Name} {max_num_of_resends : Int} {s s' : Session} {w w' v : World}
variable {events later : List Event} {n m : Nat}

/-! ### Events -/

theorem load_timeout (client_addr : Addr) (events : List Event) :
    load client_addr (.timeout :: events) = load client_addr events + 1 := by
  simp [load,without_strangers]
theorem load_datagram (client_addr : Addr) (d : Datagram) (events : List Event) :
    load client_addr (.datagram d :: events) = load client_addr events + if d.sender = client_addr then 1 else 0 := by
  by_cases own : d.sender = client_addr
  · simp [load,without_strangers,own]
  · simp [load,without_strangers,own]
theorem load_erase (client_addr : Addr) (events : List Event) :
    load client_addr events ≤ load client_addr (events.erase .timeout) + 1 := by
  induction events with
  | nil => simp [load,without_strangers]
  | cons event events ih =>
    cases event with
    | timeout =>
      simp only [List.erase_cons_head,load_timeout,Nat.le_refl]
    | datagram d =>
      rw [List.erase_cons_tail (by simp),load_datagram,load_datagram]
      omega

theorem Consumed.more (consumed : Consumed client_addr events n w) (now : Consumed client_addr w.events m v) :
    Consumed client_addr events (n + m) v := by
  refine ⟨now.left.trans consumed.left,?_⟩
  have first := consumed.few
  have second := now.few
  omega
theorem Consumed.mono (consumed : Consumed client_addr events n w) (le : n ≤ m) : Consumed client_addr events m w :=
  ⟨consumed.left,Nat.le_trans consumed.few (Nat.add_le_add_left le _)⟩
theorem Consumed.at (consumed : Consumed client_addr events n w) (same : v.events = w.events) :
    Consumed client_addr events n v := by
  constructor
  · rw [same]; exact consumed.left
  · rw [same]; exact consumed.few
theorem consumed_nothing (client_addr : Addr) (w : World) : Consumed client_addr w.events 0 w :=
  ⟨List.Sublist.refl _,Nat.le_refl _⟩

theorem waited_consumed (client_addr : Addr) (waited : Waited s w later) (same : v.events = later) :
    Consumed client_addr w.events 1 v := by
  cases waited with
  | silence watches first =>
    rw [first,← same]
    exact ⟨List.sublist_cons_self _ _,Nat.le_of_eq (load_timeout client_addr _)⟩
  | deaf empty =>
    constructor
    · rw [same]; exact List.erase_sublist
    · rw [same]; exact load_erase client_addr w.events
theorem datagram_consumed (client_addr : Addr) {d : Datagram} (first : w.events = .datagram d :: later)
    (same : v.events = later) : Consumed client_addr w.events (if d.sender = client_addr then 1 else 0) v := by
  subst same
  rw [first]
  exact ⟨List.sublist_cons_self _ _,Nat.le_of_eq (load_datagram client_addr _ _)⟩
theorem received_consumed (client_addr : Addr) (received_ : Received s w s' w') :
    Consumed client_addr w.events (if s'.curr_client_addr = client_addr then 1 else 0) w' := by
  cases received_ with
  | datagram watches first asked => exact datagram_consumed client_addr first rfl
  | failure watches asked answered => exact ((consumed_nothing client_addr w).mono (Nat.zero_le _)).at rfl
theorem received_missed (received_ : Received s w s' w') : s'.missed_packets = s.missed_packets := by
  cases received_ <;> rfl
theorem at_most_one (own : Prop) [Decidable own] : (if own then 1 else 0) ≤ 1 := by
  split <;> omega

/-! ### One pass -/

/-- A pass takes at most one event, however it goes. -/
theorem pass_consumed (client_addr : Addr) (file_name : Name) (max_num_of_resends : Int) (s : Session) (w : World) :
    Consumed client_addr w.events 1 (final (pass client_addr file_name max_num_of_resends s w)) := by
  have spec := pass_spec client_addr file_name max_num_of_resends s w
  generalize pass client_addr file_name max_num_of_resends s w = r at spec ⊢
  have one : ∀ {s' w'}, Received s w s' w' → Consumed client_addr w.events 1 w' :=
    fun received_ => (received_consumed client_addr received_).mono (at_most_one _)
  cases spec with
  | starved => exact ((consumed_nothing client_addr w).mono (Nat.zero_le 1)).at rfl
  | missed waited => exact waited_consumed client_addr waited rfl
  | abandoned waited => exact waited_consumed client_addr waited rfl
  | unknown_user received_ => exact (one received_).at rfl
  | taken received_ own taken =>
    cases taken with
    | bad_block => exact (one received_).at rfl
    | unexpected => exact (one received_).at rfl
    | overrun => exact (one received_).at rfl
    | full => exact (one received_).at rfl
    | last => exact (one received_).at rfl
    | exited same exited => exact (one received_).at same
  | exited took exited =>
    cases took with
    | nothing same => exact ((consumed_nothing client_addr w).mono (Nat.zero_le 1)).at same
    | waited waited => exact waited_consumed client_addr waited rfl
    | datagram first => exact (datagram_consumed client_addr first rfl).mono (at_most_one _)

/-- The bound is kept while the session goes on. -/
theorem spent_pass (spent : Spent client_addr max_num_of_resends events s w)
    (next : pass client_addr file_name max_num_of_resends s w = .ok (.inl s') w') :
    Spent client_addr max_num_of_resends events s' w' := by
  have spec := pass_spec client_addr file_name max_num_of_resends s w
  rw [next] at spec
  cases spec with
  | missed waited asked within =>
    constructor
    · exact spent.consumed.more (waited_consumed client_addr waited rfl)
    · show s.missed_packets + 1 ≤ _
      omega
  | unknown_user received_ asked foreign =>
    have now := received_consumed client_addr received_
    rw [if_neg foreign] at now
    constructor
    · rw [received_number received_,received_missed received_]
      exact (spent.consumed.more now).at rfl
    · rw [received_missed received_]
      exact spent.within
  | taken received_ own taken =>
    have now := received_consumed client_addr received_
    rw [if_pos own] at now
    cases taken with
    | full asked good =>
      have number := accepted_number received_ own (.inl good)
      constructor
      · show Consumed client_addr events ((_ + 1 : UInt16).toNat * _ + 0) _
        rw [number,Nat.succ_mul]
        refine Consumed.mono ((spent.consumed.more now).at rfl) ?_
        have within := spent.within
        omega
      · exact Nat.zero_le _

/-! ### Whole sessions -/

theorem spent_start (client_addr : Addr) (max_num_of_resends : Int) (w : World) :
    Spent client_addr max_num_of_resends w.events Session.start w := by
  constructor
  · exact ⟨List.Sublist.refl _,Nat.le_add_right _ _⟩
  · exact Nat.zero_le _
/-- A session that waits may still take one event. -/
theorem spent_bound (spent : Spent client_addr max_num_of_resends events s w) :
    Consumed client_addr events (65536 * (max_num_of_resends.toNat + 1) - 1) w := by
  refine spent.consumed.mono ?_
  have number : s.block_number.toNat ≤ 65535 := Nat.le_of_lt_succ s.block_number.toNat_lt
  have scaled := Nat.mul_le_mul_right (max_num_of_resends.toNat + 1) number
  have := spent.within
  omega
theorem waiting_starved (waits : pass client_addr file_name max_num_of_resends s w = .error .waiting w') : w.events = [] := by
  have spec := pass_spec client_addr file_name max_num_of_resends s w
  rw [waits] at spec
  cases spec with
  | starved watches silent asked => exact silent
  | taken received_ own taken => cases taken

/-- A session takes at most 65536 * (max_num_of_resends + 1) events besides the datagrams
    of strangers, and ends with that many, whatever fails. -/
theorem session_bound (client_addr : Addr) (file_name : Name) (max_num_of_resends : Int) (w : World) :
    Bounded client_addr w.events (65536 * (max_num_of_resends.toNat + 1))
      (recieving_data_mode client_addr file_name max_num_of_resends w) := by
  rw [recieving_data_mode]
  refine Loop.ensures (I := fun at_ => Spent client_addr max_num_of_resends w.events at_.1 at_.2)
    (Q := Bounded client_addr w.events (65536 * (max_num_of_resends.toNat + 1)))
    (spent_start client_addr max_num_of_resends w) (fun _ _ holds next => spent_pass holds (passBody_inl next)) ?_
  rintro ⟨s,v⟩ r spent left
  have before := spent_bound (s := s) (w := v) spent
  have one := pass_consumed client_addr file_name max_num_of_resends s v
  have after := before.more one
  rw [Nat.sub_add_cancel (by omega)] at after
  rcases passBody_inr left with ⟨how,v',last,out⟩ | ⟨stop,v',fails,out⟩
  · rw [last] at after
    rw [out]
    exact ⟨after,fun _ _ => by simp⟩
  · rw [fails] at after
    rw [out]
    refine ⟨after,fun enough v'' waits => ?_⟩
    cases waits
    have silent := waiting_starved fails
    have none_left : load client_addr v.events = 0 := by rw [silent]; rfl
    have here := before.few
    omega

end StructureOfOs.SessionBound
