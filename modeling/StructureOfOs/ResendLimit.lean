import StructureOfOs.CalmSessions

/-!
When a session is abandoned. What has happened to it so far is a history, latest first.
The variable that both loops share counts the waits in vain since the last accepted block
(`timeouts_since`), datagrams of strangers between them or not, and the session is
abandoned with the first that is beyond the limit.
-/
namespace StructureOfOs.ResendLimit
open StructureOfOs.Loops StructureOfOs.Server StructureOfOs.ServerPasses StructureOfOs.Blocks StructureOfOs.CalmSessions

/-- What a pass is about: `select` returns 0, a datagram of somebody else, or one of the
    client with its block number. A session that goes on after the last has accepted it. -/
inductive Happening
  | timeout
  | stranger
  | block (number : UInt16)
deriving DecidableEq, Repr
def happening (client_addr : Addr) (s : Session) (w : World) : Option Happening :=
  if s.readfds then
    match w.events with
    | [] => none
    | .timeout :: _ => some .timeout
    | .datagram d :: _ => some (if d.sender = client_addr then .block (block_number (message d)) else .stranger)
  else some .timeout
/-- What has happened to the session that has come to these variables. -/
inductive History (client_addr : Addr) (file_name : Name) (max_num_of_resends : Int) (w : World) :
    List Happening → Session → World → Prop
  | start : History client_addr file_name max_num_of_resends w [] Session.start w
  | pass {h : Happening} {hs : List Happening} {s s' : Session} {v v' : World}
      (before : History client_addr file_name max_num_of_resends w hs s v) (now : happening client_addr s v = some h)
      (next : pass client_addr file_name max_num_of_resends s v = .ok (.inl s') v') :
    History client_addr file_name max_num_of_resends w (h :: hs) s' v'

def Happening.accepted : Happening → Option UInt16
  | .block number => some number
  | _ => none
/-- The timeouts since the last accepted block, or since the start. -/
def timeouts_since (hs : List Happening) : Nat := (hs.takeWhile fun h => h.accepted.isNone).count .timeout
/-- The number of the last accepted block, 0 if there is none. -/
def last_accepted (hs : List Happening) : UInt16 := (hs.findSome? Happening.accepted).getD 0

def abandoning : Packet := .ERROR REACHED_MAX_RESENDS "Abandoning file transmission"
/-- With this history the session is abandoned by a timeout on the limit, repeats an ACK at
    any earlier one, and is abandoned by nothing else. -/
structure OnLimit (client_addr : Addr) (file_name : Name) (max_num_of_resends : Int) (hs : List Happening) (s : Session) (v : World) :
    Prop where
  within : timeouts_since hs ≤ max_num_of_resends
  abandons : happening client_addr s v = some .timeout → timeouts_since hs = max_num_of_resends →
    ∃ events, pass client_addr file_name max_num_of_resends s v =
      .ok (.inr .abandoned) ((({ v with events := events } : World).said client_addr abandoning).removed file_name)
  resends : happening client_addr s v = some .timeout → timeouts_since hs < max_num_of_resends →
    ∃ events s', pass client_addr file_name max_num_of_resends s v =
      .ok (.inl s') (({ v with events := events } : World).said client_addr (.ACK (last_accepted hs)))
  goes_on : happening client_addr s v ≠ some .timeout →
    (∀ v', pass client_addr file_name max_num_of_resends s v ≠ .ok (.inr .abandoned) v') ∧
    ∀ addr, (addr,abandoning) ∈ (final (pass client_addr file_name max_num_of_resends s v)).sent → (addr,abandoning) ∈ v.sent

variable {client_addr : Addr} {file_name : Name} {max_num_of_resends : Int} {s s' : Session} {w v v' : World}
variable {h : Happening} {hs : List Happening}

/-! ### Histories -/

@[simp] theorem timeouts_since_timeout (hs : List Happening) : timeouts_since (.timeout :: hs) = timeouts_since hs + 1 := by
  simp [timeouts_since,Happening.accepted]
@[simp] theorem timeouts_since_stranger (hs : List Happening) : timeouts_since (.stranger :: hs) = timeouts_since hs := by
  simp [timeouts_since,Happening.accepted]
@[simp] theorem timeouts_since_block (number : UInt16) (hs : List Happening) : timeouts_since (.block number :: hs) = 0 := by
  simp [timeouts_since,Happening.accepted]
@[simp] theorem last_accepted_timeout (hs : List Happening) : last_accepted (.timeout :: hs) = last_accepted hs := rfl
@[simp] theorem last_accepted_stranger (hs : List Happening) : last_accepted (.stranger :: hs) = last_accepted hs := rfl
@[simp] theorem last_accepted_block (number : UInt16) (hs : List Happening) : last_accepted (.block number :: hs) = number :=
  rfl

/-- The events say what a pass is about. -/
inductive About (client_addr : Addr) (s : Session) (v : World) : Option Happening → Prop
  | nothing (watches : s.readfds = true) (silent : v.events = []) : About client_addr s v none
  | timeout {events : List Event} (waited : Waited s v events) : About client_addr s v (some .timeout)
  | stranger {d : Datagram} {events : List Event} (watches : s.readfds = true) (first : v.events = .datagram d :: events)
      (foreign : d.sender ≠ client_addr) : About client_addr s v (some .stranger)
  | block {d : Datagram} {events : List Event} (watches : s.readfds = true) (first : v.events = .datagram d :: events)
      (own : d.sender = client_addr) : About client_addr s v (some (.block (block_number (message d))))
theorem happening_about (client_addr : Addr) (s : Session) (v : World) : About client_addr s v (happening client_addr s v) := by
  unfold happening
  split
  · rename_i watches
    split
    · rename_i silent
      exact .nothing watches silent
    · rename_i first
      exact .timeout (.silence watches first)
    · rename_i d events first
      split
      · rename_i own
        exact .block watches first own
      · rename_i foreign
        exact .stranger watches first foreign
  · rename_i deaf
    exact .timeout (.deaf (by simpa using deaf))

/-! ### The counter -/

/-- The variables say what the history says, and no call has failed. -/
structure Counted (file_name : Name) (max_num_of_resends : Int) (hs : List Happening) (s : Session) (v : World) : Prop where
  calm : Calm file_name v
  missed : s.missed_packets = timeouts_since hs
  number : s.block_number = last_accepted hs
  within : timeouts_since hs ≤ max_num_of_resends

theorem counted_start (limit : 0 ≤ max_num_of_resends) (calm : Calm file_name w) :
    Counted file_name max_num_of_resends [] Session.start w :=
  ⟨calm,rfl,rfl,limit⟩
/-- One more happening. -/
theorem counted_pass (counted : Counted file_name max_num_of_resends hs s v) (now : happening client_addr s v = some h)
    (next : pass client_addr file_name max_num_of_resends s v = .ok (.inl s') v') :
    Counted file_name max_num_of_resends (h :: hs) s' v' := by
  obtain ⟨calm,missed_,number,within⟩ := counted
  have about := happening_about client_addr s v
  rw [now] at about
  cases about with
  | timeout waited =>
    rw [calm_waited calm waited] at next
    split at next
    · cases next
    · rename_i below
      cases next
      refine ⟨(calm.at _).said _ _,by simp [missed,missed_],by simpa [missed] using number,?_⟩
      simp only [timeouts_since_timeout]
      omega
  | stranger watches first foreign =>
    rw [calm_foreign calm watches first foreign] at next
    cases next
    refine ⟨(calm.at _).said _ _,?_,?_,?_⟩
    · simpa [received] using missed_
    · simpa [received] using number
    · simpa using within
  | @block d events watches first own =>
    rw [calm_own calm watches first own] at next
    unfold judged at next
    split at next
    · cases next
    · cases next
    · cases next
    · rename_i good
      cases next
      obtain ⟨block,_⟩ := (verdict_full_iff own).mp good
      have successor : ((received s d).block_number + 1).toNat = s.block_number.toNat + 1 :=
        advanced_number rfl (block_number_lt block)
      refine ⟨((calm.at _).wrote _).said _ _,by simp [advanced],?_,?_⟩
      · rw [last_accepted_block]
        exact UInt16.toNat.inj (successor.trans block.number.symm)
      · rw [timeouts_since_block]
        omega
    · cases next

theorem history_counted (limit : 0 ≤ max_num_of_resends) (calm : Calm file_name w)
    (history : History client_addr file_name max_num_of_resends w hs s v) : Counted file_name max_num_of_resends hs s v := by
  induction history with
  | start => exact counted_start limit calm
  | pass before now next ih => exact counted_pass ih now next

/-- A pass that is not about a timeout. -/
theorem goes_on_pass (calm : Calm file_name v) (other : happening client_addr s v ≠ some .timeout) :
    (∀ v', pass client_addr file_name max_num_of_resends s v ≠ .ok (.inr .abandoned) v') ∧
    ∀ addr, (addr,abandoning) ∈ (final (pass client_addr file_name max_num_of_resends s v)).sent → (addr,abandoning) ∈ v.sent := by
  have about := happening_about client_addr s v
  cases now : happening client_addr s v with
  | none =>
    rw [now] at about
    cases about with
    | nothing watches silent =>
      rw [calm_starved calm watches silent]
      exact ⟨fun _ => by simp,fun _ => id⟩
  | some h =>
    rw [now] at about
    cases about with
    | timeout waited => exact absurd now other
    | stranger watches first foreign =>
      rw [calm_foreign calm watches first foreign]
      exact ⟨fun _ => by simp,fun addr among => by simpa [final,World.said,abandoning] using among⟩
    | block watches first own =>
      rw [calm_own calm watches first own]
      unfold judged
      split <;> exact ⟨fun _ => by simp,
        fun addr among => by
          simpa [final,World.said,World.removed,World.wrote,abandoning,INVALID_BLOCK_NUM,REACHED_MAX_RESENDS] using among⟩

theorem counted_on_limit (client_addr : Addr) (counted : Counted file_name max_num_of_resends hs s v) :
    OnLimit client_addr file_name max_num_of_resends hs s v := by
  obtain ⟨calm,missed_,number,within⟩ := counted
  have about := happening_about client_addr s v
  refine ⟨within,fun now on => ?_,fun now below => ?_,goes_on_pass calm⟩
  · rw [now] at about
    cases about with
    | @timeout events waited =>
      refine ⟨events,?_⟩
      rw [calm_waited calm waited,if_pos (by omega)]
      rfl
  · rw [now] at about
    cases about with
    | @timeout events waited =>
      refine ⟨events,missed s,?_⟩
      rw [calm_waited calm waited,if_neg (by omega),number]

/-! ### Whole sessions -/

/-- Wherever a session leads there is its history. -/
theorem leads_history (client_addr : Addr) (max_num_of_resends : Int) (calm : Calm file_name w) (limit : 0 ≤ max_num_of_resends)
    (leads : Leads (session_loop client_addr file_name max_num_of_resends) (Session.start,w) (s,v)) :
    ∃ hs, History client_addr file_name max_num_of_resends w hs s v := by
  refine leads.invariant (I := fun at_ => ∃ hs, History client_addr file_name max_num_of_resends w hs at_.1 at_.2) ⟨[],.start⟩ ?_
  rintro ⟨s,v⟩ ⟨s',v'⟩ ⟨hs,history⟩ left
  have next := passBody_inl left
  have about := happening_about client_addr s v
  cases now : happening client_addr s v with
  | none =>
    rw [now] at about
    cases about with
    | nothing watches silent =>
      have still := (history_counted limit calm history).calm
      rw [calm_starved still watches silent] at next
      cases next
  | some h => exact ⟨h :: hs,.pass history now next⟩
/-- What has a history the session leads to. -/
theorem history_leads (history : History client_addr file_name max_num_of_resends w hs s v) :
    Leads (session_loop client_addr file_name max_num_of_resends) (Session.start,w) (s,v) := by
  induction history with
  | start => exact .refl _
  | pass before now next ih => exact ih.snoc (passBody_next next)

/-- The session is abandoned by the timeout that follows as many as the limit since the
    last accepted block, and by nothing else. -/
theorem abandons_on_limit (client_addr : Addr) (file_name : Name) (max_num_of_resends : Int) (w : World)
    (limit : 0 ≤ max_num_of_resends) (faultless : w.oracle.faults = []) (created : (w.files file_name).isSome = true) :
    (∀ s v, Leads (session_loop client_addr file_name max_num_of_resends) (Session.start,w) (s,v) →
      ∃ hs, History client_addr file_name max_num_of_resends w hs s v) ∧
    (∀ hs s v, History client_addr file_name max_num_of_resends w hs s v →
      OnLimit client_addr file_name max_num_of_resends hs s v) ∧
    ((∃ v', recieving_data_mode client_addr file_name max_num_of_resends w = .ok .abandoned v') ↔
      ∃ hs s v, History client_addr file_name max_num_of_resends w hs s v ∧ happening client_addr s v = some .timeout ∧
        timeouts_since hs = max_num_of_resends) := by
  have calm : Calm file_name w := ⟨faultless,created⟩
  have histories : ∀ s v, Leads (session_loop client_addr file_name max_num_of_resends) (Session.start,w) (s,v) →
      ∃ hs, History client_addr file_name max_num_of_resends w hs s v :=
    fun _ _ => leads_history client_addr max_num_of_resends calm limit
  have on_limits : ∀ hs s v, History client_addr file_name max_num_of_resends w hs s v →
      OnLimit client_addr file_name max_num_of_resends hs s v :=
    fun _ _ _ history => counted_on_limit client_addr (history_counted limit calm history)
  refine ⟨histories,on_limits,?_,?_⟩
  · rintro ⟨v',abandoned⟩
    obtain ⟨⟨s,v⟩,leads,left⟩ := run_leads (session_loop client_addr file_name max_num_of_resends) (Session.start,w)
    obtain ⟨hs,history⟩ := histories s v leads
    have on := on_limits hs s v history
    rw [recieving_data_mode] at abandoned
    rw [abandoned] at left
    obtain ⟨how,u,last,out⟩ | ⟨stop,u,last,out⟩ := passBody_inr left
    · cases out
      have timeout : happening client_addr s v = some .timeout := by
        by_contra other
        exact (on.goes_on other).1 v' last
      refine ⟨hs,s,v,history,timeout,Int.le_antisymm on.within (Int.not_lt.mp fun below => ?_)⟩
      obtain ⟨events,s',next⟩ := on.resends timeout below
      cases last.symm.trans next
    · cases out
  · rintro ⟨hs,s,v,history,timeout,on⟩
    obtain ⟨events,last⟩ := (on_limits hs s v history).abandons timeout on
    exact ⟨_,(history_leads history).run.trans (session_last last)⟩

/-- A client that falls silent. -/
def client : Addr := ⟨2130706433,4000⟩
def silence (events : List Event) : World where
  events := events
  oracle := ⟨[],[]⟩
  sent := [(client,.ACK 0)]
  files := Function.update (fun _ => none) [102] (some [])
  disk := [.exists_ [102],.fopen [102]]

/-- A stranger's datagram comes before the silence. -/
def stranger : Datagram := ⟨⟨2130706433,5000⟩,[0,3,0,1]⟩
def coming : List Event := [.datagram stranger,.timeout,.timeout]
def refused : World := (silence [.timeout,.timeout]).said stranger.sender (.ERROR DATA_BEFORE_WRQ "Unknown user")
def repeated : World := ({ refused with events := [.timeout] } : World).said client (.ACK 0)
theorem abandons_on_limit_one : ∃ v', recieving_data_mode client [102] 1 (silence coming) = .ok .abandoned v' := by
  have turned_away : pass client [102] 1 Session.start (silence coming) = .ok (.inl (received Session.start stranger)) refused := rfl
  have told_again : pass client [102] 1 (received Session.start stranger) refused =
      .ok (.inl (missed (received Session.start stranger))) repeated := rfl
  have history : History client [102] 1 (silence coming) [.timeout,.stranger] _ repeated :=
    .pass (.pass .start rfl turned_away) rfl told_again
  exact (abandons_on_limit client [102] 1 (silence coming) (by decide) rfl (by simp [silence])).2.2.mpr ⟨_,_,_,history,rfl,rfl⟩

end StructureOfOs.ResendLimit
