import StructureOfOs.Blocks
import Mathlib.Data.List.Chain

/-!
What a session writes and acknowledges. While it goes on, the blocks 1, 2, .. of the
client have been written one after the other, all of them full, and the last ACK is
the number of the last of them (`Uploading`). A session that ends normally has then
written the last, shorter block. This holds whatever arrives and whatever fails.
-/
namespace StructureOfOs.UploadIntegrity
open StructureOfOs.Loops StructureOfOs.Server StructureOfOs.ServerPasses StructureOfOs.Blocks

/-- The numbers of the ACKs sent to an address. -/
def acks (addr : Addr) (sent : List (Addr × Packet)) : List Nat :=
  sent.filterMap fun
    | (to_,.ACK number) => if to_ = addr then some number.toNat else none
    | (_,.ERROR _ _) => none
/-- The ACKs go up by one or stay, and the last one has the given number. -/
structure Acked (addr : Addr) (number : Nat) (sent : List (Addr × Packet)) : Prop where
  last : (acks addr sent).getLast? = some number
  steps : (acks addr sent).IsChain fun a b => b = a ∨ b = a + 1

/-- The session waits, and has written these blocks since it started in the world `w`. -/
structure Uploading (client_addr : Addr) (file_name : Name) (earlier : List (Addr × Packet)) (w : World)
    (blocks : List Datagram) (s : Session) (w' : World) : Prop where
  count : s.block_number.toNat = blocks.length
  full : FullBlocks client_addr blocks
  came : ∃ taken, datagrams w.events = taken ++ datagrams w'.events ∧ blocks.Sublist taken
  disk : w'.disk = w.disk ++ blocks.map fun d => .fwrite file_name (payload d)
  content : w'.files file_name = some (blocks.flatMap payload)
  acked : ∃ said, w'.sent = earlier ++ said ∧ Acked client_addr blocks.length said

variable {client_addr : Addr} {file_name : Name} {max_num_of_resends : Int} {earlier said : List (Addr × Packet)}
variable {s s' : Session} {w w' w'' : World} {blocks : List Datagram} {d : Datagram} {n : Nat}

/-! ### The ACKs -/

theorem acks_append (addr : Addr) (first second : List (Addr × Packet)) :
    acks addr (first ++ second) = acks addr first ++ acks addr second := by
  simp [acks]
theorem acked_first (addr : Addr) : Acked addr 0 [(addr,.ACK 0)] := by
  constructor
  · simp [acks]
  · simp [acks]
theorem acked_error {addr to_ : Addr} {code : UInt16} {text : String} (acked : Acked addr n said) :
    Acked addr n (said ++ [(to_,.ERROR code text)]) := by
  have same : acks addr (said ++ [(to_,.ERROR code text)]) = acks addr said := by simp [acks_append]; simp [acks]
  constructor
  · rw [same]; exact acked.last
  · rw [same]; exact acked.steps
theorem acked_ack {addr : Addr} {number : UInt16} (acked : Acked addr n said)
    (next : number.toNat = n ∨ number.toNat = n + 1) : Acked addr number.toNat (said ++ [(addr,.ACK number)]) := by
  have more : acks addr (said ++ [(addr,.ACK number)]) = acks addr said ++ [number.toNat] := by
    simp [acks_append]; simp [acks]
  constructor
  · rw [more]; simp
  · rw [more]
    refine acked.steps.append (by simp) ?_
    intro a last b first
    rw [acked.last] at last
    cases last
    simp only [List.head?_cons,Option.mem_def,Option.some.injEq] at first
    rw [← first]
    exact next

/-! ### One pass -/

theorem fullBlocks_snoc (full : FullBlocks client_addr blocks) (block : IsBlock client_addr (blocks.length + 1) d)
    (whole : (message d).length = PACKET_SIZE) : FullBlocks client_addr (blocks ++ [d]) := by
  intro i inside
  by_cases before : i < blocks.length
  · rw [List.getElem_append_left before]
    exact full i before
  · have last : i = blocks.length := by simp at inside; omega
    subst last
    simpa using ⟨block,whole⟩
theorem came_more (came : ∃ taken, datagrams w.events = taken ++ datagrams w'.events ∧ blocks.Sublist taken)
    {events : List Event} (first : w'.events = .datagram d :: events) :
    (∃ taken, datagrams w.events = taken ++ datagrams events ∧ blocks.Sublist taken) ∧
      ∃ taken, datagrams w.events = taken ++ datagrams events ∧ (blocks ++ [d]).Sublist taken := by
  obtain ⟨taken,split,sub⟩ := came
  rw [first,datagrams] at split
  refine ⟨⟨taken ++ [d],by simpa using split,sub.trans (List.sublist_append_left taken [d])⟩,
    ⟨taken ++ [d],by simpa using split,List.Sublist.append sub (List.Sublist.refl [d])⟩⟩

/-- The session goes on: it has waited in vain, turned somebody away, or written a block. -/
theorem uploading_pass (uploading : Uploading client_addr file_name earlier w blocks s w')
    (next : pass client_addr file_name max_num_of_resends s w' = .ok (.inl s') w'') :
    ∃ blocks', Uploading client_addr file_name earlier w blocks' s' w'' := by
  have spec := pass_spec client_addr file_name max_num_of_resends s w'
  rw [next] at spec
  obtain ⟨said,sent,acked⟩ := uploading.acked
  cases spec with
  | missed waited asked within =>
    have same : s.block_number.toNat = blocks.length := uploading.count
    refine ⟨blocks,⟨same,uploading.full,?_,uploading.disk,uploading.content,?_⟩⟩
    · obtain ⟨taken,split,sub⟩ := uploading.came
      exact ⟨taken,split.trans (by rw [← waited_datagrams waited]; rfl),sub⟩
    · refine ⟨said ++ [(client_addr,.ACK s.block_number)],by simp [World.said,sent],?_⟩
      rw [← same]
      exact acked_ack acked (.inl same)
  | unknown_user received asked foreign =>
    have same : s'.block_number.toNat = blocks.length := by rw [received_number received]; exact uploading.count
    have told : Acked client_addr blocks.length (said ++ [(s'.curr_client_addr,.ERROR DATA_BEFORE_WRQ "Unknown user")]) :=
      acked_error acked
    cases received with
    | datagram watches first asked' =>
      exact ⟨blocks,⟨same,uploading.full,(came_more uploading.came first).1,uploading.disk,uploading.content,
        ⟨_,by simp [World.said,World.asked,sent],told⟩⟩⟩
    | failure watches asked' answered =>
      exact ⟨blocks,⟨same,uploading.full,uploading.came,uploading.disk,uploading.content,
        ⟨_,by simp [World.said,World.asked,sent],told⟩⟩⟩
  | taken received own taken =>
    cases taken with
    | full asked good =>
      obtain ⟨d,events,o,watches,first,_,rfl,rfl,block,wrote,_⟩ := accepted received own (.inl good)
      have number : (s.block_number + 1).toNat = blocks.length + 1 :=
        advanced_number uploading.count (by rw [← uploading.count]; exact block_number_lt block)
      rw [uploading.count] at block
      refine ⟨blocks ++ [d],⟨?_,fullBlocks_snoc uploading.full block (verdict_full good),
        (came_more uploading.came first).2,?_,?_,?_⟩⟩
      · show (s.block_number + 1).toNat = _
        simp [number]
      · simp [World.said,World.wrote,World.asked,uploading.disk,wrote]
      · simp [World.said,World.wrote,World.asked,uploading.content,wrote]
      · refine ⟨said ++ [(client_addr,.ACK (s.block_number + 1))],by simp [World.said,World.wrote,World.asked,sent]; rfl,?_⟩
        have acked' := acked_ack acked (.inr number)
        rw [number] at acked'
        simpa using acked'

/-- What a session that ends normally has received and written. -/
structure Complete (client_addr : Addr) (file_name : Name) (w : World) (blocks : List Datagram) (last : Datagram)
    (w' : World) : Prop where
  full : FullBlocks client_addr blocks
  final : IsBlock client_addr (blocks.length + 1) last
  short : PACKET_SIZE - DATA_SIZE ≤ (message last).length ∧ (message last).length < PACKET_SIZE
  came : (blocks ++ [last]).Sublist (datagrams w.events)
  content : w'.files file_name = some ((blocks ++ [last]).flatMap payload)

/-- The last pass of a session that ends normally writes the last block. -/
theorem uploading_complete (uploading : Uploading client_addr file_name earlier w blocks s w')
    (ended : pass client_addr file_name max_num_of_resends s w' = .ok (.inr .complete) w'') :
    ∃ last, Complete client_addr file_name w blocks last w'' := by
  have spec := pass_spec client_addr file_name max_num_of_resends s w'
  rw [ended] at spec
  cases spec with
  | taken received own taken =>
    cases taken with
    | last asked good =>
      obtain ⟨d,events,o,watches,first,_,rfl,rfl,block,wrote,whole⟩ := accepted received own (.inr good)
      rw [uploading.count] at block
      obtain ⟨taken,split,sub⟩ := (came_more uploading.came first).2
      refine ⟨d,⟨uploading.full,block,⟨whole,verdict_last good⟩,?_,?_⟩⟩
      · rw [split]
        exact sub.trans (List.sublist_append_left taken _)
      · simp [World.said,World.wrote,World.asked,uploading.content,wrote]

/-- The ACKs so far go up by one or stay. -/
def AcksInOrder (client_addr : Addr) (earlier : List (Addr × Packet)) (w : World) : Prop :=
  ∃ said n, w.sent = earlier ++ said ∧ Acked client_addr n said
theorem uploading_acks (uploading : Uploading client_addr file_name earlier w blocks s w') :
    AcksInOrder client_addr earlier (final (pass client_addr file_name max_num_of_resends s w')) := by
  obtain ⟨said,sent,acked⟩ := uploading.acked
  have unsaid : ∀ {v : World}, v.sent = w'.sent → AcksInOrder client_addr earlier v :=
    fun same => ⟨said,_,same.trans sent,acked⟩
  have told : ∀ {v v' : World} {to_ code text}, v.sent = w'.sent → v'.sent = v.sent ++ [(to_,.ERROR code text)] →
      AcksInOrder client_addr earlier v' :=
    fun quiet more => ⟨_,_,by rw [more,quiet,sent,List.append_assoc],acked_error acked⟩
  have answered : ∀ {v v' : World} {number : UInt16}, number.toNat = blocks.length ∨ number.toNat = blocks.length + 1 →
      v.sent = w'.sent → v'.sent = v.sent ++ [(client_addr,.ACK number)] → AcksInOrder client_addr earlier v' :=
    fun next quiet more => ⟨_,_,by rw [more,quiet,sent,List.append_assoc],acked_ack acked next⟩
  have left : ∀ {v v' : World}, v.sent = w'.sent → v.files = w'.files → Exited file_name v v' →
      AcksInOrder client_addr earlier v' := by
    intro v v' quiet files exited
    cases exited with
    | removed faulty gone still sends => exact unsaid (still.trans quiet)
    | left faulty there still unsent => exact unsaid (still.trans quiet)
    | missing absent => rw [files,uploading.content] at absent; cases absent
  have spec := pass_spec client_addr file_name max_num_of_resends s w'
  generalize pass client_addr file_name max_num_of_resends s w' = r at spec ⊢
  cases spec with
  | starved => exact unsaid rfl
  | missed => exact answered (.inl uploading.count) rfl rfl
  | abandoned => exact told rfl rfl
  | unknown_user received => exact told (received_sent received) rfl
  | taken received own taken =>
    have quiet := received_sent received
    cases taken with
    | bad_block => exact told quiet rfl
    | unexpected => exact told quiet rfl
    | overrun => exact unsaid quiet
    | full asked good =>
      have number := accepted_number received own (.inl good)
      exact answered (.inr (by rw [number,uploading.count])) quiet rfl
    | last asked good =>
      have number := accepted_number received own (.inr good)
      exact answered (.inr (by rw [number,uploading.count])) quiet rfl
    | exited same exited => exact left quiet (received_files received) exited
  | exited took exited => exact left rfl rfl exited

/-! ### Whole sessions -/

theorem uploading_start (created : w.files file_name = some []) (answered : w.sent = earlier ++ [(client_addr,.ACK 0)]) :
    Uploading client_addr file_name earlier w [] Session.start w where
  count := rfl
  full i inside := by simp at inside
  came := ⟨[],rfl,List.Sublist.refl []⟩
  disk := by simp
  content := by simpa using created
  acked := ⟨_,answered,acked_first client_addr⟩
theorem uploading_leads (created : w.files file_name = some []) (answered : w.sent = earlier ++ [(client_addr,.ACK 0)])
    (leads : Leads (session_loop client_addr file_name max_num_of_resends) (Session.start,w) (s,w')) :
    ∃ blocks, Uploading client_addr file_name earlier w blocks s w' :=
  leads.invariant (I := fun at_ => ∃ blocks, Uploading client_addr file_name earlier w blocks at_.1 at_.2)
    ⟨[],uploading_start created answered⟩
    fun _ _ ⟨_,uploading⟩ next => uploading_pass uploading (passBody_inl next)

/-- From ACK 0 on, whatever arrives and whatever fails. Where the session waits, it has
    written full blocks 1, .., n of the client, and its last ACK is n; the ACKs go up by
    one or stay to the end; and when the session ends normally, the file is what the
    blocks 1, .., n carry, of which only the last is short. -/
theorem upload_integrity (client_addr : Addr) (file_name : Name) (max_num_of_resends : Int)
    (earlier : List (Addr × Packet)) (w : World) (created : w.files file_name = some [])
    (answered : w.sent = earlier ++ [(client_addr,.ACK 0)]) :
    (∀ s w', Leads (session_loop client_addr file_name max_num_of_resends) (Session.start,w) (s,w') →
      ∃ blocks, Uploading client_addr file_name earlier w blocks s w') ∧
    AcksInOrder client_addr earlier (final (recieving_data_mode client_addr file_name max_num_of_resends w)) ∧
    ∀ w', recieving_data_mode client_addr file_name max_num_of_resends w = .ok .complete w' →
      ∃ blocks last, Complete client_addr file_name w blocks last w' := by
  obtain ⟨⟨s,v⟩,leads,left⟩ := run_leads (session_loop client_addr file_name max_num_of_resends) (Session.start,w)
  obtain ⟨blocks,uploading⟩ := uploading_leads created answered leads
  refine ⟨fun s w' leads => uploading_leads created answered leads,?_,fun w' ended => ?_⟩
  · rw [recieving_data_mode,final_last left]
    exact uploading_acks uploading
  · rw [recieving_data_mode] at ended
    rw [ended] at left
    rcases passBody_inr left with ⟨how,v',last,out⟩ | ⟨stop,v',last,out⟩
    · cases out
      exact ⟨blocks,uploading_complete uploading last⟩
    · cases out

/-- A client sends the two bytes of a file. -/
def hi_client : Addr := ⟨2130706433,4000⟩
def hi_asked : World where
  events := [.datagram ⟨hi_client,[0,3,0,1,104,105]⟩]
  oracle := ⟨[],[]⟩
  sent := [(hi_client,.ACK 0)]
  files := Function.update (fun _ => none) [102] (some [])
  disk := [.exists_ [102],.fopen [102]]
def hi_done : World := (({ hi_asked with events := [] } : World).wrote [102] [104,105]).said hi_client (.ACK 1)
theorem hi_completes : recieving_data_mode hi_client [102] 3 hi_asked = .ok .complete hi_done := run_end (by rfl)
theorem upload_integrity_hi : ∃ blocks last, Complete hi_client [102] hi_asked blocks last hi_done :=
  (upload_integrity hi_client [102] 3 [] hi_asked (by simp [hi_asked]) rfl).2.2 hi_done hi_completes

end StructureOfOs.UploadIntegrity
