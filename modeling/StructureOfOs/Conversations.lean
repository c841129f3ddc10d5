import StructureOfOs.CalmSessions
import StructureOfOs.FailedUploads
import StructureOfOs.RequestLoop
import StructureOfOs.WriteRequests

/-!
What the server says. While no call fails, every datagram that it takes is answered by
exactly one packet, to its sender and before the next is taken; the only other packets
follow waits in vain (`answers_each_once`). Such a server never exits: it goes on until no
datagram is left, or it accesses memory outside an object, which takes a datagram that is shorter
than a header or whose name does not end (`Tame`). Whatever fails, what it sends fits
its struct and can be read back (`sent_readable`).
-/
namespace StructureOfOs.Conversations
open StructureOfOs.Loops StructureOfOs.Frames
open StructureOfOs.Server StructureOfOs.ServerPasses StructureOfOs.Blocks StructureOfOs.CalmSessions StructureOfOs.Ttftps
open StructureOfOs.ServerArguments StructureOfOs.WriteRequests StructureOfOs.RequestLoop

/-! ### Packets on the wire -/

/-- A datagram of the server as it is read: its size and its opcode say which struct it is, and the
    text of an error ends at its NUL. -/
inductive Message
  | ack (block_number : UInt16)
  | error (error_code : UInt16) (error_message : Bytes)
deriving DecidableEq, Repr
def unpack (bytes : Bytes) : Option Message :=
  if bytes.length = PACKET_SIZE - DATA_SIZE ∧ opcode bytes = ACK_OPCODE then some (.ack (block_number bytes))
  else if bytes.length = PACKET_SIZE ∧ opcode bytes = ERROR_OPCODE then
    (c_string (data bytes)).map (.error (block_number bytes))
  else none
/-- The size of the packet's struct, and what it says. -/
def sizeof : Packet → Nat
  | .ACK _ => PACKET_SIZE - DATA_SIZE
  | .ERROR _ _ => PACKET_SIZE
def meaning : Packet → Message
  | .ACK block_number => .ack block_number
  | .ERROR error_code error_message => .error error_code error_message.toUTF8.toList

variable {packet : Packet} {w w' w'' : World}

theorem field_htons (n m : UInt16) (rest : Bytes) :
    field (htons n ++ htons m ++ rest) 0 = n ∧ field (htons n ++ htons m ++ rest) 2 = m := by
  constructor
  · rw [List.append_assoc,field_append (by simp [htons]),ntohs_htons]
  · show field (htons m ++ rest) 0 = m
    rw [field_append (by simp [htons]),ntohs_htons]
/-- A text with its NUL, and zeros up to the end of its field. -/
theorem text_field {text : Bytes} (whole : 0 ∉ text) (short : text.length < DATA_SIZE) :
    c_string ((text ++ List.replicate DATA_SIZE 0).take DATA_SIZE) = some text := by
  have split : (text ++ List.replicate DATA_SIZE (0 : UInt8)).take DATA_SIZE =
      text ++ 0 :: List.replicate (DATA_SIZE - text.length - 1) 0 := by
    rw [List.take_append,List.take_of_length_le (Nat.le_of_lt short),List.take_replicate]
    congr 1
    rw [← List.replicate_succ]
    congr 1
    omega
  have stops : (text ++ 0 :: List.replicate (DATA_SIZE - text.length - 1) 0).takeWhile (· ≠ 0) = text := by
    rw [List.takeWhile_append_of_pos fun c among => by simpa using fun same : c = 0 => whole (same ▸ among)]
    simp
  rw [split,c_string,if_pos (by simp),stops]

/-- A packet that fits its struct has its size, and is read back. -/
theorem unpack_bytes (fits : Fits packet) : unpack packet.bytes = some (meaning packet) ∧
    packet.bytes.length = sizeof packet := by
  cases packet with
  | ACK number =>
    obtain ⟨code,second⟩ := field_htons ACK_OPCODE number []
    rw [List.append_nil] at code second
    have size : (htons ACK_OPCODE ++ htons number).length = PACKET_SIZE - DATA_SIZE := rfl
    refine ⟨?_,size⟩
    simp only [unpack,Packet.bytes,size,opcode,block_number,code,second,meaning,and_self,↓reduceIte]
  | ERROR code text =>
    obtain ⟨whole,short⟩ := fits
    obtain ⟨first,second⟩ :=
      field_htons ERROR_OPCODE code ((text.toUTF8.toList ++ List.replicate DATA_SIZE 0).take DATA_SIZE)
    have size : (Packet.ERROR code text).bytes.length = PACKET_SIZE := by
      simp only [Packet.bytes,List.length_append,List.length_take,List.length_replicate,htons,List.length_cons,List.length_nil,
        PACKET_SIZE,DATA_SIZE]
      omega
    refine ⟨?_,size⟩
    have other : ¬ (PACKET_SIZE = PACKET_SIZE - DATA_SIZE ∧ opcode (Packet.ERROR code text).bytes = ACK_OPCODE) := by
      simp [PACKET_SIZE,DATA_SIZE]
    have code_is : opcode (Packet.ERROR code text).bytes = ERROR_OPCODE := first
    have number_is : block_number (Packet.ERROR code text).bytes = code := second
    have text_is : c_string (data (Packet.ERROR code text).bytes) = some text.toUTF8.toList := text_field whole short
    rw [unpack,size,if_neg other,if_pos ⟨rfl,code_is⟩,number_is,text_is]
    rfl

/-- Everything that has been sent in between fits. -/
def Says (w w' : World) : Prop := ∃ said, w'.sent = w.sent ++ said ∧ ∀ x ∈ said, Fits x.2
instance : IsPreorder World Says where
  refl w := ⟨[],by simp,by simp⟩
  trans := by
    rintro w w' w'' ⟨said,sent,fit⟩ ⟨said',sent',fit'⟩
    refine ⟨said ++ said',by rw [sent',sent,List.append_assoc],fun x among => ?_⟩
    exact (List.mem_append.mp among).elim (fit x) (fit' x)
theorem kept_says : Kept Says where
  asked _ _ _ := ⟨[],by simp [World.asked],by simp⟩
  came _ _ _ _ := ⟨[],by simp,by simp⟩
  said _ addr packet fits := ⟨[(addr,packet)],rfl,by simpa using fits⟩
  wrote _ _ _ := ⟨[],by simp [World.wrote],by simp⟩
  unwritten _ _ _ := ⟨[],by simp [World.unwritten],by simp⟩
  closed _ _ := ⟨[],by simp [World.closed],by simp⟩
  removed _ _ := ⟨[],by simp [World.removed],by simp⟩
  opened _ _ := ⟨[],by simp [opened],by simp⟩
  checked _ _ := ⟨[],by simp,by simp⟩

/-- Whatever arrives and whatever fails, every packet that the process sends is an ACK of 4 bytes or
    an ERROR of 516 whose text ends within its field, and is read back as it was meant. -/
theorem sent_readable (argv : List Streams.Text) (socket bind : Bool) (memory : Nat → Memory) (w : World) :
    ∃ said, (final (main argv socket bind memory w)).sent = w.sent ++ said ∧
      ∀ x ∈ said, unpack x.2.bytes = some (meaning x.2) ∧ x.2.bytes.length = sizeof x.2 := by
  have spoken : Says w (final (main argv socket bind memory w)) := by
    rcases main_cases argv socket bind memory w with stopped | ⟨settings_,_,serves⟩
    · rw [stopped]
      exact refl w
    · rw [serves]
      have moves := moves_serve_requests kept_says settings_.max_num_of_resends memory
      cases ran : serve_requests settings_.max_num_of_resends memory w with
      | ok r w' => exact moves.ok ran
      | error stop w' => exact moves.error ran
  obtain ⟨said,sent,fit⟩ := spoken
  exact ⟨said,sent,fun x among => unpack_bytes (fit x among)⟩

/-! ### One answer each -/

/-- What the server answers: a datagram, or a wait in vain. -/
abbrev Prompt := Option Datagram
/-- A packet answers a datagram when it goes to its sender. -/
def Answers (prompt : Prompt) (x : Addr × Packet) : Prop := ∀ d, prompt = some d → x.1 = d.sender
/-- Between the two worlds there has been one packet for each datagram and each wait in vain. -/
def Answered (w w' : World) : Prop :=
  ∃ prompts said, datagrams w.events = prompts.filterMap id ++ datagrams w'.events ∧ w'.sent = w.sent ++ said ∧
    List.Forall₂ Answers prompts said
/-- How a server stops in which no call fails: it waits for a datagram that does not come, or it has left
    an object with the last datagram it has taken. -/
inductive Halted (w : World) : Stop → World → Prop
  | waiting {w' : World} (answered : Answered w w') (all : datagrams w'.events = []) : Halted w .waiting w'
  | overrun {v w' : World} {d : Datagram} (answered : Answered w v) (taken : datagrams v.events = d :: datagrams w'.events)
      (silent : w'.sent = v.sent) : Halted w .overrun w'

variable {client_addr : Addr} {file_name : Name} {max_num_of_resends : Int} {s s' : Session} {v : World} {stop : Stop}
variable {d : Datagram} {x : Addr × Packet}

theorem Answered.refl (w : World) : Answered w w := ⟨[],[],by simp,by simp,.nil⟩
theorem Answered.trans (first : Answered w w') (second : Answered w' w'') : Answered w w'' := by
  obtain ⟨prompts,said,came,sent,each⟩ := first
  obtain ⟨prompts',said',came',sent',each'⟩ := second
  refine ⟨prompts ++ prompts',said ++ said',?_,by rw [sent',sent,List.append_assoc],List.rel_append each each'⟩
  rw [came,came',List.filterMap_append,List.append_assoc]
theorem Halted.after (before : Answered w w') (halted : Halted w' stop w'') : Halted w stop w'' := by
  cases halted with
  | waiting answered all => exact .waiting (before.trans answered) all
  | overrun answered taken silent => exact .overrun (before.trans answered) taken silent

theorem answered_datagram (came : datagrams w.events = d :: datagrams w'.events) (sent : w'.sent = w.sent ++ [x])
    (to_sender : x.1 = d.sender) : Answered w w' := by
  refine ⟨[some d],[x],by simpa using came,sent,.cons ?_ .nil⟩
  rintro _ ⟨⟩
  exact to_sender
theorem answered_wait (came : datagrams w.events = datagrams w'.events) (sent : w'.sent = w.sent ++ [x]) : Answered w w' := by
  refine ⟨[none],[x],by simpa using came,sent,.cons ?_ .nil⟩
  rintro _ ⟨⟩

/-- A pass of a session in which no call fails answers what it takes. -/
theorem pass_answers (client_addr : Addr) (max_num_of_resends : Int) (s : Session) (calm : Calm file_name w) :
    (∀ r w', pass client_addr file_name max_num_of_resends s w = .ok r w' → Answered w w' ∧ w'.oracle.faults = []) ∧
    ∀ stop w', pass client_addr file_name max_num_of_resends s w = .error stop w' → Halted w stop w' := by
  have spec := pass_spec client_addr file_name max_num_of_resends s w
  generalize pass client_addr file_name max_num_of_resends s w = r at spec ⊢
  have told : ∀ {w₁ : World} {o : Oracle}, w₁.oracle.faults = [] → Asked w₁.oracle o → o.faults = [] := by
    intro w₁ o faultless asked
    rw [asked.calm faultless]
    exact faultless
  cases spec with
  | starved watches silent asked =>
    refine ⟨by simp,?_⟩
    rintro stop w' ⟨⟩
    exact .waiting ⟨[],[],by simp [World.asked],by simp [World.asked],.nil⟩ (by simp [World.asked,silent,datagrams])
  | missed waited asked within =>
    refine ⟨?_,by simp⟩
    rintro r w' ⟨⟩
    exact ⟨answered_wait (waited_datagrams waited).symm rfl,told calm.faultless asked⟩
  | abandoned waited asked beyond =>
    refine ⟨?_,by simp⟩
    rintro r w' ⟨⟩
    exact ⟨answered_wait (waited_datagrams waited).symm rfl,told calm.faultless asked⟩
  | @unknown_user s' w₁ o received_ asked foreign =>
    refine ⟨?_,by simp⟩
    rintro r w' ⟨⟩
    cases received_ with
    | datagram watches first asked' =>
      exact ⟨answered_datagram (by rw [first]; rfl) rfl rfl,told (told calm.faultless asked') asked⟩
    | failure watches asked' answered => exact absurd calm.faultless (faulty_of_answered answered)
  | taken received_ own taken =>
    cases received_ with
    | failure watches asked' answered => exact absurd calm.faultless (faulty_of_answered answered)
    | @datagram o' d events watches first asked' =>
      have came : datagrams w.events = d :: datagrams events := by rw [first]; rfl
      have faultless := told calm.faultless asked'
      have calm' : Calm file_name { w with events := events, oracle := o' } := ⟨faultless,calm.there⟩
      cases taken with
      | bad_block asked bad | unexpected asked bad | last asked good =>
        refine ⟨?_,by simp⟩
        rintro r w' ⟨⟩
        exact ⟨answered_datagram came rfl own.symm,told faultless asked⟩
      | full asked good =>
        refine ⟨?_,by simp⟩
        rintro r w' ⟨⟩
        exact ⟨answered_datagram came rfl own.symm,told faultless asked⟩
      | overrun bad =>
        refine ⟨by simp,?_⟩
        rintro stop w' ⟨⟩
        exact .overrun (.refl w) came rfl
      | exited same exited => exact (calm'.exits exited).elim
  | exited took exited => exact (calm.exits exited).elim

theorem session_answers (client_addr : Addr) (max_num_of_resends : Int) (calm : Calm file_name w) :
    (∀ how w', recieving_data_mode client_addr file_name max_num_of_resends w = .ok how w' →
      Answered w w' ∧ w'.oracle.faults = []) ∧
    ∀ stop w', recieving_data_mode client_addr file_name max_num_of_resends w = .error stop w' → Halted w stop w' := by
  obtain ⟨⟨s,v⟩,leads,left⟩ := run_leads (session_loop client_addr file_name max_num_of_resends) (Session.start,w)
  obtain ⟨calm',answered⟩ : Calm file_name v ∧ Answered w v := by
    refine leads.invariant (I := fun at_ => Calm file_name at_.2 ∧ Answered w at_.2) ⟨calm,.refl w⟩ ?_
    rintro ⟨s₁,w₁⟩ ⟨s₂,w₂⟩ ⟨calm₁,answered₁⟩ next
    have next := passBody_inl next
    exact ⟨calm_pass calm₁ next,answered₁.trans ((pass_answers client_addr max_num_of_resends s₁ calm₁).1 _ _ next).1⟩
  obtain ⟨ends,stops⟩ := pass_answers client_addr max_num_of_resends s calm'
  simp only [recieving_data_mode]
  rcases passBody_inr left with ⟨how,w',last,out⟩ | ⟨stop,w',last,out⟩
  · rw [out]
    refine ⟨?_,by simp⟩
    rintro how' w'' ⟨⟩
    obtain ⟨more,faultless⟩ := ends _ _ last
    exact ⟨answered.trans more,faultless⟩
  · rw [out]
    refine ⟨by simp,?_⟩
    rintro stop' w'' ⟨⟩
    exact (stops _ _ last).after answered

/-! ### The rounds of main -/

/-- While no call fails, a program answers what it takes, one packet each. -/
structure Replies {α : Type} (w : World) (r : EStateM.Result Stop World α) : Prop where
  ok : ∀ {value w'}, r = .ok value w' → Answered w w' ∧ w'.oracle.faults = []
  error : ∀ {stop w'}, r = .error stop w' → Halted w stop w'

variable {α : Type} {r : EStateM.Result Stop World α}

theorem replies_ok {value : α} (answered : Answered w w') (faultless : w'.oracle.faults = []) :
    Replies w (.ok value w' : EStateM.Result Stop World α) := by
  constructor
  · rintro value' w'' ⟨⟩
    exact ⟨answered,faultless⟩
  · rintro stop w'' ⟨⟩
theorem replies_error (halted : Halted w stop w') : Replies w (.error stop w' : EStateM.Result Stop World α) := by
  constructor
  · rintro value w'' ⟨⟩
  · rintro stop' w'' ⟨⟩
    exact halted

/-- A call that does not fail leaves the oracle as it was. -/
theorem told_error (faultless : w.oracle.faults = []) (code : UInt16) (text : String) (addr : Addr) :
    send_error code text addr w = .ok () (w.said addr (.ERROR code text)) := by
  obtain ⟨o,⟨asked,ran⟩ | ⟨_,faulty,_⟩⟩ := send_error_cases code text addr w
  · rw [ran,asked.calm faultless]; rfl
  · exact absurd faultless faulty
theorem told_ack (faultless : w.oracle.faults = []) (number : UInt16) (addr : Addr) :
    send_ack number addr w = .ok () (w.said addr (.ACK number)) := by
  obtain ⟨o,⟨asked,ran⟩ | ⟨_,faulty,_⟩⟩ := send_ack_cases number addr w
  · rw [ran,asked.calm faultless]; rfl
  · exact absurd faultless faulty

/-- Another call that does not fail. -/
theorem granted (faultless : w.oracle.faults = []) (call : SysCall) : attempt call w = .ok true w := by
  obtain ⟨o,_,calm,⟨ran,_⟩ | ⟨_,_,answered⟩⟩ := attempt_cases call w
  · rw [ran,calm faultless]; rfl
  · simp [faultless] at answered

theorem fclose_calm (faultless : w.oracle.faults = []) (file_name : Name) : fclose file_name w = .ok true (w.closed file_name) := by
  rw [fclose,bind_ok (granted faultless .fclose)]
  rfl
/-- An upload in which no call fails comes to its session. -/
theorem upload_calm (max_num_of_resends : UInt16) (file_name : Name) (client_addr : Addr) (faultless : w.oracle.faults = []) :
    upload max_num_of_resends file_name client_addr w =
      (do let how ← recieving_data_mode client_addr file_name (short_int max_num_of_resends)
          if ← fclose file_name then return how else delete_file file_name; sys_call_error : Process End)
        ((opened w file_name).said client_addr (.ACK 0)) := by
  have opens : fopen file_name w = .ok true (opened w file_name) := by
    rw [fopen,bind_ok (granted faultless .fopen)]
    rfl
  have acked : send_ack 0 client_addr (opened w file_name) = .ok () ((opened w file_name).said client_addr (.ACK 0)) :=
    told_ack (show (opened w file_name).oracle.faults = [] from faultless) 0 client_addr
  rw [upload,bind_ok opens]
  simp only [↓reduceIte]
  rw [bind_ok acked]
theorem calm_started (faultless : w.oracle.faults = []) (file_name : Name) (client_addr : Addr) :
    Calm file_name ((opened w file_name).said client_addr (.ACK 0)) :=
  ⟨faultless,by simp [World.said,opened]⟩

/-- An upload begins with the answer to its request. -/
theorem upload_replies (max_num_of_resends : UInt16) (file_name : Name) (faultless : w.oracle.faults = [])
    (came : datagrams v.events = d :: datagrams w.events) (silent : w.sent = v.sent) :
    Replies v (upload max_num_of_resends file_name d.sender w) := by
  let started := (opened w file_name).said d.sender (.ACK 0)
  have answered : Answered v started :=
    answered_datagram (x := (d.sender,.ACK 0)) came (by simp [started,World.said,opened,silent]) rfl
  have calm : Calm file_name started := calm_started faultless file_name d.sender
  obtain ⟨ends,stops⟩ := session_answers d.sender (short_int max_num_of_resends) calm
  rw [upload_calm max_num_of_resends file_name d.sender faultless]
  cases session : recieving_data_mode d.sender file_name (short_int max_num_of_resends) started with
  | error stop w' =>
    rw [bind_error session]
    exact replies_error ((stops _ _ session).after answered)
  | ok how w' =>
    obtain ⟨more,faultless'⟩ := ends _ _ session
    rw [bind_ok session,bind_ok (fclose_calm faultless' file_name)]
    exact replies_ok (answered.trans more) faultless'

/-- What `main` makes of a request is one packet to its sender, and then the conversation of the session. -/
theorem serve_replies (max_num_of_resends : UInt16) (memory : Memory) (wrq : WRQ) (faultless : w.oracle.faults = [])
    (came : datagrams v.events = d :: datagrams w.events) (silent : w.sent = v.sent) :
    Replies v (serve max_num_of_resends memory wrq (overlay d cleared) d.sender w) := by
  have refused : ∀ {w₁ : World} (code : UInt16) (text : String) (wrq' : WRQ) (answer : Answer), w₁.oracle.faults = [] →
      w₁.events = w.events → w₁.sent = w.sent →
      Replies v ((do send_error code text d.sender; return (wrq',answer) : Process (WRQ × Answer)) w₁) := by
    intro w₁ code text wrq' answer faultless₁ events sent
    rw [bind_ok (told_error faultless₁ code text d.sender)]
    refine replies_ok (answered_datagram (x := (d.sender,.ERROR code text)) ?_ ?_ rfl) faultless₁
    · show datagrams v.events = d :: datagrams w₁.events
      rw [events]
      exact came
    · show w₁.sent ++ _ = _
      rw [sent,silent]
  have halted : Halted v .overrun w := .overrun (.refl v) came silent
  cases parsed : wrq_parse wrq (overlay d cleared) memory.behind_buff with
  | none =>
    simp only [serve,parsed]
    exact replies_error halted
  | some wrq' =>
    simp only [serve,parsed]
    split
    · exact refused _ _ wrq' _ faultless rfl rfl
    · cases named : c_string (wrq'.file_name ++ memory.behind_struct) with
      | none =>
        simp only
        exact replies_error halted
      | some file_name =>
        have checked : file_is_exist file_name w = .ok (w.files file_name).isSome { w with disk := w.disk ++ [.exists_ file_name] } := by
          simp [file_is_exist]
        simp only
        rw [bind_ok checked]
        split
        · exact refused _ _ wrq' _ faultless rfl rfl
        · have replies : Replies v (upload max_num_of_resends file_name d.sender { w with disk := w.disk ++ [.exists_ file_name] }) :=
            upload_replies max_num_of_resends file_name faultless came silent
          cases ran : upload max_num_of_resends file_name d.sender { w with disk := w.disk ++ [.exists_ file_name] } with
          | ok how w' =>
            rw [bind_ok ran]
            obtain ⟨answered,faultless'⟩ := replies.ok ran
            exact replies_ok answered faultless'
          | error stop w' =>
            rw [bind_error ran]
            exact replies_error (replies.error ran)

theorem main_pass_replies (max_num_of_resends : UInt16) (memory : Nat → Memory) (m : Main) (faultless : w.oracle.faults = []) :
    Replies w (main_pass max_num_of_resends memory m w) := by
  rcases main_pass_cases max_num_of_resends memory m w with
    ⟨d,events,o,first,asked,_,ran⟩ | ⟨o,_,faulty,_⟩ | ⟨o,asked,silent,ran⟩
  · have told : o.faults = [] := by rw [asked.calm faultless]; exact faultless
    have came : datagrams w.events = d :: datagrams events := (next_datagram_spec first).1
    have replies : Replies w (serve max_num_of_resends (memory m.rounds) m.wrq_strcut (overlay d cleared) d.sender
        { w with events := events, oracle := o }) := serve_replies _ _ _ told came rfl
    rw [ran]
    cases served : serve max_num_of_resends (memory m.rounds) m.wrq_strcut (overlay d cleared) d.sender
        { w with events := events, oracle := o } with
    | ok out w' =>
      rw [bind_ok served]
      obtain ⟨answered,faultless'⟩ := replies.ok served
      exact replies_ok answered faultless'
    | error stop w' =>
      rw [bind_error served]
      exact replies_error (replies.error served)
  · exact absurd faultless faulty
  · rw [ran]
    refine replies_error (.waiting ⟨[],[],by simp [World.asked],by simp [World.asked],.nil⟩ ?_)
    exact no_datagram silent

/-! ### Datagrams that keep the server within its objects -/

/-- The datagram has a header, and after its opcode a NUL, or an end, before the buffer is full. -/
def Tame (d : Datagram) : Prop := PACKET_SIZE - DATA_SIZE ≤ (message d).length ∧ (own_name d).length < FILE_NAME_SIZE
/-- The name in the struct ends within its field. -/
def Terminated (wrq : WRQ) : Prop := wrq.file_name.length = FILE_NAME_SIZE + 1 ∧ wrq.file_name.getLast? = some 0

variable {wrq wrq' : WRQ}

theorem terminated_zero : Terminated WRQ.zero := ⟨by simp [WRQ.zero],by simp [WRQ.zero,List.getLast?_replicate]⟩
theorem terminated_name (ends : Terminated wrq) (behind : Bytes) : ∃ name, c_string (wrq.file_name ++ behind) = some name := by
  have nul : (0 : UInt8) ∈ wrq.file_name ++ behind := List.mem_append_left _ (List.mem_of_getLast? ends.2)
  exact ⟨_,by rw [c_string,if_pos nul]⟩
/-- A name that ends in the buffer leaves the last byte of the struct's name as it was. -/
theorem parse_tame (tame : Tame d) (ends : Terminated wrq) (behind : Bytes) :
    ∃ wrq', wrq_parse wrq (overlay d cleared) behind = some wrq' ∧ Terminated wrq' := by
  obtain ⟨rest,nul⟩ := buff_short tame.2 behind
  have short : (own_name d).length < wrq.file_name.length := by rw [ends.1]; exact Nat.lt_succ_of_lt tame.2
  refine ⟨_,parse_own nul wrq,?_,?_⟩
  · rw [List.length_append,List.length_drop,ends.1]
    have := tame.2
    omega
  · rw [List.getLast?_append,List.getLast?_drop,if_neg (Nat.not_le.mpr short),ends.2]
    rfl

/-- With a message that has a header a pass stays within the buffer. -/
theorem pass_stays {stop : Stop} (calm : Calm file_name w) (tame : ∀ d ∈ datagrams w.events, Tame d)
    (stops : pass client_addr file_name max_num_of_resends s w = .error stop w') : stop ≠ .overrun := by
  have spec := pass_spec client_addr file_name max_num_of_resends s w
  rw [stops] at spec
  cases spec with
  | starved => simp
  | exited => simp
  | taken received_ own taken =>
    cases taken with
    | exited => simp
    | overrun bad =>
      cases received_ with
      | failure watches asked answered => exact absurd calm.faultless (faulty_of_answered answered)
      | @datagram o d events watches first asked =>
        have header := (tame d (by rw [first]; exact List.mem_cons_self)).1
        have cut := message_length d
        have fits : ¬ ((message d).length < PACKET_SIZE - DATA_SIZE ∨ PACKET_SIZE < (message d).length) := by omega
        unfold verdict at bad
        split_ifs at bad with _ _ outside
        exact absurd outside fits
theorem session_stays {stop : Stop} (calm : Calm file_name w) (tame : ∀ d ∈ datagrams w.events, Tame d)
    (stops : recieving_data_mode client_addr file_name max_num_of_resends w = .error stop w') : stop ≠ .overrun := by
  obtain ⟨⟨s,v⟩,leads,left⟩ := run_leads (session_loop client_addr file_name max_num_of_resends) (Session.start,w)
  obtain ⟨calm',tame'⟩ : Calm file_name v ∧ ∀ d ∈ datagrams v.events, Tame d := by
    refine leads.invariant (I := fun at_ => Calm file_name at_.2 ∧ ∀ d ∈ datagrams at_.2.events, Tame d) ⟨calm,tame⟩ ?_
    rintro ⟨s₁,w₁⟩ ⟨s₂,w₂⟩ ⟨calm₁,tame₁⟩ next
    have next := passBody_inl next
    have came := ((moves_pass kept_onward s₁).ok next).came
    exact ⟨calm_pass calm₁ next,fun d among => tame₁ d (came.mem among)⟩
  rw [recieving_data_mode] at stops
  rw [stops] at left
  rcases passBody_inr left with ⟨how,v',_,out⟩ | ⟨stop',v',last,out⟩
  · cases out
  · cases out
    exact pass_stays calm' tame' last

theorem upload_stays {max_num_of_resends : UInt16} {stop : Stop} (faultless : w.oracle.faults = [])
    (tame : ∀ d ∈ datagrams w.events, Tame d) (stops : upload max_num_of_resends file_name client_addr w = .error stop w') :
    stop ≠ .overrun := by
  have calm := calm_started faultless file_name client_addr
  rw [upload_calm max_num_of_resends file_name client_addr faultless] at stops
  cases session : recieving_data_mode client_addr file_name (short_int max_num_of_resends)
      ((opened w file_name).said client_addr (.ACK 0)) with
  | error stop' v =>
    rw [bind_error session] at stops
    cases stops
    exact session_stays calm tame session
  | ok how v =>
    have faultless' := ((session_answers client_addr (short_int max_num_of_resends) calm).1 _ _ session).2
    rw [bind_ok session,bind_ok (fclose_calm faultless' file_name)] at stops
    cases stops
theorem serve_stays {max_num_of_resends : UInt16} {memory : Memory} {stop : Stop} (faultless : w.oracle.faults = [])
    (own : Tame d) (tame : ∀ d ∈ datagrams w.events, Tame d) (ends : Terminated wrq)
    (stops : serve max_num_of_resends memory wrq (overlay d cleared) d.sender w = .error stop w') : stop ≠ .overrun := by
  obtain ⟨wrq',parsed,ends'⟩ := parse_tame own ends memory.behind_buff
  obtain ⟨file_name,named⟩ := terminated_name ends' memory.behind_struct
  have told : ∀ {w₁ : World} (code : UInt16) (text : String) (answer : Answer), w₁.oracle.faults = [] →
      (do send_error code text d.sender; return (wrq',answer) : Process (WRQ × Answer)) w₁ ≠ .error stop w' := by
    intro w₁ code text answer faultless₁
    rw [bind_ok (told_error faultless₁ code text d.sender)]
    rintro ⟨⟩
  simp only [serve,parsed,named] at stops
  split at stops
  · exact absurd stops (told DATA_BEFORE_WRQ "Unknown user" .unknown_user faultless)
  · have checked : file_is_exist file_name w = .ok (w.files file_name).isSome { w with disk := w.disk ++ [.exists_ file_name] } := by
      simp [file_is_exist]
    rw [bind_ok checked] at stops
    split at stops
    · exact absurd stops (told FILE_ALREADAY_EXSITS "File already exists" .already_exists faultless)
    · cases uploaded : upload max_num_of_resends file_name d.sender { w with disk := w.disk ++ [.exists_ file_name] } with
      | ok how v => rw [bind_ok uploaded] at stops; cases stops
      | error stop' v =>
        rw [bind_error uploaded] at stops
        cases stops
        exact upload_stays (w := { w with disk := w.disk ++ [.exists_ file_name] }) faultless tame uploaded

/-- Nothing fails, only tame datagrams come, and the last byte of the struct's name is a NUL. -/
structure Within (m : Main) (w : World) : Prop where
  faultless : w.oracle.faults = []
  tame : ∀ d ∈ datagrams w.events, Tame d
  ends : Terminated m.wrq_strcut

theorem main_pass_within {max_num_of_resends : UInt16} {memory : Nat → Memory} {m : Main} (within : Within m w) :
    (∀ m' w', main_pass max_num_of_resends memory m w = .ok (.inl m') w' → Within m' w') ∧
    ∀ stop w', main_pass max_num_of_resends memory m w = .error stop w' → stop ≠ .overrun := by
  have replies := main_pass_replies max_num_of_resends memory m within.faultless
  constructor
  · intro m' w' next
    have came := ((moves_main_pass kept_onward m).ok next).came
    obtain ⟨d,events,o,answer,first,_,_,_,served⟩ := main_pass_next next
    have own : Tame d := within.tame d (by rw [(next_datagram_spec first).1]; exact List.mem_cons_self)
    obtain ⟨wrq',parsed,ends⟩ := parse_tame own within.ends (memory m.rounds).behind_buff
    cases parsed.symm.trans (serve_parsed served)
    exact ⟨(replies.ok next).2,fun e among => within.tame e (came.mem among),ends⟩
  · intro stop w' stops
    rcases main_pass_cases max_num_of_resends memory m w with
      ⟨d,events,o,first,asked,_,ran⟩ | ⟨o,_,faulty,_⟩ | ⟨o,_,_,ran⟩
    · have faultless : o.faults = [] := by rw [asked.calm within.faultless]; exact within.faultless
      have came : datagrams w.events = d :: datagrams events := (next_datagram_spec first).1
      have own : Tame d := within.tame d (by rw [came]; exact List.mem_cons_self)
      have rest : ∀ e ∈ datagrams events, Tame e := fun e among => within.tame e (by rw [came]; exact List.mem_cons_of_mem d among)
      rw [ran] at stops
      cases served : serve max_num_of_resends (memory m.rounds) m.wrq_strcut (overlay d cleared) d.sender
          { w with events := events, oracle := o } with
      | ok out v => rw [bind_ok served] at stops; cases stops
      | error stop' v =>
        rw [bind_error served] at stops
        cases stops
        exact serve_stays faultless own rest within.ends served
    · exact absurd within.faultless faulty
    · rw [ran] at stops
      cases stops
      simp

/-- A server whose calls do not fail never exits. It has answered every datagram with one packet to its
    sender, in their order, when it waits for one that does not come; or it has left an object with
    the last one that it has taken. That does not happen where all datagrams are tame. -/
theorem answers_each_once (argv : List Streams.Text) (settings_ : Settings) (memory : Nat → Memory) (w : World)
    (accepted : settings argv = some settings_) (faultless : w.oracle.faults = []) :
    ∃ stop w', main argv true true memory w = .error stop w' ∧ Halted w stop w' ∧
      ((∀ d ∈ datagrams w.events, Tame d) → stop = .waiting) := by
  have serves : main argv true true memory w = serve_requests settings_.max_num_of_resends memory w := by
    simp only [main,accepted,Bool.and_self,↓reduceIte]
  obtain ⟨⟨m,v⟩,leads,left⟩ := run_leads (request_loop settings_.max_num_of_resends memory) (Main.start,w)
  obtain ⟨answered,faultless'⟩ : Answered w v ∧ v.oracle.faults = [] := by
    refine leads.invariant (I := fun at_ => Answered w at_.2 ∧ at_.2.oracle.faults = []) ⟨.refl w,faultless⟩ ?_
    rintro ⟨m₁,w₁⟩ ⟨m₂,w₂⟩ ⟨answered₁,faultless₁⟩ next
    obtain ⟨more,faultless₂⟩ := (main_pass_replies _ memory m₁ faultless₁).ok (passBody_inl next)
    exact ⟨answered₁.trans more,faultless₂⟩
  rw [serves]
  rcases passBody_inr left with ⟨none,_,_,_⟩ | ⟨stop,w',last,out⟩
  · exact none.elim
  · have halted : Halted w stop w' := ((main_pass_replies _ memory m faultless').error last).after answered
    refine ⟨stop,w',out,halted,fun tame => ?_⟩
    have within : Within m v :=
      leads.invariant (I := fun at_ => Within at_.1 at_.2) ⟨faultless,tame,terminated_zero⟩
        fun _ _ within next => (main_pass_within within).1 _ _ (passBody_inl next)
    cases halted with
    | waiting => rfl
    | overrun => exact absurd rfl ((main_pass_within within).2 _ _ last)

/-- One request, and nothing more. -/
theorem answers_each_once_request : ∃ stop w', main usual true true (fun _ => FailedUploads.zeros) (FailedUploads.requesting []) =
    .error stop w' ∧ Halted (FailedUploads.requesting []) stop w' ∧
      ((∀ d ∈ datagrams (FailedUploads.requesting []).events, Tame d) → stop = .waiting) :=
  answers_each_once usual ⟨69,1,3⟩ (fun _ => FailedUploads.zeros) (FailedUploads.requesting []) (by decide) rfl

end StructureOfOs.Conversations
