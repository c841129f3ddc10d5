import StructureOfOs.Frames
import StructureOfOs.ServerArguments
import StructureOfOs.UploadIntegrity

/-!
ttftps.cpp as a whole: `main` checks its arguments, binds its socket and then handles one
request after the other for ever, with one struct and one address. The loop is total: a
round that ends normally has taken a datagram. Whatever the server does, its file calls
account for what has become of the files (`Onward`).
-/
namespace StructureOfOs.RequestLoop
open StructureOfOs.Streams (Text)
open StructureOfOs.Loops StructureOfOs.Frames
open StructureOfOs.Server StructureOfOs.ServerPasses StructureOfOs.Blocks StructureOfOs.Ttftps StructureOfOs.ServerArguments

/-- What a call does to the files. -/
def applied (files : Name → Option Bytes) : FileCall → Name → Option Bytes
  | .exists_ _ => files
  | .fopen name => Function.update files name (some [])
  | .fwrite name bytes => Function.update files name ((files name).map (· ++ bytes))
  | .fwrite_failed _ _ => files
  | .fclose _ => files
  | .remove name => Function.update files name none
def replay (files : Name → Option Bytes) (calls : List FileCall) : Name → Option Bytes := calls.foldl applied files

/-- The file calls account for the files, no event or fault comes back, and datagrams are
    taken in their order. -/
structure Onward (w w' : World) : Prop where
  disk : ∃ calls, w'.disk = w.disk ++ calls ∧ w'.files = replay w.files calls
  came : datagrams w'.events <:+ datagrams w.events
  fewer : w'.events.length + w'.oracle.faults.length ≤ w.events.length + w.oracle.faults.length

theorem Onward.refl (w : World) : Onward w w := ⟨⟨[],by simp,rfl⟩,List.suffix_refl _,Nat.le_refl _⟩
theorem Onward.trans {w w' w'' : World} (first : Onward w w') (second : Onward w' w'') : Onward w w'' where
  disk := by
    obtain ⟨calls,disk,files⟩ := first.disk
    obtain ⟨calls',disk',files'⟩ := second.disk
    exact ⟨calls ++ calls',by rw [disk',disk,List.append_assoc],by rw [files',files]; simp [replay]⟩
  came := second.came.trans first.came
  fewer := Nat.le_trans second.fewer first.fewer
instance : IsPreorder World Onward where
  refl := Onward.refl
  trans _ _ _ := Onward.trans

/-- The packet is one that its struct has room for: the text and its NUL fit into the field. -/
def Fits : Packet → Prop
  | .ACK _ => True
  | .ERROR _ error_message => 0 ∉ error_message.toUTF8.toList ∧ error_message.toUTF8.toList.length < DATA_SIZE
instance (packet : Packet) : Decidable (Fits packet) := by
  cases packet <;> unfold Fits <;> infer_instance

/-- A relation that holds across every single step of the server. -/
structure Kept (R : World → World → Prop) : Prop where
  asked : ∀ w o, o.faults.length ≤ w.oracle.faults.length → R w (w.asked o)
  came : ∀ w events, datagrams events <:+ datagrams w.events → events.length ≤ w.events.length → R w { w with events := events }
  said : ∀ w addr packet, Fits packet → R w (w.said addr packet)
  wrote : ∀ w name bytes, R w (w.wrote name bytes)
  unwritten : ∀ w name bytes, R w (w.unwritten name bytes)
  closed : ∀ w name, R w (w.closed name)
  removed : ∀ w name, R w (w.removed name)
  opened : ∀ w name, R w (opened w name)
  checked : ∀ w name, R w { w with disk := w.disk ++ [.exists_ name] }

theorem kept_onward : Kept Onward where
  asked _ _ fewer := ⟨⟨[],by simp [World.asked],rfl⟩,List.suffix_refl _,Nat.add_le_add_left fewer _⟩
  came _ _ came shorter := ⟨⟨[],by simp,rfl⟩,came,Nat.add_le_add_right shorter _⟩
  said _ _ _ _ := ⟨⟨[],by simp [World.said],rfl⟩,List.suffix_refl _,Nat.le_refl _⟩
  wrote _ name bytes := ⟨⟨[.fwrite name bytes],rfl,rfl⟩,List.suffix_refl _,Nat.le_refl _⟩
  unwritten _ name bytes := ⟨⟨[.fwrite_failed name bytes],rfl,rfl⟩,List.suffix_refl _,Nat.le_refl _⟩
  closed _ name := ⟨⟨[.fclose name],rfl,rfl⟩,List.suffix_refl _,Nat.le_refl _⟩
  removed _ name := ⟨⟨[.remove name],rfl,rfl⟩,List.suffix_refl _,Nat.le_refl _⟩
  opened _ name := ⟨⟨[.fopen name],rfl,rfl⟩,List.suffix_refl _,Nat.le_refl _⟩
  checked _ name := ⟨⟨[.exists_ name],rfl,rfl⟩,List.suffix_refl _,Nat.le_refl _⟩

variable {w w' : World}

theorem next_datagram_spec {events later : List Event} {d : Datagram} (next : next_datagram events = some (d,later)) :
    datagrams events = d :: datagrams later ∧ later.length < events.length := by
  induction events with
  | nil => cases next
  | cons event events ih =>
    cases event with
    | timeout =>
      obtain ⟨same,shorter⟩ := ih next
      exact ⟨same,Nat.lt_succ_of_lt shorter⟩
    | datagram d' => cases next; exact ⟨rfl,Nat.lt_succ_self _⟩

theorem no_datagram {events : List Event} (none_left : next_datagram events = none) : datagrams events = [] := by
  induction events with
  | nil => rfl
  | cons event events ih =>
    cases event with
    | timeout => exact ih none_left
    | datagram d => cases none_left

/-! ### What every function keeps -/

section
variable {R : World → World → Prop}

theorem moves_exit {α : Type} [IsPreorder World R] : Moves R (sys_call_error : Process α) := moves_throw Stop.exit

variable (kept : Kept R)
include kept

theorem moves_attempt (call : SysCall) : Moves R (attempt call) := by
  constructor
  · intro w r w' ran
    obtain ⟨o,fewer,_,⟨is,_⟩ | ⟨is,_⟩⟩ := attempt_cases call w
    · cases is.symm.trans ran; exact kept.asked w _ fewer
    · cases is.symm.trans ran; exact kept.asked w _ fewer
  · intro w e w' fails
    obtain ⟨o,_,_,⟨is,_⟩ | ⟨is,_⟩⟩ := attempt_cases call w
    · cases is.symm.trans fails
    · cases is.symm.trans fails
theorem moves_file_is_exist (file_name : Name) : Moves R (file_is_exist file_name) := by
  constructor
  · rintro w r w' ⟨⟩
    exact kept.checked w file_name
  · rintro w e w' ⟨⟩

variable [IsPreorder World R]

theorem moves_select (readfds : Bool) : Moves R (select readfds) := by
  refine moves_bind (moves_attempt kept .select) fun granted => ?_
  constructor
  · intro w r w' ran
    cases granted with
    | false => cases ran; exact refl w
    | true =>
      cases readfds with
      | false =>
        cases ran
        exact kept.came w _ ⟨[],datagrams_erase w.events⟩ List.length_erase_le
      | true =>
        cases events : w.events with
        | nil => simp [events] at ran
        | cons event later =>
          cases event with
          | timeout =>
            simp only [↓reduceIte,get_bind,events] at ran
            cases ran
            exact kept.came w _ ⟨[],by simp [events,datagrams]⟩ (by simp [events])
          | datagram d =>
            simp only [↓reduceIte,get_bind,events] at ran
            cases ran
            exact refl w
  · intro w e w' fails
    cases granted with
    | false => cases fails
    | true =>
      cases readfds with
      | false => cases fails
      | true =>
        cases events : w.events with
        | nil =>
          simp only [↓reduceIte,get_bind,events] at fails
          cases fails
          exact refl w
        | cons event later => cases event <;> simp only [↓reduceIte,get_bind,events] at fails <;> cases fails
theorem moves_recvfrom (buff : Bytes) (addr : Addr) : Moves R (recvfrom buff addr) := by
  refine moves_bind (moves_attempt kept .recvfrom) fun granted => ?_
  constructor
  · intro w r w' ran
    cases granted with
    | false => cases ran; exact refl w
    | true =>
      cases next : next_datagram w.events with
      | none => simp [next] at ran
      | some came =>
        obtain ⟨same,shorter⟩ := next_datagram_spec next
        simp only [↓reduceIte,get_bind,next] at ran
        cases ran
        exact kept.came w _ (by rw [same]; exact List.suffix_cons _ _) (Nat.le_of_lt shorter)
  · intro w e w' fails
    cases granted with
    | false => cases fails
    | true =>
      cases next : next_datagram w.events with
      | none =>
        simp only [↓reduceIte,get_bind,next] at fails
        cases fails
        exact refl w
      | some came => simp only [↓reduceIte,get_bind,next] at fails; cases fails
theorem moves_sendto (addr : Addr) {packet : Packet} (fits : Fits packet) : Moves R (sendto addr packet) := by
  refine moves_bind (moves_attempt kept .sendto) fun granted => ?_
  cases granted with
  | false => exact moves_pure false
  | true => exact moves_bind (moves_modify fun w => kept.said w addr packet fits) fun _ => moves_pure true
theorem moves_fwrite (buff : Bytes) (size : Nat) (file_name : Name) : Moves R (fwrite buff size file_name) := by
  have writes : ∀ granted : Bool, Moves R
      (if granted = true then do modify (·.wrote file_name ((data buff).take size)); pure size
       else do modify (·.unwritten file_name ((data buff).take size)); pure 0 : Process Nat) := by
    intro granted
    refine moves_ite ?_ ?_
    · exact moves_bind (moves_modify fun w => kept.wrote w file_name _) fun _ => moves_pure size
    · exact moves_bind (moves_modify fun w => kept.unwritten w file_name _) fun _ => moves_pure 0
  refine moves_ite (moves_throw Stop.overrun) (moves_ite ?_ ?_)
  · exact moves_bind (moves_pure true) writes
  · exact moves_bind (moves_attempt kept .fwrite) writes
theorem moves_delete_file (file_name : Name) : Moves R (delete_file file_name) := by
  constructor
  · intro w r w' ran
    cases there : w.files file_name with
    | none => simp [delete_file,there,sys_call_error] at ran
    | some content =>
      rw [delete_there (by simp [there])] at ran
      cases ran
      exact kept.removed w file_name
  · intro w e w' fails
    cases there : w.files file_name with
    | none =>
      simp only [delete_file,get_bind,there] at fails
      cases fails
      exact refl w
    | some content => rw [delete_there (by simp [there])] at fails; cases fails
theorem moves_fopen (file_name : Name) : Moves R (fopen file_name) := by
  refine moves_bind (moves_attempt kept .fopen) fun granted => moves_ite ?_ (moves_pure false)
  exact moves_bind (moves_modify fun w => kept.opened w file_name) fun _ => moves_pure true

theorem moves_fclose (file_name : Name) : Moves R (fclose file_name) := by
  refine moves_bind (moves_attempt kept .fclose) fun granted => moves_ite ?_ (moves_pure false)
  exact moves_bind (moves_modify fun w => kept.closed w file_name) fun _ => moves_pure true

/-! ### server.cpp -/

theorem moves_send_error {code : UInt16} {text : String} (addr : Addr) (fits : Fits (.ERROR code text)) :
    Moves R (send_error code text addr) :=
  moves_bind (moves_sendto kept addr fits) fun _ => moves_ite (moves_pure ()) moves_exit
theorem moves_send_ack (number : UInt16) (addr : Addr) : Moves R (send_ack number addr) :=
  moves_bind (moves_sendto kept addr trivial) fun _ => moves_ite (moves_pure ()) moves_exit
theorem moves_delete_exit {α : Type} (file_name : Name) : Moves R (do delete_file file_name; sys_call_error : Process α) :=
  moves_bind (moves_delete_file kept file_name) fun _ => moves_exit
theorem moves_fail {α : Type} (file_name : Name) {code : UInt16} {text : String} (addr : Addr) (r : α)
    (fits : Fits (.ERROR code text)) :
    Moves R (do send_error code text addr; delete_file file_name; return r : Process α) :=
  moves_bind (moves_send_error kept addr fits) fun _ => moves_bind (moves_delete_file kept file_name) fun _ => moves_pure r

variable {client_addr : Addr} {file_name : Name} {max_num_of_resends : Int}

theorem moves_wait_for_data (s : Session) : Moves R (wait_for_data client_addr file_name max_num_of_resends s) := by
  refine moves_bind (moves_select kept s.readfds) fun selected => ?_
  refine moves_ite (moves_delete_exit kept file_name) (moves_ite ?_ ?_)
  · refine moves_ite (moves_fail kept file_name client_addr _ (by decide +kernel)) ?_
    exact moves_bind (moves_send_ack kept _ client_addr) fun _ => moves_pure _
  · refine moves_bind (moves_recvfrom kept _ _) fun received_ => ?_
    refine moves_ite ?_ (moves_ite (moves_delete_exit kept file_name) (moves_pure _))
    exact moves_bind (moves_send_error kept _ (by decide +kernel)) fun _ => moves_pure _
theorem moves_take_block (s : Session) : Moves R (take_block client_addr file_name s) := by
  refine moves_ite (moves_fail kept file_name client_addr _ (by decide +kernel)) ?_
  refine moves_ite (moves_fail kept file_name client_addr _ (by decide +kernel)) ?_
  refine moves_bind (moves_fwrite kept _ _ file_name) fun wrote => moves_ite (moves_delete_exit kept file_name) ?_
  refine moves_bind (moves_send_ack kept _ client_addr) fun _ => ?_
  exact moves_ite (moves_pure _) (moves_pure _)
theorem moves_pass (s : Session) : Moves R (pass client_addr file_name max_num_of_resends s) := by
  refine moves_bind (moves_wait_for_data kept s) fun waited => ?_
  cases waited with
  | again s => exact moves_pure _
  | break_ s => exact moves_take_block kept s
  | return_ how => exact moves_pure _
theorem moves_session : Moves R (recieving_data_mode client_addr file_name max_num_of_resends) :=
  moves_run (L := session_loop client_addr file_name max_num_of_resends) rfl (moves_pass kept) Session.start

/-! ### main -/

theorem moves_upload (max_num_of_resends : UInt16) (file_name : Name) (client_addr : Addr) :
    Moves R (upload max_num_of_resends file_name client_addr) := by
  refine moves_bind (moves_fopen kept file_name) fun granted => moves_ite ?_ moves_exit
  refine moves_bind (moves_send_ack kept 0 client_addr) fun _ => moves_bind (moves_session kept) fun how => ?_
  refine moves_bind (moves_fclose kept file_name) fun closed => ?_
  exact moves_ite (moves_pure how) (moves_delete_exit kept file_name)
theorem moves_serve (max_num_of_resends : UInt16) (memory : Memory) (wrq : WRQ) (buff : Bytes) (client_addr : Addr) :
    Moves R (serve max_num_of_resends memory wrq buff client_addr) := by
  unfold serve
  split
  · exact moves_throw Stop.overrun
  · refine moves_ite ?_ ?_
    · exact moves_bind (moves_send_error kept _ (by decide +kernel)) fun _ => moves_pure _
    · split
      · exact moves_throw Stop.overrun
      · refine moves_bind (moves_file_is_exist kept _) fun found => moves_ite ?_ ?_
        · exact moves_bind (moves_send_error kept _ (by decide +kernel)) fun _ => moves_pure _
        · exact moves_bind (moves_upload kept _ _ _) fun how => moves_pure _
end

/-- The variables of `main` that outlive a round, and how many rounds there have been. -/
structure Main where
  wrq_strcut : WRQ
  client_addr : Addr
  rounds : Nat
deriving DecidableEq, Repr
def Main.start : Main := ⟨WRQ.zero,⟨0,0⟩,0⟩

section
variable (max_num_of_resends : UInt16) (memory : Nat → Memory)

/-- A round of `while(true)`, which finds its own bytes behind the variables. -/
def main_pass (m : Main) : Process (Main ⊕ Empty) := do
  let (received_msg_size,wrq_buff,client_addr) ← recvfrom cleared m.client_addr
  if received_msg_size < 0 then
    sys_call_error
  else
    let (wrq_strcut,_) ← serve max_num_of_resends (memory m.rounds) m.wrq_strcut wrq_buff client_addr
    return .inl ⟨wrq_strcut,client_addr,m.rounds + 1⟩

/-- A round takes a datagram and serves it, or stops before. -/
theorem main_pass_cases (m : Main) (w : World) :
    (∃ d events o, next_datagram w.events = some (d,events) ∧ Asked w.oracle o ∧
      main_round max_num_of_resends (memory m.rounds) m.wrq_strcut m.client_addr w =
        serve max_num_of_resends (memory m.rounds) m.wrq_strcut (overlay d cleared) d.sender
          { w with events := events, oracle := o } ∧
      main_pass max_num_of_resends memory m w =
        (do let (wrq_strcut,_) ← serve max_num_of_resends (memory m.rounds) m.wrq_strcut (overlay d cleared) d.sender
            return .inl ⟨wrq_strcut,d.sender,m.rounds + 1⟩ : Process (Main ⊕ Empty)) { w with events := events, oracle := o }) ∨
    (∃ o, Asked w.oracle o ∧ w.oracle.faults ≠ [] ∧ main_pass max_num_of_resends memory m w = .error .exit (w.asked o)) ∨
    ∃ o, Asked w.oracle o ∧ next_datagram w.events = none ∧
      main_pass max_num_of_resends memory m w = .error .waiting (w.asked o) := by
  cases first : next_datagram w.events with
  | some came =>
    obtain ⟨d,events⟩ := came
    rcases recvfrom_cases first cleared m.client_addr with ⟨o,asked,ran⟩ | ⟨o,asked,answered,ran⟩
    · have received_ : ¬ ((message d).length : Int) < 0 := by omega
      refine .inl ⟨d,events,o,rfl,asked,?_,?_⟩
      · rw [main_round,bind_ok ran]
        simp only [if_neg received_]
        rfl
      · rw [main_pass,bind_ok ran]
        simp only [if_neg received_]
        rfl
    · refine .inr (.inl ⟨o,asked,faulty_of_answered answered,?_⟩)
      rw [main_pass,bind_ok ran]
      rfl
  | none =>
    obtain ⟨o,asked,ran | ⟨ran,answered⟩⟩ := attempt_other .recvfrom (by simp) w
    · refine .inr (.inr ⟨o,asked,rfl,?_⟩)
      have waits : recvfrom cleared m.client_addr w = .error .waiting (w.asked o) := by
        rw [recvfrom,bind_ok ran]
        simp [World.asked,first]
      rw [main_pass,bind_error waits]
    · refine .inr (.inl ⟨o,asked,faulty_of_answered answered,?_⟩)
      have failed : recvfrom cleared m.client_addr w = .ok (-1,cleared,m.client_addr) (w.asked o) := by
        rw [recvfrom,bind_ok ran]
        simp
      rw [main_pass,bind_ok failed]
      rfl

variable {max_num_of_resends memory} {m m' : Main}

/-- A round that another one follows: the datagram it has taken and how it has answered it. -/
theorem main_pass_next (next : main_pass max_num_of_resends memory m w = .ok (.inl m') w') :
    ∃ d events o answer, next_datagram w.events = some (d,events) ∧ Asked w.oracle o ∧ m'.rounds = m.rounds + 1 ∧
      main_round max_num_of_resends (memory m.rounds) m.wrq_strcut m.client_addr w = .ok (m'.wrq_strcut,answer) w' ∧
      serve max_num_of_resends (memory m.rounds) m.wrq_strcut (overlay d cleared) d.sender
        { w with events := events, oracle := o } = .ok (m'.wrq_strcut,answer) w' := by
  rcases main_pass_cases max_num_of_resends memory m w with
    ⟨d,events,o,first,asked,received_,ran⟩ | ⟨o,asked,_,ran⟩ | ⟨o,asked,_,ran⟩
  · rw [next] at ran
    cases served : serve max_num_of_resends (memory m.rounds) m.wrq_strcut (overlay d cleared) d.sender
        { w with events := events, oracle := o } with
    | ok out v =>
      rw [bind_ok served] at ran
      cases ran
      refine ⟨d,events,o,out.2,first,asked,rfl,?_,served⟩
      rw [received_]
      exact served
    | error stop v => rw [bind_error served] at ran; cases ran
  · rw [next] at ran; cases ran
  · rw [next] at ran; cases ran

theorem moves_main_pass {R : World → World → Prop} [IsPreorder World R] (kept : Kept R) (m : Main) :
    Moves R (main_pass max_num_of_resends memory m) := by
  refine moves_bind (moves_recvfrom kept _ _) fun received_ => moves_ite moves_exit ?_
  exact moves_bind (moves_serve kept _ _ _ _ _) fun served => moves_pure _
theorem main_pass_shrinks (next : main_pass max_num_of_resends memory m w = .ok (.inl m') w') :
    w'.events.length + w'.oracle.faults.length < w.events.length + w.oracle.faults.length := by
  obtain ⟨d,events,o,answer,first,asked,_,_,served⟩ := main_pass_next next
  have shorter := (next_datagram_spec first).2
  have fewer := ((moves_serve kept_onward _ _ _ _ _).ok served).fewer
  have := asked.fewer
  simp only at fewer
  omega

variable (max_num_of_resends memory)

/-- `while(true)` of `main`, which is left only when the process ends or waits for ever. -/
def request_loop : Loop (Main × World) (EStateM.Result Stop World Empty) where
  body := passBody (main_pass max_num_of_resends memory)
  size at_ := at_.2.events.length + at_.2.oracle.faults.length
  shrinks next := main_pass_shrinks (passBody_inl next)
def serve_requests : Process Empty := fun w => (request_loop max_num_of_resends memory).run (Main.start,w)

/-- What a round has done: the datagram it has taken, and its answer. -/
structure Round where
  request : Datagram
  answer : Answer
deriving DecidableEq, Repr
/-- The rounds that lead from one head of the loop to another, in their order. -/
inductive Ran (start : Main × World) : List Round → Main × World → Prop
  | start : Ran start [] start
  | round {rounds : List Round} {m m' : Main} {w w' : World} {d : Datagram} {events : List Event} {answer : Answer}
      (ran : Ran start rounds (m,w)) (first : next_datagram w.events = some (d,events))
      (served : main_round max_num_of_resends (memory m.rounds) m.wrq_strcut m.client_addr w = .ok (m'.wrq_strcut,answer) w')
      (next : main_pass max_num_of_resends memory m w = .ok (.inl m') w') : Ran start (rounds ++ [⟨d,answer⟩]) (m',w')

variable {max_num_of_resends memory} {start at_ : Main × World}

end

def arg_error {α : Type} : Process α := throw .exit
/-- `main`, with whether `socket` and `bind` succeed. -/
def main (argv : List Text) (socket bind : Bool) (memory : Nat → Memory) : Process Empty :=
  match settings argv with
  | none => arg_error
  | some settings_ =>
    if socket && bind then serve_requests settings_.max_num_of_resends memory else sys_call_error

/-- The process ends before its loop, or serves requests. -/
theorem main_cases (argv : List Text) (socket bind : Bool) (memory : Nat → Memory) (w : World) :
    main argv socket bind memory w = .error .exit w ∨
      ∃ settings_, settings argv = some settings_ ∧
        main argv socket bind memory w = serve_requests settings_.max_num_of_resends memory w := by
  cases accepted : settings argv with
  | none => exact .inl (by simp only [main,accepted]; rfl)
  | some settings_ =>
    by_cases bound : (socket && bind) = true
    · exact .inr ⟨settings_,rfl,by simp only [main,accepted,if_pos bound]⟩
    · exact .inl (by simp only [main,accepted,if_neg bound]; rfl)

theorem moves_serve_requests {R : World → World → Prop} [IsPreorder World R] (kept : Kept R) (max_num_of_resends : UInt16)
    (memory : Nat → Memory) : Moves R (serve_requests max_num_of_resends memory) :=
  moves_run (L := request_loop max_num_of_resends memory) rfl (moves_main_pass kept) Main.start

end StructureOfOs.RequestLoop
