import StructureOfOs.Ttftps

/-!
Under which names the server touches files. `Under` says that a program makes file calls
under one name only; it is kept by the ways in which programs are put together, so each
function of the server has one short lemma. An upload touches no other file than its own.
-/
namespace StructureOfOs.FileCalls
open StructureOfOs.Loops StructureOfOs.Server StructureOfOs.ServerPasses StructureOfOs.Ttftps

/-- The name of a file call. -/
def called : FileCall → Name
  | .exists_ name => name
  | .fopen name => name
  | .fwrite name _ => name
  | .fwrite_failed name _ => name
  | .fclose name => name
  | .remove name => name

/-- Between the two worlds files have been touched under this name only. -/
def TouchedUnder (file_name : Name) (w w' : World) : Prop :=
  ∃ calls, w'.disk = w.disk ++ calls ∧ ∀ call ∈ calls, called call = file_name
/-- Every file call of the program is made under this name. -/
def Under {α : Type} (file_name : Name) (program : Process α) : Prop :=
  ∀ w, TouchedUnder file_name w (final (program w))

variable {α β : Type} {file_name : Name} {program : Process α} {w w' w'' : World}

/-! ### How programs are put together -/

theorem touched_nothing (file_name : Name) (same : w'.disk = w.disk) : TouchedUnder file_name w w' :=
  ⟨[],by simp [same],by simp⟩
theorem touched_once {call : FileCall} (same : w'.disk = w.disk ++ [call]) (named : called call = file_name) :
    TouchedUnder file_name w w' :=
  ⟨[call],same,by simp [named]⟩
theorem TouchedUnder.trans (first : TouchedUnder file_name w w') (second : TouchedUnder file_name w' w'') :
    TouchedUnder file_name w w'' := by
  obtain ⟨calls,before,named⟩ := first
  obtain ⟨calls',after,named'⟩ := second
  refine ⟨calls ++ calls',by rw [after,before,List.append_assoc],fun call among => ?_⟩
  exact (List.mem_append.mp among).elim (named call) (named' call)

theorem under_quiet (file_name : Name) (quiet : ∀ w, (final (program w)).disk = w.disk) : Under file_name program :=
  fun w => touched_nothing file_name (quiet w)
theorem under_pure (file_name : Name) (r : α) : Under file_name (pure r : Process α) := under_quiet file_name fun _ => rfl
theorem under_throw (file_name : Name) (stop : Stop) : Under file_name (throw stop : Process α) :=
  under_quiet file_name fun _ => rfl
theorem under_bind {next : α → Process β} (first : Under file_name program) (rest : ∀ r, Under file_name (next r)) :
    Under file_name (program >>= next) := by
  intro w
  have touched := first w
  cases ran : program w with
  | ok r w' =>
    rw [ran] at touched
    rw [bind_ok ran]
    exact touched.trans (rest r w')
  | error stop w' =>
    rw [ran] at touched
    rw [bind_error ran]
    exact touched
theorem under_ite {condition : Prop} [Decidable condition] {program' : Process α} (yes : Under file_name program)
    (no : Under file_name program') : Under file_name (if condition then program else program') := by
  split
  · exact yes
  · exact no

/-! ### The system calls -/

theorem under_attempt (file_name : Name) (call : SysCall) : Under file_name (attempt call) := by
  refine under_quiet file_name fun w => ?_
  obtain ⟨o,_,_,⟨ran,_⟩ | ⟨ran,_⟩⟩ := attempt_cases call w
  · rw [ran]; rfl
  · rw [ran]; rfl
theorem under_select (file_name : Name) (readfds : Bool) : Under file_name (select readfds) := by
  refine under_bind (under_attempt file_name .select) fun granted => under_quiet file_name fun w => ?_
  cases granted with
  | false => rfl
  | true =>
    cases readfds with
    | false => rfl
    | true =>
      cases events : w.events with
      | nil => simp [events,final]
      | cons event events =>
        cases event <;> simp_all [final]
theorem under_recvfrom (file_name : Name) (buff : Bytes) (addr : Addr) : Under file_name (recvfrom buff addr) := by
  refine under_bind (under_attempt file_name .recvfrom) fun granted => under_quiet file_name fun w => ?_
  cases granted with
  | false => rfl
  | true =>
    cases next : next_datagram w.events with
    | none => simp [next,final]
    | some came => simp [next,final]
theorem under_sendto (file_name : Name) (addr : Addr) (packet : Packet) : Under file_name (sendto addr packet) := by
  refine under_bind (under_attempt file_name .sendto) fun granted => under_quiet file_name fun w => ?_
  cases granted <;> rfl
theorem under_fwrite (file_name : Name) (buff : Bytes) (size : Nat) : Under file_name (fwrite buff size file_name) := by
  have writes : ∀ granted : Bool, Under file_name
      (if granted = true then do modify (·.wrote file_name ((data buff).take size)); pure size
       else do modify (·.unwritten file_name ((data buff).take size)); pure 0 : Process Nat) := by
    intro granted
    cases granted with
    | false => exact fun w => touched_once rfl rfl
    | true => exact fun w => touched_once rfl rfl
  refine under_ite (under_throw file_name .overrun) (under_ite ?_ ?_)
  · exact under_bind (under_pure file_name true) writes
  · exact under_bind (under_attempt file_name .fwrite) writes

theorem under_exit (file_name : Name) : Under file_name (sys_call_error : Process α) := under_throw file_name .exit
theorem under_send_error (file_name : Name) (code : UInt16) (text : String) (addr : Addr) :
    Under file_name (send_error code text addr) :=
  under_bind (under_sendto file_name addr _) fun _ => under_ite (under_pure file_name ()) (under_exit file_name)
theorem under_send_ack (file_name : Name) (number : UInt16) (addr : Addr) : Under file_name (send_ack number addr) :=
  under_bind (under_sendto file_name addr _) fun _ => under_ite (under_pure file_name ()) (under_exit file_name)
theorem under_delete_file (file_name : Name) : Under file_name (delete_file file_name) := by
  intro w
  cases there : w.files file_name with
  | none =>
    refine touched_nothing file_name ?_
    simp [delete_file,there,sys_call_error,final]
  | some content =>
    rw [delete_there (by simp [there])]
    exact touched_once rfl rfl
theorem under_fopen (file_name : Name) : Under file_name (fopen file_name) := by
  refine under_bind (under_attempt file_name .fopen) fun granted => ?_
  cases granted with
  | false => exact under_pure file_name false
  | true => exact fun w => touched_once rfl rfl

theorem under_fclose (file_name : Name) : Under file_name (fclose file_name) := by
  refine under_bind (under_attempt file_name .fclose) fun granted => ?_
  cases granted with
  | false => exact under_pure file_name false
  | true => exact fun w => touched_once rfl rfl

/-! ### Sessions and uploads -/

theorem under_delete_exit (file_name : Name) : Under file_name (do delete_file file_name; sys_call_error : Process α) :=
  under_bind (under_delete_file file_name) fun _ => under_exit file_name
theorem under_fail (file_name : Name) (code : UInt16) (text : String) (addr : Addr) (r : α) :
    Under file_name (do send_error code text addr; delete_file file_name; return r : Process α) :=
  under_bind (under_send_error file_name code text addr) fun _ =>
    under_bind (under_delete_file file_name) fun _ => under_pure file_name r

theorem under_wait_for_data (client_addr : Addr) (file_name : Name) (max_num_of_resends : Int) (s : Session) :
    Under file_name (wait_for_data client_addr file_name max_num_of_resends s) := by
  refine under_bind (under_select file_name s.readfds) fun selected => ?_
  refine under_ite (under_delete_exit file_name) (under_ite ?_ ?_)
  · refine under_ite (under_fail file_name _ _ client_addr _) ?_
    exact under_bind (under_send_ack file_name _ client_addr) fun _ => under_pure file_name _
  · refine under_bind (under_recvfrom file_name _ _) fun received_ => ?_
    refine under_ite ?_ (under_ite (under_delete_exit file_name) (under_pure file_name _))
    exact under_bind (under_send_error file_name _ _ _) fun _ => under_pure file_name _
theorem under_take_block (client_addr : Addr) (file_name : Name) (s : Session) :
    Under file_name (take_block client_addr file_name s) := by
  refine under_ite (under_fail file_name _ _ client_addr _) (under_ite (under_fail file_name _ _ client_addr _) ?_)
  refine under_bind (under_fwrite file_name _ _) fun wrote => under_ite (under_delete_exit file_name) ?_
  refine under_bind (under_send_ack file_name _ client_addr) fun _ => ?_
  exact under_ite (under_pure file_name _) (under_pure file_name _)
theorem under_pass (client_addr : Addr) (file_name : Name) (max_num_of_resends : Int) (s : Session) :
    Under file_name (pass client_addr file_name max_num_of_resends s) := by
  refine under_bind (under_wait_for_data client_addr file_name max_num_of_resends s) fun waited => ?_
  cases waited with
  | again s => exact under_pure file_name _
  | break_ s => exact under_take_block client_addr file_name s
  | return_ how => exact under_pure file_name _
theorem under_session (client_addr : Addr) (file_name : Name) (max_num_of_resends : Int) :
    Under file_name (recieving_data_mode client_addr file_name max_num_of_resends) := by
  intro w
  obtain ⟨⟨s,v⟩,leads,left⟩ := run_leads (session_loop client_addr file_name max_num_of_resends) (Session.start,w)
  have so_far : TouchedUnder file_name w v := by
    refine leads.invariant (I := fun at_ => TouchedUnder file_name w at_.2) (touched_nothing file_name rfl)
      fun at_ at' touched next => ?_
    have more := under_pass client_addr file_name max_num_of_resends at_.1 at_.2
    rw [passBody_inl next] at more
    exact touched.trans more
  have last := under_pass client_addr file_name max_num_of_resends s v
  rw [recieving_data_mode]
  rcases passBody_inr left with ⟨how,v',ran,out⟩ | ⟨stop,v',ran,out⟩
  · rw [ran] at last
    rw [out]
    exact so_far.trans last
  · rw [ran] at last
    rw [out]
    exact so_far.trans last
/-- An upload touches its own file only. -/
theorem under_upload (max_num_of_resends : UInt16) (file_name : Name) (client_addr : Addr) :
    Under file_name (upload max_num_of_resends file_name client_addr) := by
  refine under_bind (under_fopen file_name) fun granted => under_ite ?_ (under_exit file_name)
  refine under_bind (under_send_ack file_name 0 client_addr) fun _ => ?_
  refine under_bind (under_session client_addr file_name _) fun how => ?_
  refine under_bind (under_fclose file_name) fun closed => ?_
  exact under_ite (under_pure file_name how) (under_delete_exit file_name)

end StructureOfOs.FileCalls
