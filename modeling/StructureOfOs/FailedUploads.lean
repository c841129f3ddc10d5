import StructureOfOs.Ttftps

/-!
What a failed upload leaves behind. Every exit of a session, and of `main` around it,
removes the file first, but for those through `sendto`: `send_ack` and `send_error` end
the process where they are called. So the file of a failed upload is gone exactly when
no `sendto` has failed.
-/
namespace StructureOfOs.FailedUploads
open StructureOfOs.Loops StructureOfOs.Server StructureOfOs.ServerPasses StructureOfOs.Ttftps

/-- The file is there, and no `sendto` has failed. -/
structure Uploading (file_name : Name) (w : World) : Prop where
  there : (w.files file_name).isSome = true
  sends : SysCall.sendto ∉ w.oracle.failed

/-- Whether the file is there after an upload, as far as it has ended. -/
def Ended (file_name : Name) : EStateM.Result Stop World End → Prop
  | .ok how w => SysCall.sendto ∉ w.oracle.failed ∧ (w.files file_name = none ↔ how ≠ .complete)
  | .error .exit w => w.files file_name = none ↔ SysCall.sendto ∉ w.oracle.failed
  | .error .overrun _ => True
  | .error .waiting _ => True

variable {client_addr : Addr} {file_name : Name} {max_num_of_resends : Int} {s s' : Session} {w w' : World} {o : Oracle}

/-! ### Sessions -/

theorem Uploading.said (uploading : Uploading file_name w) (addr : Addr) (packet : Packet) :
    Uploading file_name (w.said addr packet) :=
  ⟨uploading.there,uploading.sends⟩
theorem Uploading.asked (uploading : Uploading file_name w) (asked : Asked w.oracle o) : Uploading file_name (w.asked o) :=
  ⟨uploading.there,fun among => uploading.sends (asked.sends.mp among)⟩
theorem Uploading.at (uploading : Uploading file_name w) (events : List Event) :
    Uploading file_name { w with events := events } :=
  ⟨uploading.there,uploading.sends⟩
theorem Uploading.wrote (uploading : Uploading file_name w) (bytes : Bytes) : Uploading file_name (w.wrote file_name bytes) :=
  ⟨by simpa [World.wrote] using uploading.there,uploading.sends⟩
theorem uploading_received (uploading : Uploading file_name w) (received_ : Received s w s' w') : Uploading file_name w' := by
  cases received_ with
  | datagram watches first asked => exact (uploading.asked asked).at _
  | failure watches asked answered => exact uploading.asked asked

theorem ended_exit (uploading : Uploading file_name w) (exited : Exited file_name w w') :
    Ended file_name (.error .exit w') := by
  show w'.files file_name = none ↔ SysCall.sendto ∉ w'.oracle.failed
  cases exited with
  | removed faulty gone quiet sends => exact iff_of_true gone (fun among => uploading.sends (sends.mp among))
  | left faulty there quiet unsent =>
    refine iff_of_false (fun gone => ?_) (fun sent => sent unsent)
    rw [gone] at there
    cases there
  | missing absent =>
    have there := uploading.there
    rw [absent] at there
    cases there
theorem ended_removed {how : End} (uploading : Uploading file_name w) (fails : how ≠ .complete) :
    Ended file_name (.ok how (w.removed file_name)) :=
  ⟨uploading.sends,iff_of_true (removed_gone w file_name) fails⟩
theorem ended_complete (uploading : Uploading file_name w) : Ended file_name (.ok .complete w) := by
  refine ⟨uploading.sends,iff_of_false (fun gone => ?_) (fun fails => fails rfl)⟩
  have there := uploading.there
  rw [gone] at there
  cases there

/-- While a session goes on the file is there; where it ends, as `Ended` says. -/
theorem uploading_pass (client_addr : Addr) (max_num_of_resends : Int) (s : Session) (uploading : Uploading file_name w) :
    (∀ s' w', pass client_addr file_name max_num_of_resends s w = .ok (.inl s') w' → Uploading file_name w') ∧
    (∀ how w', pass client_addr file_name max_num_of_resends s w = .ok (.inr how) w' → Ended file_name (.ok how w')) ∧
    ∀ stop w', pass client_addr file_name max_num_of_resends s w = .error stop w' → Ended file_name (.error stop w') := by
  have spec := pass_spec client_addr file_name max_num_of_resends s w
  generalize pass client_addr file_name max_num_of_resends s w = r at spec ⊢
  cases spec with
  | starved => exact ⟨by simp,by simp,by rintro stop w' ⟨⟩; trivial⟩
  | missed waited asked within =>
    refine ⟨?_,by simp,by simp⟩
    rintro s' w' ⟨⟩
    exact ((uploading.asked asked).at _).said client_addr _
  | abandoned waited asked beyond =>
    refine ⟨by simp,?_,by simp⟩
    rintro how w' ⟨⟩
    exact ended_removed (((uploading.asked asked).at _).said client_addr _) (by simp)
  | unknown_user received_ asked foreign =>
    refine ⟨?_,by simp,by simp⟩
    rintro s' w' ⟨⟩
    exact ((uploading_received uploading received_).asked asked).said _ _
  | taken received_ own taken =>
    have uploading' := uploading_received uploading received_
    cases taken with
    | bad_block asked bad =>
      refine ⟨by simp,?_,by simp⟩
      rintro how w' ⟨⟩
      exact ended_removed ((uploading'.asked asked).said client_addr _) (by simp)
    | unexpected asked bad =>
      refine ⟨by simp,?_,by simp⟩
      rintro how w' ⟨⟩
      exact ended_removed ((uploading'.asked asked).said client_addr _) (by simp)
    | overrun => exact ⟨by simp,by simp,by rintro stop w' ⟨⟩; trivial⟩
    | full asked good =>
      refine ⟨?_,by simp,by simp⟩
      rintro s' w' ⟨⟩
      exact ((uploading'.asked asked).wrote _).said client_addr _
    | last asked good =>
      refine ⟨by simp,?_,by simp⟩
      rintro how w' ⟨⟩
      exact ended_complete (((uploading'.asked asked).wrote _).said client_addr _)
    | exited same exited =>
      refine ⟨by simp,by simp,?_⟩
      rintro stop w' ⟨⟩
      exact ended_exit uploading' exited
  | exited took exited =>
    refine ⟨by simp,by simp,?_⟩
    rintro stop w' ⟨⟩
    exact ended_exit uploading exited
theorem session_ended (client_addr : Addr) (max_num_of_resends : Int) (uploading : Uploading file_name w) :
    Ended file_name (recieving_data_mode client_addr file_name max_num_of_resends w) := by
  rw [recieving_data_mode]
  refine Loop.ensures (I := fun at_ => Uploading file_name at_.2) (Q := Ended file_name) uploading ?_ ?_
  · intro at_ at' holds next
    exact (uploading_pass client_addr max_num_of_resends at_.1 holds).1 _ _ (passBody_inl next)
  · intro at_ r holds left
    obtain ⟨_,ends,stops⟩ := uploading_pass client_addr max_num_of_resends at_.1 holds
    rcases passBody_inr left with ⟨how,w',last,out⟩ | ⟨stop,w',fails,out⟩
    · rw [out]
      exact ends how w' last
    · rw [out]
      exact stops stop w' fails

/-! ### The round of main -/

theorem fopen_cases (file_name : Name) (w : World) : ∃ o, Asked w.oracle o ∧
    (fopen file_name w = .ok true (opened (w.asked o) file_name) ∨ fopen file_name w = .ok false (w.asked o)) := by
  obtain ⟨o,asked,ran | ⟨ran,_⟩⟩ := attempt_other .fopen (by simp) w
  · refine ⟨o,asked,.inl ?_⟩
    rw [fopen,bind_ok ran]
    simp
  · refine ⟨o,asked,.inr ?_⟩
    rw [fopen,bind_ok ran]
    simp
theorem fclose_cases (file_name : Name) (w : World) : ∃ o, Asked w.oracle o ∧
    (fclose file_name w = .ok true ((w.asked o).closed file_name) ∨
      fclose file_name w = .ok false (w.asked o) ∧ w.oracle.faults ≠ []) := by
  obtain ⟨o,asked,ran | ⟨ran,answered⟩⟩ := attempt_other .fclose (by simp) w
  · refine ⟨o,asked,.inl ?_⟩
    rw [fclose,bind_ok ran]
    simp
  · refine ⟨o,asked,.inr ⟨?_,faulty_of_answered answered⟩⟩
    rw [fclose,bind_ok ran]
    simp
/-- `fclose` keeps what the session has left, or the file is removed. -/
theorem fclose_ended {how : End} (ended : Ended file_name (.ok how w)) :
    Ended file_name ((do if ← fclose file_name then return how else delete_file file_name; sys_call_error : Process End) w) := by
  obtain ⟨o,asked,closed | ⟨closed,_⟩⟩ := fclose_cases file_name w
  · rw [bind_ok closed]
    exact ⟨fun among => ended.1 (asked.sends.mp among),ended.2⟩
  · rw [bind_ok closed]
    have still : SysCall.sendto ∉ o.failed := fun among => ended.1 (asked.sends.mp among)
    simp only [Bool.false_eq_true,↓reduceIte]
    cases there : w.files file_name with
    | none =>
      have missing : delete_file file_name (w.asked o) = .error .exit (w.asked o) := by
        simp [delete_file,World.asked,there,sys_call_error]
      rw [bind_error missing]
      exact iff_of_true there still
    | some content =>
      have here : ((w.asked o).files file_name).isSome = true := by simp [World.asked,there]
      rw [bind_ok (delete_there here)]
      exact iff_of_true (removed_gone _ file_name) still

theorem upload_ended (max_num_of_resends : UInt16) (client_addr : Addr) (absent : w.files file_name = none)
    (sends : SysCall.sendto ∉ w.oracle.failed) : Ended file_name (upload max_num_of_resends file_name client_addr w) := by
  obtain ⟨o,asked,ran | ran⟩ := fopen_cases file_name w
  · have uploading : Uploading file_name (opened (w.asked o) file_name) :=
      ⟨by simp [opened],fun among => sends (asked.sends.mp among)⟩
    rw [upload,bind_ok ran]
    simp only [↓reduceIte]
    obtain ⟨o',⟨asked',sent⟩ | ⟨unsent,faulty,sent⟩⟩ := send_ack_cases 0 client_addr (opened (w.asked o) file_name)
    · have ended := session_ended client_addr (short_int max_num_of_resends)
        ((uploading.asked asked').said client_addr (.ACK 0))
      rw [bind_ok sent]
      generalize (World.said _ client_addr (.ACK 0)) = v at ended ⊢
      cases session : recieving_data_mode client_addr file_name (short_int max_num_of_resends) v with
      | error stop v' =>
        rw [session] at ended
        rw [bind_error session]
        exact ended
      | ok how v' =>
        rw [session] at ended
        rw [bind_ok session]
        exact fclose_ended ended
    · rw [bind_error sent]
      refine iff_of_false ?_ (fun none_failed => none_failed unsent)
      simp [World.asked,opened]
  · rw [upload,bind_ok ran]
    exact iff_of_true absent (fun among => sends (asked.sends.mp among))

/-- The next datagram is a WRQ, and the struct then holds this name. -/
def Requested (memory : Memory) (wrq : WRQ) (w : World) (file_name : Name) : Prop :=
  ∃ d events wrq', next_datagram w.events = some (d,events) ∧
    wrq_parse wrq (overlay d cleared) memory.behind_buff = some wrq' ∧ wrq'.opcode = WRQ_OPCODE ∧
    c_string (wrq'.file_name ++ memory.behind_struct) = some file_name
/-- A round that has not ended normally, after a request for an upload. -/
def Failed : EStateM.Result Stop World (WRQ × Answer) → Prop
  | .ok (_,.uploaded how) _ => how ≠ .complete
  | .ok (_,_) _ => False
  | .error stop _ => stop = .exit

variable {memory : Memory} {wrq wrq' : WRQ} {d : Datagram} {events : List Event}

theorem round_cases (max_num_of_resends : UInt16) (memory : Memory) (wrq : WRQ) (client_addr : Addr)
    (first : next_datagram w.events = some (d,events)) : ∃ o, Asked w.oracle o ∧
    (main_round max_num_of_resends memory wrq client_addr w =
        serve max_num_of_resends memory wrq (overlay d cleared) d.sender { w with events := events, oracle := o } ∨
      main_round max_num_of_resends memory wrq client_addr w = .error .exit (w.asked o)) := by
  rcases recvfrom_cases first cleared client_addr with ⟨o,asked,ran⟩ | ⟨o,asked,_,ran⟩
  · refine ⟨o,asked,.inl ?_⟩
    rw [main_round,bind_ok ran]
    have received_ : ¬ ((message d).length : Int) < 0 := by omega
    simp only [if_neg received_]
    rfl
  · refine ⟨o,asked,.inr ?_⟩
    rw [main_round,bind_ok ran]
    rfl
/-- The last branch of a round. -/
theorem serve_upload (max_num_of_resends : UInt16) (client_addr : Addr)
    (parsed : wrq_parse wrq (overlay d cleared) memory.behind_buff = some wrq') (code : wrq'.opcode = WRQ_OPCODE)
    (named : c_string (wrq'.file_name ++ memory.behind_struct) = some file_name) (absent : w.files file_name = none) :
    serve max_num_of_resends memory wrq (overlay d cleared) client_addr w =
      (do let how ← upload max_num_of_resends file_name client_addr; return (wrq',.uploaded how) : Process (WRQ × Answer))
        { w with disk := w.disk ++ [.exists_ file_name] } := by
  have checked : file_is_exist file_name w = .ok false { w with disk := w.disk ++ [.exists_ file_name] } := by
    simp [file_is_exist,absent]
  rw [serve]
  simp only [parsed,code,named,ne_eq,not_true_eq_false,↓reduceIte]
  rw [bind_ok checked]
  rfl

/-- The file of an upload that fails is removed unless a `sendto` has failed. -/
theorem failed_upload_removed_iff (max_num_of_resends : UInt16) (memory : Memory) (wrq : WRQ) (client_addr : Addr)
    (file_name : Name) (w : World) (requested : Requested memory wrq w file_name) (absent : w.files file_name = none)
    (sends : SysCall.sendto ∉ w.oracle.failed) (fails : Failed (main_round max_num_of_resends memory wrq client_addr w)) :
    (final (main_round max_num_of_resends memory wrq client_addr w)).files file_name = none ↔
      SysCall.sendto ∉ (final (main_round max_num_of_resends memory wrq client_addr w)).oracle.failed := by
  obtain ⟨d,events,wrq',first,parsed,code,named⟩ := requested
  obtain ⟨o,asked,round | round⟩ := round_cases max_num_of_resends memory wrq client_addr first
  · have absent' : ({ w with events := events, oracle := o } : World).files file_name = none := absent
    rw [round,serve_upload max_num_of_resends d.sender parsed code named absent'] at fails ⊢
    have unsent : SysCall.sendto ∉ o.failed := fun among => sends (asked.sends.mp among)
    have ended : Ended file_name (upload max_num_of_resends file_name d.sender
        { w with events := events, oracle := o, disk := w.disk ++ [.exists_ file_name] }) :=
      upload_ended max_num_of_resends d.sender absent unsent
    cases ran : upload max_num_of_resends file_name d.sender
        { w with events := events, oracle := o, disk := w.disk ++ [.exists_ file_name] } with
    | ok how v =>
      rw [bind_ok ran] at fails ⊢
      rw [ran] at ended
      exact iff_of_true (ended.2.mpr fails) ended.1
    | error stop v =>
      rw [bind_error ran] at fails ⊢
      rw [ran] at ended
      cases fails
      exact ended
  · rw [round]
    exact iff_of_true absent (fun among => sends (asked.sends.mp among))

/-- A request for the file `f`, and the calls that fail. -/
def writer : Addr := ⟨2130706433,4000⟩
def requesting (faults : List Bool) : World where
  events := [.datagram ⟨writer,[0,2,102]⟩]
  oracle := ⟨faults,[]⟩
  sent := []
  files := fun _ => none
  disk := []
def zeros : Memory := ⟨[0],[0]⟩
def requested_f : WRQ := ⟨WRQ_OPCODE,[102] ++ List.replicate FILE_NAME_SIZE 0⟩
theorem requests_f (faults : List Bool) : Requested zeros WRQ.zero (requesting faults) [102] :=
  ⟨⟨writer,[0,2,102]⟩,[],requested_f,rfl,by decide +kernel,rfl,by decide +kernel⟩
/-- ACK 0 is not sent: the process ends, and the file stays. -/
def left_behind : World where
  events := []
  oracle := ⟨[],[.sendto]⟩
  sent := []
  files := Function.update (fun _ => none) [102] (some [])
  disk := [.exists_ [102],.fopen [102]]
theorem round_exits : main_round 3 zeros WRQ.zero writer (requesting [false,false,true]) = .error .exit left_behind := by
  rfl

theorem failed_upload_stays : ¬ ∀ max_num_of_resends memory wrq client_addr file_name w, Requested memory wrq w file_name →
    w.files file_name = none → Failed (main_round max_num_of_resends memory wrq client_addr w) →
    (final (main_round max_num_of_resends memory wrq client_addr w)).files file_name = none := by
  intro claimed
  have gone := claimed 3 zeros WRQ.zero writer [102] _ (requests_f [false,false,true]) rfl (by rw [round_exits]; rfl)
  rw [round_exits] at gone
  simp [final,left_behind] at gone

theorem failed_upload_removed_iff_ack :
    (final (main_round 3 zeros WRQ.zero writer (requesting [false,false,true]))).files [102] = none ↔
      SysCall.sendto ∉ (final (main_round 3 zeros WRQ.zero writer (requesting [false,false,true]))).oracle.failed :=
  failed_upload_removed_iff 3 zeros WRQ.zero writer [102] _ (requests_f [false,false,true]) rfl (by simp [requesting])
    (by rw [round_exits]; rfl)

end StructureOfOs.FailedUploads
