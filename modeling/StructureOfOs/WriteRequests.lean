import StructureOfOs.FileCalls
import Mathlib.Data.List.GetD
import Mathlib.Data.List.Induction
import Mathlib.Data.List.TakeWhile

/-!
Which name a write request is handled under. The struct of the request is zeroed once,
before the loop, and a name is copied into it without its NUL: behind a shorter name the
end of an earlier longer one is still there. A name that fills the buffer is read on
behind the buffer. So every request is handled under its own name exactly when the
names of the requests before it are never longer, and it leaves room for a NUL.
-/
namespace StructureOfOs.WriteRequests
open StructureOfOs.Loops StructureOfOs.Server StructureOfOs.ServerPasses StructureOfOs.Ttftps StructureOfOs.FileCalls

/-- The name in a request: what follows its opcode, up to the first NUL or its end. -/
def own_name (d : Datagram) : Name := ((message d).drop 2).takeWhile (· ≠ 0)

/-- `recvfrom` in `main` hands over this request. -/
structure Receives (w : World) (d : Datagram) : Prop where
  comes : ∃ events, next_datagram w.events = some (d,events)
  granted : w.oracle.faults.head? ≠ some true
/-- `main` has handled these requests, each in some world and with some memory behind its
    variables, and the struct is as they have left it. -/
inductive Handled (max_num_of_resends : UInt16) : List (Datagram × Memory) → WRQ → Prop
  | start : Handled max_num_of_resends [] WRQ.zero
  | round {rounds : List (Datagram × Memory)} {wrq wrq' : WRQ} {d : Datagram} {memory : Memory} {client_addr : Addr}
      {w w' : World} {answer : Answer} (before : Handled max_num_of_resends rounds wrq) (receives : Receives w d)
      (served : main_round max_num_of_resends memory wrq client_addr w = .ok (wrq',answer) w') :
      Handled max_num_of_resends (rounds ++ [(d,memory)]) wrq'

/-- A run checks whether there is a file of this name, and touches no other. -/
def Uses {α : Type} (file_name : Name) (w : World) (r : EStateM.Result Stop World α) : Prop :=
  ∃ calls, (final r).disk = w.disk ++ .exists_ file_name :: calls ∧ ∀ call ∈ calls, called call = file_name
/-- Whatever lies in memory, each WRQ among the requests is handled under its own name. -/
def OwnNames (max_num_of_resends : UInt16) (requests : List Datagram) : Prop :=
  ∀ rounds wrq d memory later, Handled max_num_of_resends rounds wrq → requests = rounds.map (·.1) ++ d :: later →
    opcode (overlay d cleared) = WRQ_OPCODE → ∀ client_addr w, Receives w d →
      Uses (own_name d) w (main_round max_num_of_resends memory wrq client_addr w)
/-- The name of a WRQ leaves room for a NUL, and no name before it is longer. -/
def Growing (requests : List Datagram) : Prop :=
  ∀ before d later, requests = before ++ d :: later → opcode (overlay d cleared) = WRQ_OPCODE →
    (own_name d).length < FILE_NAME_SIZE ∧ ∀ e ∈ before, (own_name e).length ≤ (own_name d).length

variable {max_num_of_resends : UInt16} {rounds : List (Datagram × Memory)} {requests : List Datagram} {wrq wrq' : WRQ}
variable {d : Datagram} {memory : Memory} {client_addr : Addr} {file_name : Name} {w w' : World} {answer : Answer}
variable {own rest behind : Bytes} {b : UInt8}

/-! ### C strings -/

theorem takeWhile_own (whole : ∀ c ∈ own, c ≠ 0) (rest : Bytes) :
    (own ++ rest).takeWhile (· ≠ 0) = own ++ rest.takeWhile (· ≠ 0) :=
  List.takeWhile_append_of_pos fun c among => by simpa using whole c among
/-- A string is read to its end where a NUL follows. -/
theorem c_string_iff (whole : ∀ c ∈ own, c ≠ 0) (b : UInt8) (rest : Bytes) :
    c_string (own ++ b :: rest) = some own ↔ b = 0 := by
  constructor
  · intro read
    by_contra more
    unfold c_string at read
    split at read
    · rw [takeWhile_own whole,List.takeWhile_cons_of_pos (by simpa using more)] at read
      simp at read
    · cases read
  · rintro rfl
    rw [c_string,if_pos (by simp),takeWhile_own whole,List.takeWhile_cons_of_neg (by simp),List.append_nil]
theorem strlen_own (whole : ∀ c ∈ own, c ≠ 0) (rest : Bytes) : strlen (own ++ 0 :: rest) = some own.length := by
  rw [strlen,(c_string_iff whole 0 rest).mpr rfl]
  rfl
theorem strncpy_own (whole : ∀ c ∈ own, c ≠ 0) (dest rest : Bytes) :
    strncpy dest (own ++ 0 :: rest) own.length = own ++ dest.drop own.length := by
  rw [strncpy,takeWhile_own whole,List.takeWhile_cons_of_neg (by simp),List.append_nil]
  simp

/-! ### Parsing one request -/

theorem own_name_whole (d : Datagram) : ∀ c ∈ own_name d, c ≠ 0 := by
  intro c among
  simpa using List.mem_takeWhile_imp among
/-- The name field of the receive buffer. -/
theorem buff_name (d : Datagram) : (overlay d cleared).drop 2 =
    (message d).drop 2 ++ List.replicate (FILE_NAME_SIZE - ((message d).drop 2).length) 0 := by
  rw [overlay,List.drop_append,cleared,List.drop_replicate,List.drop_replicate,List.length_drop]
  have count : PACKET_SIZE - (message d).length - (2 - (message d).length) = FILE_NAME_SIZE - ((message d).length - 2) := by
    simp only [PACKET_SIZE,FILE_NAME_SIZE]
    omega
  rw [count]
theorem name_field_length (d : Datagram) : ((message d).drop 2).length ≤ FILE_NAME_SIZE := by
  have cut : (message d).length ≤ PACKET_SIZE := message_length d
  simp only [List.length_drop,PACKET_SIZE,FILE_NAME_SIZE] at *
  omega
theorem own_name_length (d : Datagram) : (own_name d).length ≤ FILE_NAME_SIZE :=
  Nat.le_trans (List.takeWhile_prefix _).length_le (name_field_length d)

/-- Behind a name that does not fill the buffer there is a NUL in the buffer. -/
theorem buff_short (short : (own_name d).length < FILE_NAME_SIZE) (behind : Bytes) :
    ∃ rest, (overlay d cleared).drop 2 ++ behind = own_name d ++ 0 :: rest := by
  rw [buff_name]
  generalize field : (message d).drop 2 = name at *
  have split := List.takeWhile_append_dropWhile (p := (· ≠ (0 : UInt8))) (l := name)
  have own_ : own_name d = name.takeWhile (· ≠ 0) := by rw [own_name,field]
  rw [← own_] at split
  cases left : name.dropWhile (· ≠ 0) with
  | nil =>
    rw [left,List.append_nil] at split
    rw [split] at short
    obtain ⟨n,more⟩ := Nat.exists_eq_succ_of_ne_zero (Nat.sub_ne_zero_of_lt short)
    refine ⟨List.replicate n 0 ++ behind,?_⟩
    rw [more,List.replicate_succ,split]
    simp
  | cons c after =>
    have nul : c = 0 := by
      have stops := List.head?_dropWhile_not (· ≠ (0 : UInt8)) name
      rw [left] at stops
      simpa using stops
    subst nul
    refine ⟨after ++ (List.replicate (FILE_NAME_SIZE - name.length) 0 ++ behind),?_⟩
    rw [left] at split
    rw [← split]
    simp
/-- A name that fills the buffer. -/
theorem buff_full (fills : (own_name d).length = FILE_NAME_SIZE) : (overlay d cleared).drop 2 = own_name d := by
  have pre := List.takeWhile_prefix (l := (message d).drop 2) (· ≠ (0 : UInt8))
  have long : ((message d).drop 2).length ≤ (own_name d).length := by rw [fills]; exact name_field_length d
  have same : own_name d = (message d).drop 2 := pre.eq_of_length (Nat.le_antisymm pre.length_le long)
  rw [buff_name,← same,fills]
  simp

theorem parse_own (ends : (overlay d cleared).drop 2 ++ behind = own_name d ++ 0 :: rest) (wrq : WRQ) :
    wrq_parse wrq (overlay d cleared) behind =
      some ⟨opcode (overlay d cleared),own_name d ++ wrq.file_name.drop (own_name d).length⟩ := by
  have fits : (own_name d).length ≤ FILE_NAME_SIZE + 1 := Nat.le_succ_of_le (own_name_length d)
  rw [wrq_parse,ends,strlen_own (own_name_whole d)]
  simp only [Option.bind_eq_bind,Option.bind_some,if_pos fits]
  rw [strncpy_own (own_name_whole d)]
  rfl

/-! ### A round -/

theorem round_serves (receives : Receives w d) (max_num_of_resends : UInt16) (memory : Memory) (wrq : WRQ)
    (client_addr : Addr) : ∃ events o, (w.oracle.faults = [] → o.faults = []) ∧
      main_round max_num_of_resends memory wrq client_addr w =
        serve max_num_of_resends memory wrq (overlay d cleared) d.sender { w with events := events, oracle := o } := by
  obtain ⟨⟨events,comes⟩,granted⟩ := receives
  obtain ⟨o,calm,ran⟩ : ∃ o, (w.oracle.faults = [] → o.faults = []) ∧ attempt .recvfrom w = .ok true (w.asked o) := by
    cases faults : w.oracle.faults with
    | nil => exact ⟨w.oracle,fun _ => faults,by simp [attempt,faults,World.asked]⟩
    | cons fails faults' =>
      cases fails with
      | true => simp [faults] at granted
      | false => exact ⟨⟨faults',w.oracle.failed⟩,by simp,by simp [attempt,faults]⟩
  refine ⟨events,o,calm,?_⟩
  have received_ : recvfrom cleared client_addr w =
      .ok ((message d).length,overlay d cleared,d.sender) { w with events := events, oracle := o } := by
    rw [recvfrom,bind_ok ran]
    simp [World.asked,comes,message,overlay]
  have size : ¬ ((message d).length : Int) < 0 := by omega
  rw [main_round,bind_ok received_]
  simp only [if_neg size]

/-- The struct after a round is the parsed one. -/
theorem serve_parsed {buff : Bytes} (served : serve max_num_of_resends memory wrq buff client_addr w = .ok (wrq',answer) w') :
    wrq_parse wrq buff memory.behind_buff = some wrq' := by
  cases parsed : wrq_parse wrq buff memory.behind_buff with
  | none => simp [serve,parsed] at served
  | some wrq'' =>
    have same : Returns (serve max_num_of_resends memory wrq buff client_addr) (fun r => r.1 = wrq'') := by
      simp only [serve,parsed]
      split
      · exact returns_bind fun _ => returns_pure rfl
      · split
        · rintro w r w' ⟨⟩
        · refine returns_bind fun found => ?_
          split
          · exact returns_bind fun _ => returns_pure rfl
          · exact returns_bind fun how => returns_pure rfl
    exact congrArg some (same _ _ _ served).symm

/-- A WRQ is handled under the name that is read out of the struct. -/
theorem serve_uses (parsed : wrq_parse wrq (overlay d cleared) memory.behind_buff = some wrq')
    (code : wrq'.opcode = WRQ_OPCODE) (named : c_string (wrq'.file_name ++ memory.behind_struct) = some file_name) :
    Uses file_name w (serve max_num_of_resends memory wrq (overlay d cleared) client_addr w) := by
  let checked : World := { w with disk := w.disk ++ [.exists_ file_name] }
  let last (found : Bool) : Process (WRQ × Answer) :=
    if found = true then do
      send_error FILE_ALREADAY_EXSITS "File already exists" client_addr
      return (wrq',.already_exists)
    else do
      let how ← upload max_num_of_resends file_name client_addr
      return (wrq',.uploaded how)
  have goes : serve max_num_of_resends memory wrq (overlay d cleared) client_addr w =
      last (w.files file_name).isSome checked := by
    rw [serve]
    simp only [parsed,code,named,ne_eq,not_true_eq_false,↓reduceIte]
    have asked : file_is_exist file_name w = .ok (w.files file_name).isSome checked := by simp [file_is_exist,checked]
    rw [bind_ok asked]
  have under : ∀ found, Under file_name (last found) := by
    intro found
    refine under_ite ?_ ?_
    · exact under_bind (under_send_error file_name _ _ _) fun _ => under_pure file_name _
    · exact under_bind (under_upload max_num_of_resends file_name client_addr) fun _ => under_pure file_name _
  obtain ⟨calls,disk,named'⟩ := under _ checked
  refine ⟨calls,?_,named'⟩
  rw [goes,disk]
  simp [checked]

/-- It is handled under no other name. -/
theorem serve_reads (parsed : wrq_parse wrq (overlay d cleared) memory.behind_buff = some wrq')
    (code : wrq'.opcode = WRQ_OPCODE)
    (uses : Uses file_name w (serve max_num_of_resends memory wrq (overlay d cleared) client_addr w)) :
    c_string (wrq'.file_name ++ memory.behind_struct) = some file_name := by
  obtain ⟨calls,disk,_⟩ := uses
  cases named : c_string (wrq'.file_name ++ memory.behind_struct) with
  | none =>
    have stopped : serve max_num_of_resends memory wrq (overlay d cleared) client_addr w = .error .overrun w := by
      simp [serve,parsed,code,named]
    simp [stopped,final] at disk
  | some other =>
    have read : Uses other w (serve max_num_of_resends memory wrq (overlay d cleared) client_addr w) :=
      serve_uses parsed code named
    obtain ⟨calls',disk',_⟩ := read
    rw [disk'] at disk
    have same := List.append_cancel_left disk
    simp only [List.cons.injEq,FileCall.exists_.injEq] at same
    rw [same.1]

/-! ### The struct after many rounds -/

/-- Memory that is all NUL, as far as anything reads on. -/
def nuls : Memory := ⟨[0],[0]⟩
/-- A world in which a request is answered at once: every file exists. -/
def busy (d : Datagram) : World where
  events := [.datagram d]
  oracle := ⟨[],[]⟩
  sent := []
  files := fun _ => some []
  disk := []
theorem busy_receives (d : Datagram) : Receives (busy d) d := ⟨⟨[],rfl⟩,by simp [busy]⟩

theorem ends_nuls (d : Datagram) : ∃ rest, (overlay d cleared).drop 2 ++ nuls.behind_buff = own_name d ++ 0 :: rest := by
  rcases Nat.lt_or_eq_of_le (own_name_length d) with short | fills
  · exact buff_short short _
  · exact ⟨[],by rw [buff_full fills]; rfl⟩
theorem read_own (wrq : WRQ) (size : wrq.file_name.length = FILE_NAME_SIZE + 1) (d : Datagram) (behind : Bytes) :
    c_string (own_name d ++ wrq.file_name.drop (own_name d).length ++ behind) = some (own_name d) ↔
      wrq.file_name.getD (own_name d).length 0 = 0 := by
  have inside : (own_name d).length < wrq.file_name.length := by rw [size]; exact Nat.lt_succ_of_le (own_name_length d)
  rw [List.drop_eq_getElem_cons inside,List.append_assoc,List.cons_append,c_string_iff (own_name_whole d),
    List.getD_eq_getElem _ _ inside]

/-- Where the struct is still zero after the names of these requests. -/
structure Left (names : List Nat) (wrq : WRQ) : Prop where
  size : wrq.file_name.length = FILE_NAME_SIZE + 1
  zero : ∀ p ≤ FILE_NAME_SIZE, wrq.file_name.getD p 0 = 0 ↔ ∀ n ∈ names, n ≤ p
theorem left_start : Left [] WRQ.zero := by
  constructor
  · simp [WRQ.zero]
  · intro p _
    simp [WRQ.zero,List.getD_eq_getElem?_getD,List.getElem?_replicate]
    split <;> rfl
theorem Left.parsed {names : List Nat} (left : Left names wrq) (d : Datagram) :
    Left (names ++ [(own_name d).length]) ⟨opcode (overlay d cleared),own_name d ++ wrq.file_name.drop (own_name d).length⟩ := by
  have fits := own_name_length d
  constructor
  · have size := left.size
    simp only [List.length_append,List.length_drop]
    omega
  · intro p inside
    simp only [List.mem_append,List.mem_singleton]
    by_cases within : p < (own_name d).length
    · refine iff_of_false ?_ (fun fits => absurd (fits _ (.inr rfl)) (Nat.not_le_of_lt within))
      rw [List.getD_append _ _ _ _ within,List.getD_eq_getElem _ _ within]
      exact own_name_whole d _ (List.getElem_mem within)
    · have beyond := Nat.le_of_not_lt within
      have same : (own_name d ++ wrq.file_name.drop (own_name d).length).getD p 0 = wrq.file_name.getD p 0 := by
        rw [List.getD_append_right _ _ _ _ beyond,List.getD_eq_getElem?_getD,List.getElem?_drop,
          Nat.add_sub_cancel' beyond,List.getD_eq_getElem?_getD]
      rw [same,left.zero p inside]
      constructor
      · rintro fits n (among | rfl)
        · exact fits n among
        · exact beyond
      · exact fun fits n among => fits n (.inl among)

theorem handled_left (handled : Handled max_num_of_resends rounds wrq)
    (short : ∀ e ∈ rounds.map (·.1), (own_name e).length < FILE_NAME_SIZE) :
    Left (rounds.map fun x => (own_name x.1).length) wrq := by
  induction handled with
  | start => exact left_start
  | @round rounds wrq wrq' d memory client_addr w w' answer before receives served ih =>
    have earlier := ih fun e among => short e (by simp only [List.map_append,List.mem_append]; exact .inl among)
    obtain ⟨events,o,_,goes⟩ := round_serves receives max_num_of_resends memory wrq client_addr
    rw [goes] at served
    have fits : (own_name d).length < FILE_NAME_SIZE := short d (by simp)
    obtain ⟨rest,ends⟩ := buff_short fits memory.behind_buff
    have parsed := (parse_own ends wrq).symm.trans (serve_parsed served)
    cases parsed
    rw [List.map_append]
    exact earlier.parsed d

/-- Where every file exists and no call fails, a request is answered at once. -/
theorem serve_answers (faultless : w.oracle.faults = []) (exist : ∀ name, (w.files name).isSome = true) {buff : Bytes}
    (parsed : wrq_parse wrq buff nuls.behind_buff = some wrq') (max_num_of_resends : UInt16) (client_addr : Addr) :
    ∃ answer w', serve max_num_of_resends nuls wrq buff client_addr w = .ok (wrq',answer) w' := by
  have told : ∀ code text (v : World), v.oracle.faults = [] →
      send_error code text client_addr v = .ok () (v.said client_addr (.ERROR code text)) := by
    intro code text v none_fails
    obtain ⟨o,⟨asked,ran⟩ | ⟨_,faulty,_⟩⟩ := send_error_cases code text client_addr v
    · rw [ran,asked.calm none_fails]; rfl
    · exact absurd none_fails faulty
  have named : c_string (wrq'.file_name ++ nuls.behind_struct) =
      some ((wrq'.file_name ++ nuls.behind_struct).takeWhile (· ≠ 0)) := by
    rw [c_string,if_pos (by simp [nuls])]
  simp only [serve,parsed,named]
  generalize (wrq'.file_name ++ nuls.behind_struct).takeWhile (· ≠ 0) = name
  split
  · exact ⟨.unknown_user,_,by rw [bind_ok (told _ _ _ faultless)]; rfl⟩
  · have found : file_is_exist name w = .ok true { w with disk := w.disk ++ [.exists_ name] } := by
      simp [file_is_exist,exist]
    have faultless' : ({ w with disk := w.disk ++ [.exists_ name] } : World).oracle.faults = [] := faultless
    rw [bind_ok found]
    simp only [↓reduceIte]
    exact ⟨.already_exists,_,by rw [bind_ok (told _ _ _ faultless')]; rfl⟩
/-- Any requests can be handled, with nothing but NULs behind the variables. -/
theorem handled_nuls (max_num_of_resends : UInt16) (requests : List Datagram) : ∃ wrq,
    Handled max_num_of_resends (requests.map fun d => (d,nuls)) wrq ∧ Left (requests.map fun d => (own_name d).length) wrq := by
  induction requests using List.reverseRecOn with
  | nil => exact ⟨WRQ.zero,.start,left_start⟩
  | append_singleton requests d ih =>
    obtain ⟨wrq,handled,left⟩ := ih
    obtain ⟨rest,ends⟩ := ends_nuls d
    obtain ⟨events,o,calm,goes⟩ := round_serves (busy_receives d) max_num_of_resends nuls wrq d.sender
    have exist : ∀ name, (({ busy d with events := events, oracle := o } : World).files name).isSome = true := fun _ => rfl
    have faultless : ({ busy d with events := events, oracle := o } : World).oracle.faults = [] := calm rfl
    obtain ⟨answer,w',served⟩ := serve_answers faultless exist (parse_own ends wrq) max_num_of_resends d.sender
    refine ⟨⟨opcode (overlay d cleared),own_name d ++ wrq.file_name.drop (own_name d).length⟩,?_,?_⟩
    · rw [List.map_append]
      exact .round handled (busy_receives d) (goes.trans served)
    · rw [List.map_append]
      exact left.parsed d

/-! ### Every request under its own name -/

theorem growing_own_names (growing : Growing requests) : OwnNames max_num_of_resends requests := by
  intro rounds wrq d memory later handled split code client_addr w receives
  obtain ⟨short,longest⟩ := growing _ d later split code
  have left := handled_left handled fun e among => Nat.lt_of_le_of_lt (longest e among) short
  obtain ⟨rest,ends⟩ := buff_short short memory.behind_buff
  obtain ⟨events,o,_,goes⟩ := round_serves receives max_num_of_resends memory wrq client_addr
  have zero : wrq.file_name.getD (own_name d).length 0 = 0 := by
    refine (left.zero _ (own_name_length d)).mpr fun n among => ?_
    obtain ⟨x,before,rfl⟩ := List.mem_map.mp among
    exact longest x.1 (List.mem_map_of_mem before)
  have named := (read_own wrq left.size d memory.behind_struct).mpr zero
  rw [goes]
  exact serve_uses (w := { w with events := events, oracle := o }) (parse_own ends wrq) code named

theorem own_names_growing (own : OwnNames max_num_of_resends requests) : Growing requests := by
  intro before d later split code
  obtain ⟨wrq,handled,left⟩ := handled_nuls max_num_of_resends before
  have handled_before : requests = (before.map fun d => (d,nuls)).map (·.1) ++ d :: later := by
    rw [split,List.map_map]
    simp [Function.comp_def]
  constructor
  · -- A name that fills the buffer goes on with a byte behind it.
    by_contra long
    have fills : (own_name d).length = FILE_NAME_SIZE := Nat.le_antisymm (own_name_length d) (Nat.le_of_not_lt long)
    let memory : Memory := ⟨[1,0],[0]⟩
    have uses := own _ wrq d memory later handled handled_before code d.sender (busy d) (busy_receives d)
    obtain ⟨events,o,_,goes⟩ := round_serves (busy_receives d) max_num_of_resends memory wrq d.sender
    rw [goes] at uses
    have whole : ∀ c ∈ own_name d ++ [1], c ≠ 0 := by
      intro c among
      rcases List.mem_append.mp among with inside | last
      · exact own_name_whole d c inside
      · rw [List.mem_singleton.mp last]; decide
    have ends : (overlay d cleared).drop 2 ++ [1,0] = (own_name d ++ [1]) ++ 0 :: [] := by rw [buff_full fills]; simp
    have parsed : wrq_parse wrq (overlay d cleared) memory.behind_buff =
        some ⟨opcode (overlay d cleared),(own_name d ++ [1]) ++ wrq.file_name.drop (own_name d ++ [1]).length⟩ := by
      have fits : (own_name d ++ [1]).length ≤ FILE_NAME_SIZE + 1 := by simp [fills]
      show wrq_parse wrq (overlay d cleared) [1,0] = _
      rw [wrq_parse,ends,strlen_own whole]
      simp only [Option.bind_eq_bind,Option.bind_some,if_pos fits]
      rw [strncpy_own whole]
      rfl
    have read := serve_reads parsed code uses
    rw [List.append_assoc,List.append_assoc,List.singleton_append,c_string_iff (own_name_whole d)] at read
    exact absurd read (by decide)
  · -- Behind the name the struct must still be zero.
    intro e among
    obtain ⟨rest,ends⟩ := ends_nuls d
    have uses := own _ wrq d nuls later handled handled_before code d.sender (busy d) (busy_receives d)
    obtain ⟨events,o,_,goes⟩ := round_serves (busy_receives d) max_num_of_resends nuls wrq d.sender
    rw [goes] at uses
    have read := serve_reads (parse_own ends wrq) code uses
    have zero := (read_own wrq left.size d nuls.behind_struct).mp read
    exact (left.zero _ (own_name_length d)).mp zero _ (List.mem_map_of_mem among)

/-- Requests are handled under their own names exactly when their names never get shorter
    and leave room for a NUL. -/
theorem own_names_iff (max_num_of_resends : UInt16) (requests : List Datagram) :
    OwnNames max_num_of_resends requests ↔ Growing requests :=
  ⟨own_names_growing,growing_own_names⟩

/-- The files `ab` and `c`. -/
def asks_ab : Datagram := ⟨⟨2130706433,4000⟩,[0,2,97,98]⟩
def asks_c : Datagram := ⟨⟨2130706433,4000⟩,[0,2,99]⟩
/-- The second request is handled under the name `cb`. -/
theorem shorter_name_mixed : ¬ ∀ max_num_of_resends requests, OwnNames max_num_of_resends requests := by
  intro claimed
  have growing := own_names_growing (claimed 3 [asks_ab,asks_c])
  have longest := (growing [asks_ab] asks_c [] rfl (by decide +kernel)).2 asks_ab List.mem_cons_self
  exact absurd longest (by decide +kernel)

end StructureOfOs.WriteRequests
