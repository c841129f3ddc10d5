import StructureOfOs.CalmSessions
import StructureOfOs.Integers
import StructureOfOs.Ttftps

/-!
The arguments of the server. `main` refuses only those that `atoi` makes 0 of. What passes
is cut down to 16 bits, unsigned, and once more, signed, where the timeout and the number of
resends are handed to `recieving_data_mode`.
-/
namespace StructureOfOs.ServerArguments
open StructureOfOs.Streams (Text)
open StructureOfOs.Integers (INT_MIN INT_MAX InRange number atoi atoi_of_inRange)
open StructureOfOs.Server StructureOfOs.ServerPasses StructureOfOs.CalmSessions StructureOfOs.Ttftps

def NUM_OF_ARGS : Nat := 4
def u_short (n : Int) : UInt16 := .ofInt n

/-- `main`'s variables for its arguments. -/
structure Settings where
  port_num : UInt16
  timeout : UInt16
  max_num_of_resends : UInt16
deriving DecidableEq, Repr
/-- The validation at the head of `main`, `none` for `arg_error`. -/
def settings (argv : List Text) : Option Settings :=
  if argv.length ≠ NUM_OF_ARGS ∨ atoi (argv.getD 1 []) = 0 ∨ atoi (argv.getD 2 []) = 0 ∨ atoi (argv.getD 3 []) = 0 then none
  else some ⟨u_short (atoi (argv.getD 1 [])),u_short (atoi (argv.getD 2 [])),u_short (atoi (argv.getD 3 []))⟩

/-- The port of `server_addr`, read as the network reads it. -/
def bound_port (settings : Settings) : UInt16 := field (htons settings.port_num) 0
/-- `corrent_time.tv_sec` in `recieving_data_mode`. -/
def tv_sec (settings : Settings) : Int := short_int settings.timeout
/-- A session that no call fails in repeats so many ACKs and is abandoned, once it waits in vain with
    no packet missed before. -/
def Repeats (settings : Settings) (n : Int) : Prop :=
  ∀ client_addr file_name s w events, Calm file_name w → Waited s w events → s.missed_packets = 0 →
    ∃ (waits : Nat) (later : List Event), waits = n ∧ session client_addr file_name (short_int settings.max_num_of_resends) s w =
      .ok .abandoned (gives_up client_addr file_name s waits later w)

/-- The three integers are used as they are given, and are positive. -/
structure AsGiven (settings : Settings) (port_num timeout max_num_of_resends : Int) : Prop where
  port : (bound_port settings).toNat = port_num
  seconds : tv_sec settings = timeout
  repeats : Repeats settings max_num_of_resends
  positive : 0 < port_num ∧ 0 < timeout ∧ 0 < max_num_of_resends

variable {settings_ : Settings} {s : Session} {w : World} {events : List Event} {client_addr : Addr} {file_name : Name}
variable {max_num_of_resends n : Int} {argv : List Text}

/-! ### The conversions -/

theorem u_short_toNat (n : Int) : (u_short n).toNat = (n % 2 ^ 16).toNat := by
  rw [u_short,UInt16.ofInt,UInt16.toNat_ofNat']
  exact Nat.mod_eq_of_lt (by omega)
/-- An integer survives the way to `u_short` exactly when it fits there. -/
theorem u_short_atoi {text : Text} : (0 < number text ∧ ((u_short (atoi text)).toNat : Int) = number text) ↔
    0 < number text ∧ number text < 2 ^ 16 := by
  constructor
  · rintro ⟨positive,same⟩
    have fits : (u_short (atoi text)).toNat < 2 ^ 16 := UInt16.toNat_lt _
    omega
  · rintro ⟨positive,fits⟩
    rw [u_short_toNat,atoi_of_inRange (by unfold InRange INT_MIN INT_MAX; omega)]
    omega
/-- The second conversion lets fewer integers through. -/
theorem short_atoi {text : Text} : (0 < number text ∧ short_int (u_short (atoi text)) = number text) ↔
    0 < number text ∧ number text < 2 ^ 15 := by
  constructor
  · rintro ⟨positive,same⟩
    have fits : (u_short (atoi text)).toNat < 2 ^ 16 := UInt16.toNat_lt _
    unfold short_int at same
    split at same <;> omega
  · rintro ⟨positive,fits⟩
    rw [short_int,u_short_toNat,atoi_of_inRange (by unfold InRange INT_MIN INT_MAX; omega)]
    split <;> omega

/-! ### The number of ACKs -/

/-- From the first wait in vain on. -/
theorem session_waited (client_addr : Addr) (max_num_of_resends : Int) (calm : Calm file_name w) (waited : Waited s w events)
    (none_missed : s.missed_packets = 0) : ∃ later, session client_addr file_name max_num_of_resends s w =
      .ok .abandoned (gives_up client_addr file_name s max_num_of_resends.toNat later w) := by
  by_cases within : max_num_of_resends < 1
  · have last : pass client_addr file_name max_num_of_resends s w = _ := calm_waited calm waited
    rw [if_pos (by omega)] at last
    have none_left : max_num_of_resends.toNat = 0 := by omega
    refine ⟨events,?_⟩
    rw [session_last last,none_left]
    simp [gives_up]
  · have next : pass client_addr file_name max_num_of_resends s w = _ := calm_waited calm waited
    rw [if_neg (by omega)] at next
    have deaf : (missed s).readfds = false := rfl
    have calm' := (calm.at events).said client_addr (.ACK s.block_number)
    obtain ⟨later,_,ended⟩ : ∃ later, _ ∧ session client_addr file_name max_num_of_resends (missed s) _ = _ := session_deaf calm' deaf
    obtain ⟨waits,all⟩ : ∃ waits, max_num_of_resends.toNat = waits + 1 := ⟨max_num_of_resends.toNat - 1,by omega⟩
    refine ⟨later,?_⟩
    rw [session_next next,ended,all]
    simp [gives_up,World.said,missed,none_missed,List.replicate_succ]
theorem repeats_iff : Repeats settings_ n ↔ n = (short_int settings_.max_num_of_resends).toNat := by
  constructor
  · intro repeats
    -- a session that nothing ever reaches
    let silent : World := ⟨[.timeout],⟨[],[]⟩,[],fun _ => some [],[]⟩
    have calm : Calm [] silent := ⟨rfl,rfl⟩
    have waited : Waited Session.start silent [] := .silence rfl rfl
    obtain ⟨waits,later,given,ended⟩ := repeats ⟨0,0⟩ [] Session.start silent [] calm waited rfl
    obtain ⟨later',ended'⟩ := session_waited ⟨0,0⟩ (short_int settings_.max_num_of_resends) calm waited rfl
    have same := congrArg (fun r => (final r).sent.length) (ended'.symm.trans ended)
    simp only [final,gives_up,World.said,World.removed,List.length_append,List.length_replicate] at same
    omega
  · rintro rfl client_addr file_name s w events calm waited none_missed
    obtain ⟨later,ended⟩ := session_waited client_addr (short_int settings_.max_num_of_resends) calm waited none_missed
    exact ⟨_,later,rfl,ended⟩

/-! ### Every argument list -/

/-- What passes the validation is used as given exactly when the port fits a `u_short`, and the
    timeout and the number of resends a `short int`, all positive. -/
theorem as_given_iff (argv : List Text) (settings_ : Settings) (accepted : settings argv = some settings_) :
    AsGiven settings_ (number (argv.getD 1 [])) (number (argv.getD 2 [])) (number (argv.getD 3 [])) ↔
      (0 < number (argv.getD 1 []) ∧ number (argv.getD 1 []) < 2 ^ 16) ∧
      (0 < number (argv.getD 2 []) ∧ number (argv.getD 2 []) < 2 ^ 15) ∧
      (0 < number (argv.getD 3 []) ∧ number (argv.getD 3 []) < 2 ^ 15) := by
  unfold settings at accepted
  split at accepted
  · cases accepted
  · cases accepted
    rw [← u_short_atoi,← short_atoi,← short_atoi]
    constructor
    · rintro ⟨port,seconds,repeats,positive⟩
      rw [bound_port,ntohs_htons] at port
      have limit := repeats_iff.mp repeats
      refine ⟨⟨positive.1,port⟩,⟨positive.2.1,seconds⟩,positive.2.2,?_⟩
      dsimp only at limit
      omega
    · rintro ⟨⟨port,same_port⟩,⟨timeout,same_timeout⟩,resends,same_resends⟩
      refine ⟨?_,same_timeout,repeats_iff.mpr ?_,port,timeout,resends⟩
      · rw [bound_port,ntohs_htons]
        exact same_port
      · dsimp only
        omega

/-- `ttftps 69 40000 3`: the timeout is negative. -/
def long_timeout : List Text := [[],[54,57],[52,48,48,48,48],[51]]
theorem long_timeout_lost : ¬ ∀ argv settings_, settings argv = some settings_ →
    AsGiven settings_ (number (argv.getD 1 [])) (number (argv.getD 2 [])) (number (argv.getD 3 [])) := by
  intro claimed
  have given := (claimed long_timeout _ rfl).seconds
  exact absurd given (by decide)

/-- `ttftps 69 1 3` -/
def usual : List Text := [[],[54,57],[49],[51]]
theorem as_given_iff_usual : AsGiven ⟨69,1,3⟩ 69 1 3 :=
  (as_given_iff usual ⟨69,1,3⟩ (by decide)).mpr (by decide)

end StructureOfOs.ServerArguments
