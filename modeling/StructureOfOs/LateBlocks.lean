import StructureOfOs.TwinSessions
import Mathlib.Data.List.Destutter

/-!
Blocks that come late. The socket is put into the set once, before both loops, and
`select` takes it out when it waits in vain. The session then answers every wait with
an ACK and takes no block any more, so it is abandoned, however few waits there were.
An upload gets over waits only if none of them comes before a block that it still needs.
-/
namespace StructureOfOs.LateBlocks
open StructureOfOs.Loops StructureOfOs.Server StructureOfOs.ServerPasses StructureOfOs.Blocks StructureOfOs.CalmSessions
open StructureOfOs.TwinSessions

/-- Datagrams, each after a number of waits that are longer than the timeout. -/
def late (plan : List (Nat × Datagram)) : List Event :=
  plan.flatMap fun (waits,d) => List.replicate waits .timeout ++ [.datagram d]
/-- The datagrams without the waits. -/
def promptly (plan : List (Nat × Datagram)) : List Event := plan.map fun (_,d) => .datagram d

/-- The runs end the same way and leave the same files, by the same writes; the client
    is told the same but for repetitions. -/
structure SameUpload (client_addr : Addr) (r r' : EStateM.Result Stop World End) : Prop where
  ending : ending r = ending r'
  files : (final r).files = (final r').files
  disk : (final r).disk = (final r').disk
  acks : (told client_addr (final r)).destutter (· ≠ ·) = (told client_addr (final r')).destutter (· ≠ ·)

/-- There is no wait before a datagram as long as all datagrams before it are the full
    blocks from `k` on. -/
def Prompt (client_addr : Addr) : Nat → List (Nat × Datagram) → Prop
  | _,[] => True
  | k,(waits,d) :: plan => waits = 0 ∧ (IsFullBlock client_addr k d → Prompt client_addr (k + 1) plan)

variable {client_addr : Addr} {file_name : Name} {max_num_of_resends : Int} {s t : Session} {w v : World}
variable {plan : List (Nat × Datagram)} {k : Nat} {r r' : EStateM.Result Stop World End}

theorem same_upload (same : SameOutcome client_addr r r') : SameUpload client_addr r r' :=
  ⟨same.ending,same.alike.files,same.alike.disk,by rw [same.alike.told]⟩

/-- A session that never waits in vain is not abandoned. -/
theorem never_abandoned (max_num_of_resends : Int) (twins : Twins client_addr file_name k t t v v)
    (sends : ∀ x ∈ plan, x.2.sender = client_addr)
    (events : v.events = promptly plan) : ending (session client_addr file_name max_num_of_resends t v) ≠ .ok .abandoned := by
  induction plan generalizing t v k with
  | nil =>
    have waits : pass client_addr file_name max_num_of_resends t v = _ := calm_starved twins.calm twins.watches events
    rw [session_fails waits]
    simp [ending]
  | cons at_ plan ih =>
    obtain ⟨waits,d⟩ := at_
    have own : d.sender = client_addr := sends (waits,d) List.mem_cons_self
    by_cases full : IsFullBlock client_addr (k + 1) d
    · obtain ⟨_,t',_,v',twins',_,_,events',_,goes⟩ := twins_next max_num_of_resends twins events events full
      rw [goes]
      exact ih twins'.itself (fun x among => sends x (List.mem_cons_of_mem _ among)) events'
    · rw [ending_last twins.calm twins.watches twins.number events own full]
      split <;> simp

/-- The sessions with and without the waits. -/
theorem twins_same_iff (twins : Twins client_addr file_name k s t w v) (fresh : s.buff = cleared)
    (sends : ∀ x ∈ plan, x.2.sender = client_addr) (events : w.events = late plan) (events' : v.events = promptly plan) :
    SameUpload client_addr (session client_addr file_name max_num_of_resends s w)
      (session client_addr file_name max_num_of_resends t v) ↔ Prompt client_addr (k + 1) plan := by
  induction plan generalizing s t w v k with
  | nil => exact ⟨fun _ => trivial,fun _ => same_upload (twins_starved max_num_of_resends twins events events')⟩
  | cons at_ plan ih =>
    obtain ⟨waits,d⟩ := at_
    have own : d.sender = client_addr := sends (waits,d) List.mem_cons_self
    have sends' : ∀ x ∈ plan, x.2.sender = client_addr := fun x among => sends x (List.mem_cons_of_mem _ among)
    have never := never_abandoned max_num_of_resends twins.itself sends events'
    cases waits with
    | zero =>
      by_cases full : IsFullBlock client_addr (k + 1) d
      · obtain ⟨s',t',w',v',twins',fresh',rest,rest',goes,goes'⟩ := twins_next max_num_of_resends twins events events' full
        rw [goes,goes',ih twins' fresh' sends' rest rest']
        exact ⟨fun prompt => ⟨rfl,fun _ => prompt⟩,fun prompt => prompt.2 full⟩
      · have agree : (received s d).buff = (received t d).buff := by simp [received,fresh,twins.fresh]
        have same := twins_last max_num_of_resends twins events events' own (by rw [agree]) full
        exact ⟨fun _ => ⟨rfl,fun also => absurd also full⟩,fun _ => same_upload same⟩
    | succ waits =>
      obtain ⟨after,ended⟩ := session_late client_addr max_num_of_resends twins.calm twins.watches events
      refine ⟨fun same => absurd ?_ never,fun prompt => absurd prompt.1 (Nat.succ_ne_zero waits)⟩
      rw [← same.ending,ended]
      rfl

/-- Waits change nothing exactly when none comes before a datagram that the session
    still takes. -/
theorem late_blocks_iff (client_addr : Addr) (file_name : Name) (max_num_of_resends : Int) (plan : List (Nat × Datagram))
    (w : World) (faultless : w.oracle.faults = []) (created : (w.files file_name).isSome = true)
    (sends : ∀ x ∈ plan, x.2.sender = client_addr) :
    SameUpload client_addr
      (recieving_data_mode client_addr file_name max_num_of_resends { w with events := late plan })
      (recieving_data_mode client_addr file_name max_num_of_resends { w with events := promptly plan }) ↔
    Prompt client_addr 1 plan :=
  twins_same_iff (twins_start client_addr ⟨faultless,created⟩ _ _) rfl sends rfl rfl

/-- A client that sends the two bytes of a file in one block. -/
def uploader : Addr := ⟨2130706433,4000⟩
def only_block : Datagram := ⟨uploader,[0,3,0,1,104,105]⟩
def asked : World where
  events := []
  oracle := ⟨[],[]⟩
  sent := [(uploader,.ACK 0)]
  files := Function.update (fun _ => none) [102] (some [])
  disk := [.exists_ [102],.fopen [102]]

/-- One wait before the block, where three are allowed. -/
theorem late_block_lost : ¬ ∀ client_addr file_name max_num_of_resends plan (w : World), w.oracle.faults = [] →
    (w.files file_name).isSome = true →
    (∀ x ∈ plan, x.2.sender = client_addr ∧ opcode (message x.2) = DATA_OPCODE ∧ (x.1 : Int) ≤ max_num_of_resends) →
    SameUpload client_addr
      (recieving_data_mode client_addr file_name max_num_of_resends { w with events := late plan })
      (recieving_data_mode client_addr file_name max_num_of_resends { w with events := promptly plan }) := by
  intro claimed
  have same := claimed uploader [102] 3 [(1,only_block)] asked rfl (by simp [asked])
    (by simp only [List.mem_singleton,forall_eq]; decide)
  have sends : ∀ x ∈ [(1,only_block)], x.2.sender = uploader := by simp [only_block]
  have calm : Calm [102] asked := ⟨rfl,by simp [asked]⟩
  have prompt := (twins_same_iff (twins_start uploader calm _ _) rfl sends rfl rfl).mp same
  exact absurd prompt.1 (by decide)

/-- The session ends on its block and takes nothing of what comes two waits later. -/
theorem late_blocks_iff_prompt_block : SameUpload uploader
    (recieving_data_mode uploader [102] 3 { asked with events := late [(0,only_block),(2,only_block)] })
    (recieving_data_mode uploader [102] 3 { asked with events := promptly [(0,only_block),(2,only_block)] }) :=
  (late_blocks_iff uploader [102] 3 [(0,only_block),(2,only_block)] asked rfl (by simp [asked]) (by simp [only_block])).mpr
    ⟨rfl,fun full => absurd full.2 (by decide)⟩

end StructureOfOs.LateBlocks
