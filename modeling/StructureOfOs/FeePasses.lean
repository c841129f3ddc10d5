import StructureOfOs.Recordings
import StructureOfOs.SerialHistory

/-!
The passes of the fee collector. Every balance that a thread reads or writes is
recorded, and with them the accounts and the bank's balance at the moment that the
fee collector got the read lock of the account list. A pass stands on two locks: the
list's keeps the entries as they were, and each account's makes the reading and the
writing of a balance one action, for the charge as for the commands of the ATMs.
-/
namespace StructureOfOs.FeePasses
open StructureOfOs.Programs StructureOfOs.Outlines StructureOfOs.Recordings StructureOfOs.RwLock StructureOfOs.BankState
open StructureOfOs.Accounts StructureOfOs.Atm StructureOfOs.Bank StructureOfOs.Views StructureOfOs.BankInvariant
open StructureOfOs.BankOutline StructureOfOs.BankFollows StructureOfOs.SerialHistory

/-- A write of an account's balance: what the balance was just before, and what the
    thread took it to be, which last read or wrote it. -/
structure Write where
  thread : Tid
  account : Ref
  before : Int
  read : Int
  written : Int
deriving DecidableEq, Repr

/-- What each thread last read or wrote in an account; the entries of the list, the
    balances and the bank's balance when the fee collector last got the list (or gave
    it back), and the writes since. -/
structure Record where
  read : Tid → Ref → Int
  entries : List (Int × Ref)
  opening : Ref → Int
  bank : Int
  writes : List Write

namespace Record
def empty : Record := ⟨fun _ _ => 0,[],fun _ => 0,0,[]⟩
/-- A thread has seen the balance of an account. -/
def saw (R : Record) (t : Tid) (r : Ref) (v : Int) : Record :=
  { R with read := Function.update R.read t (Function.update (R.read t) r v) }
/-- A thread writes the balance of an account. -/
def wrote (R : Record) (t : Tid) (r : Ref) (before v : Int) : Record :=
  { R with writes := R.writes ++ [⟨t,r,before,R.read t r,v⟩] }
/-- The fee collector has the list. -/
def start (R : Record) (s : Shared) : Record :=
  ⟨R.read,s.map_of_accounts.entries,fun r => (s.account r).balance,s.balance,[]⟩
/-- The writes of the fee collector, and the writes to one account. -/
def charges (R : Record) : List Write := R.writes.filter fun w => w.thread = .fee_collection
def on (R : Record) (r : Ref) : List Write := R.writes.filter fun w => w.account = r
end Record

/-- The record of the bank. The way into the list for a reader ends with the read
    mutex given back. -/
def note (t : Tid) : (a : Act) → Res a → Shared → Record → Record
  | .balance r, v, _, R => R.saw t r v
  | .set_balance r v, _, s, R => (R.wrote t r (s.account r).balance v).saw t r v
  | .unlock (.lock_read .account_list), _, s, R => if t = .fee_collection then R.start s else R
  | _, _, _, R => R

/-- The states of the bank under every schedule, with the record. -/
def Recorded (n : Nat) (files : Nat → List Command) (rand : Nat → Nat)
    (c : Programs.Config Tid (Shared × Record) Act Res Ctl) : Prop :=
  (recording (bank n) note).Reaches (attach (initial files rand) Record.empty) c
/-- Every state of the bank has a record. -/
theorem recorded_of_reachable {n : Nat} {files : Nat → List Command} {rand : Nat → Nat} {c : Bank.Config}
    (reachable : Reachable n files rand c) : ∃ R, Recorded n files rand (attach c R) :=
  recorded_reaches (c := attach (initial files rand) Record.empty) reachable

/-! ### The view of the fee collector -/

/-- Where the fee collector is in its pass: the accounts it has passed and the one it
    stands at, the balance it has read there and the bank's, what the bank has gained
    and the account not yet lost, and whether the account has been charged. -/
structure Pass where
  rate : Nat
  done : List Ref
  stand : Option Ref
  read : Option (Ref × Int)
  bank : Option Int
  owed : Int
  charged : Bool

namespace Pass
/-- A pass that has only begun, at a rate. -/
def fresh (rate : Nat) : Pass := ⟨rate,[],none,none,none,0,false⟩
/-- What was read is no longer relied on. -/
def drop (h : Pass) : Pass := { h with read := none, bank := none }

def Permits (h : Pass) : Act → Prop
  | .rand => h.done = [] ∧ h.charged = false
  | .first => h.done = [] ∧ h.stand = none ∧ h.charged = false
  | .after _ => h.charged = true
  | .set_bank_balance v => ∃ r b x, h.read = some (r,b) ∧ h.bank = some x ∧ h.owed = 0 ∧ v = x + fee b h.rate
  | .set_balance r v => h.stand = some r ∧ h.charged = false ∧
      ∃ b, h.read = some (r,b) ∧ h.owed = fee b h.rate ∧ v = b - fee b h.rate
  | _ => True
def Leads (h : Pass) : (a : Act) → Res a → Pass → Prop
  | .rand, x, h' => h' = { h.drop with rate := x % MAX_FEE + 1 }
  | .unlock (.lock_read .account_list), _, h' => h' = fresh h.rate
  | .first, it, h' => h' = { h.drop with stand := it.map (·.2) }
  | .after _, it, h' => h' = { h.drop with done := h.done ++ h.stand.toList, stand := it.map (·.2), charged := false }
  | .balance r, v, h' => (∀ b, h.read = some (r,b) → v = b) ∧ h' = { h with read := some (r,v) }
  | .bank_balance, v, h' => h' = { h with bank := some v }
  | .set_bank_balance v, _, h' => ∃ x, h.bank = some x ∧ h' = { h with bank := none, owed := h.owed + (v - x) }
  | .set_balance _ _, _, h' => h' = { h.drop with owed := 0, charged := true }
  | _, _, h' => h' = h.drop
/-- The views at the points where the loops of the fee collector come round. -/
def Loop (h : Pass) : Ctl → Prop
  | .fee_collection => h.done = [] ∧ h.stand = none ∧ h.owed = 0 ∧ h.charged = false
  | .charge_accounts rate it => h.rate = rate ∧ h.stand = it.map (·.2) ∧ h.owed = 0 ∧ h.charged = false
  | .ended => True
  | _ => False
end Pass

/-- What a pass has done so far to the accounts and to the bank. -/
structure Charged (s : Shared) (R : Record) (h : Pass) : Prop where
  entries : R.entries = s.map_of_accounts.entries
  accounts : R.charges.map (·.account) = h.done ++ if h.charged then h.stand.toList else []
  fees : ∀ w ∈ R.charges, w.written = w.before - fee w.before h.rate
  bank : s.balance = R.bank + (R.charges.map fun w => w.before - w.written).sum + h.owed
  balances : ∀ r, (s.account r).balance = R.opening r + ((R.on r).map fun w => w.written - w.read).sum

/-- The record beside the fee collector's two views. -/
structure Beside (s : Shared) (R : Record) (g : View) (h : Pass) : Prop where
  pass : g.phase .account_list = .reading → Charged s R h
  stands : ∀ done it, g.pass = some (done,it) → h.done = done.map (·.2) ∧ h.stand = it.map (·.2)
  read : ∀ r b, h.read = some (r,b) → ∃ a, g.cell r = some (b,a)
  bank : ∀ x, h.bank = some x → ∃ a, g.bank = some (x,a)
/-- What ties the record to the state and to the views. -/
structure Inv (s : Shared) (R : Record) (V : Tid → View) (W : Tid → Pass) : Prop where
  reads : ∀ t r c a, (V t).cell r = some (c,a) → R.read t r = c
  atomic : ∀ w ∈ R.writes, w.before = w.read
  own : Beside s R (V .fee_collection) (W .fee_collection)

/-- The record's layer over the outline of the bank. -/
def layer : Layer Tid Shared Record Act Res Ctl View Pass where
  Inv := Inv
  Ok t h a := t = .fee_collection → h.Permits a
  Next t h a r h' := t = .fee_collection → h.Leads a r h'
  Loop t point h := t = .fee_collection → h.Loop point

@[simp] theorem Pass.drop_rate (h : Pass) : h.drop.rate = h.rate := rfl
@[simp] theorem Pass.drop_owed (h : Pass) : h.drop.owed = h.owed := rfl

variable {S : Setting} {s s' : Shared} {R : Record} {V : Tid → View} {W : Tid → Pass} {t : Tid} {a : Act} {x : Res a} {g g' : View}
  {h h' : Pass} {α : Type}

/-! ### The collector's code -/

theorem follows_one {a : Act} {Q : Res a → Pass → Prop} (permits : h.Permits a) (next : ∀ x h', h.Leads a x h' → Q x h') :
    layer.outline.Follows .fee_collection (.call a) h Q :=
  (follows_call a Q).mpr ⟨fun _ => permits,fun x h' reached => next x h' (reached rfl)⟩

/-- The other threads have nothing to do with a pass. -/
theorem follows_others {p : Code α} {Q : α → Pass → Prop} (other : t ≠ .fee_collection) (rest : ∀ value h', Q value h') :
    layer.outline.Follows t p h Q := by
  induction p generalizing h with
  | ret value => exact rest value h
  | act a next ih => exact ⟨fun same => absurd same other,fun r h' _ => ih r⟩

/-- Both ways through the list's locks end with the read mutex given back. -/
theorem follows_lock_for_read {Q : Unit → Pass → Prop} (next : Q () (.fresh h.rate)) :
    layer.outline.Follows .fee_collection (lock_for_read .account_list) h Q := by
  refine follows_then (follows_one trivial ?_)
  rintro _ _ rfl
  refine follows_then (follows_one trivial ?_)
  rintro (n : Int) _ rfl
  refine follows_then (follows_one trivial ?_)
  rintro _ _ rfl
  refine follows_then (follows_one trivial ?_)
  rintro (m : Int) _ rfl
  by_cases one : m = 1
  · rw [if_pos one]
    refine follows_then (follows_one trivial ?_)
    rintro _ _ rfl
    refine follows_one trivial ?_
    rintro _ _ rfl
    exact next
  · rw [if_neg one]
    refine follows_one trivial ?_
    rintro _ _ rfl
    exact next
theorem follows_unlock_from_read {Q : Unit → Pass → Prop} (next : Q () (.fresh h.rate)) :
    layer.outline.Follows .fee_collection (unlock_from_read .account_list) h Q := by
  refine follows_then (follows_one trivial ?_)
  rintro _ _ rfl
  refine follows_then (follows_one trivial ?_)
  rintro (n : Int) _ rfl
  refine follows_then (follows_one trivial ?_)
  rintro _ _ rfl
  refine follows_then (follows_one trivial ?_)
  rintro (m : Int) _ rfl
  by_cases none : m = 0
  · rw [if_pos none]
    refine follows_then (follows_one trivial ?_)
    rintro _ _ rfl
    refine follows_one trivial ?_
    rintro _ _ rfl
    exact next
  · rw [if_neg none]
    refine follows_one trivial ?_
    rintro _ _ rfl
    exact next

theorem follows_fee_collection (looped : h.Loop .fee_collection) :
    layer.outline.Follows .fee_collection fee_collection h fun point h' => h'.Loop point := by
  obtain ⟨done,stand,owed,charged⟩ := looped
  refine follows_then (follows_one trivial ?_)
  rintro (flag : Bool) _ rfl
  cases flag with
  | false =>
    refine follows_then (follows_one trivial ?_)
    rintro _ _ rfl
    trivial
  | true =>
    rw [if_pos rfl]
    refine follows_then (follows_one ⟨done,charged⟩ ?_)
    rintro (rand : Nat) _ rfl
    refine follows_then (follows_lock_for_read ?_)
    refine follows_then (follows_one ⟨rfl,rfl,rfl⟩ ?_)
    rintro it _ rfl
    exact ⟨rfl,rfl,rfl,rfl⟩

theorem follows_charge_accounts {rate : Nat} {it : Option (Int × Ref)} (looped : h.Loop (.charge_accounts rate it)) :
    layer.outline.Follows .fee_collection (charge_accounts rate it) h fun point h' => h'.Loop point := by
  obtain ⟨rfl,stand,owed,charged⟩ := looped
  cases it with
  | none =>
    refine follows_then (follows_unlock_from_read ?_)
    exact ⟨rfl,rfl,rfl,rfl⟩
  | some e =>
    obtain ⟨key,r⟩ := e
    refine follows_then (follows_one trivial ?_)
    rintro _ _ rfl
    refine follows_then (follows_one trivial ?_)
    rintro (b : Int) _ ⟨_,rfl⟩
    refine follows_then (follows_one trivial ?_)
    rintro (bank : Int) _ rfl
    refine follows_then (follows_one ⟨r,b,bank,rfl,rfl,owed,rfl⟩ ?_)
    rintro _ _ ⟨_,read,rfl⟩
    cases read
    refine follows_then (follows_one trivial ?_)
    rintro (b' : Int) _ ⟨same,rfl⟩
    obtain rfl := same b rfl
    refine follows_then (follows_one ⟨stand,charged,b',rfl,by simp [Pass.drop,owed],rfl⟩ ?_)
    rintro _ _ rfl
    refine follows_then (follows_one trivial ?_)
    rintro _ _ rfl
    refine follows_then (follows_one trivial ?_)
    rintro (id : Int) _ rfl
    refine follows_then (follows_one trivial ?_)
    rintro _ _ rfl
    refine follows_then (follows_one trivial ?_)
    rintro _ _ rfl
    refine follows_then (follows_one trivial ?_)
    rintro _ _ rfl
    refine follows_then (follows_one rfl ?_)
    rintro it _ rfl
    exact ⟨by simp only [Pass.drop_rate],rfl,by simp only [Pass.drop_owed],rfl⟩

theorem round_follows {n : Nat} {point : Ctl} {p : Code Ctl} (looped : layer.Loop t point h) (started : rounds n t point = some p) :
    layer.outline.Follows t p h (layer.Loop t) := by
  by_cases fee : t = .fee_collection
  · subst fee
    have looped := looped rfl
    refine follows_mono (Q := fun point h' => h'.Loop point) (fun _ _ here _ => here) ?_
    cases point <;> simp only [Pass.Loop,rounds,Option.some.injEq,reduceCtorEq] at looped started <;> subst started
    case fee_collection => exact follows_fee_collection looped
    case charge_accounts => exact follows_charge_accounts looped
  · exact follows_others fee fun _ _ same => absurd same fee

/-! ### What an operation changes -/

/-- The entries of the list and all balances are as they were. -/
structure Untouched (s s' : Shared) : Prop where
  entries : s'.map_of_accounts.entries = s.map_of_accounts.entries
  bank : s'.balance = s.balance
  balances : ∀ r, (s'.account r).balance = (s.account r).balance

/-- Outside of the list's write lock only the balances change. -/
theorem untouched {Γ : Ghost} (sees : Sees S s Γ t g) (ok : Views.Ok S t g a) (ran : run t a s = some (x,s')) :
    g.phase .account_list = .writing ∨ (∃ r v, a = .set_balance r v) ∨ (∃ v, a = .set_bank_balance v) ∨ Untouched s s' := by
  have settled : ∀ {change}, change ≠ .none → g.change = change → g.phase .account_list = .writing := by
    intro change underway is
    rcases sees.change with none | ⟨_,writes,_⟩
    · exact absurd (is ▸ none) underway
    · exact writes
  rcases run_money ran with written | banked | ⟨id,v,pw,rfl⟩ | ⟨⟨balances,bank⟩,⟨id,r,rfl⟩ | ⟨id,rfl⟩ | list⟩
  · exact .inr (.inl written)
  · exact .inr (.inr (.inl banked))
  · exact .inl ok.2.1
  · obtain ⟨⟨pw,balance,is⟩,_⟩ := ok
    exact .inl (settled (by simp) is)
  · obtain ⟨r,is⟩ := ok
    exact .inl (settled (by simp) is)
  · exact .inr (.inr (.inr ⟨congrArg OrdMap.entries list,bank,balances⟩))

/-- Where a view comes from: the way into the list, the iteration and the balances. -/
structure From (a : Act) (g g' : View) : Prop where
  reading : g'.phase .account_list = .reading → g.phase .account_list = .reading ∨ a = .unlock (.lock_read .account_list)
  pass : ∀ y, g'.pass = some y → g.pass = some y ∨ a = .first ∨ ∃ key, a = .after key
  cell : ∀ r c b, g'.cell r = some (c,b) → (∃ b', g.cell r = some (c,b')) ∨ a = .balance r ∨ ∃ v, a = .set_balance r v

theorem From.same (phase : g'.phase = g.phase) (pass : g'.pass = g.pass ∨ g'.pass = none) (cell : g'.cell = g.cell) : From a g g' where
  reading reads := .inl (by rwa [phase] at reads)
  pass y is := by
    rcases pass with same | none
    · exact .inl (same ▸ is)
    · rw [none] at is; cases is
  cell r c b known := .inl ⟨b,by rwa [cell] at known⟩

theorem From.move {l : RwId} {m : Move} (own : m = .unlockRead → l = .account_list → a = .unlock (.lock_read .account_list)) :
    From a g (g.move l m) where
  reading := by
    intro reads
    rw [BankMoves.move_frame.1] at reads
    cases l with
    | account r => exact .inl (by simpa using reads)
    | account_list =>
      simp only [Function.update_self] at reads
      cases m with
      | unlockRead => exact .inr (own rfl rfl)
      | _ => left; revert reads; cases g.phase .account_list <;> simp [Phase.next]
  pass y is := by
    unfold View.move at is
    dsimp only at is
    split at is
    · cases l with
      | account_list => simp [View.forget] at is
      | account r => exact .inl is
    · exact .inl is
  cell r c b known := by
    unfold View.move at known
    dsimp only at known
    split at known
    · cases l with
      | account_list => simp [View.forget] at known
      | account q =>
        by_cases same : r = q
        · subst same; simp [View.forget] at known
        · exact .inl ⟨b,by simpa [View.forget,View.put,same] using known⟩
    · exact .inl ⟨b,known⟩

theorem next_from (reached : Views.Next S g a x g') : From a g g' := by
  cases a with
  | lock m =>
    cases m with
    | lock_read l => obtain rfl := reached; exact .move (by simp)
    | lock_write l => obtain ⟨_,rfl⟩ := reached; exact .move (by simp)
    | _ => obtain rfl := reached; exact .same rfl (.inl rfl) rfl
  | unlock m =>
    cases m with
    | lock_read l => obtain rfl := reached; exact .move (by simp)
    | lock_write l => obtain rfl := reached; exact .move (by simp)
    | _ => obtain rfl := reached; exact .same rfl (.inl rfl) rfl
  | set_readers l n => obtain rfl := reached; exact .move (by simp)
  | balance q =>
    obtain ⟨_,⟨_,_,rfl⟩ | ⟨_,rfl⟩⟩ := reached
    · exact .same rfl (.inl rfl) rfl
    · refine ⟨.inl,fun _ => .inl,fun r c b known => ?_⟩
      by_cases same : r = q
      · subst same; exact .inr (.inl rfl)
      · exact .inl ⟨b,by simpa [same] using known⟩
  | set_balance q v =>
    obtain ⟨_,_,_,rfl⟩ := reached
    refine ⟨.inl,fun _ => .inl,fun r c b known => ?_⟩
    by_cases same : r = q
    · subst same; exact .inr (.inr ⟨v,rfl⟩)
    · exact .inl ⟨b,by simpa [same] using known⟩
  | log line =>
    obtain rfl := reached
    refine ⟨.inl,fun _ => .inl,fun r c b known => ?_⟩
    obtain ⟨y,had,same⟩ := Option.map_eq_some_iff.mp known
    cases same
    exact .inl ⟨y.2,had⟩
  | first => obtain rfl := reached; exact ⟨.inl,fun _ _ => .inr (.inl rfl),fun r c b known => .inl ⟨b,known⟩⟩
  | after key =>
    obtain ⟨_,_,_,rfl⟩ := reached
    exact ⟨.inl,fun _ _ => .inr (.inr ⟨key,rfl⟩),fun r c b known => .inl ⟨b,known⟩⟩
  | readers l => obtain ⟨rfl,_⟩ := reached; exact .same rfl (.inl rfl) rfl
  | find id => obtain ⟨rfl,_⟩ := reached; exact .same rfl (.inl rfl) rfl
  | insert id q => obtain ⟨_,_,_,_,_,rfl⟩ := reached; exact .same rfl (.inr rfl) rfl
  | set_deleted q => obtain ⟨_,_,rfl⟩ := reached; exact .same rfl (.inl rfl) rfl
  | erase id => obtain ⟨_,_,rfl⟩ := reached; exact .same rfl (.inr rfl) rfl
  | id q | deleted q => obtain ⟨rfl,_⟩ := reached; exact .same rfl (.inl rfl) rfl
  | bank_balance => obtain ⟨_,⟨_,_,rfl⟩ | ⟨_,rfl⟩⟩ := reached <;> exact .same rfl (.inl rfl) rfl
  | set_bank_balance v => obtain ⟨_,_,_,rfl⟩ := reached; exact .same rfl (.inl rfl) rfl
  | print output =>
    cases output with
    | row id balance pw => obtain ⟨_,_,_,_,_,_,rfl⟩ := reached; exact .same rfl (.inl rfl) rfl
    | _ => obtain rfl := reached; exact .same rfl (.inl rfl) rfl
  | _ => obtain rfl := reached; exact .same rfl (.inl rfl) rfl

/-! ### What is recorded -/

theorem saw_read {u : Tid} {r q : Ref} {v : Int} : (R.saw t r v).read u q = if u = t ∧ q = r then v else R.read u q := by
  by_cases same : u = t
  · subst same
    by_cases here : q = r
    · subst here; simp [Record.saw]
    · simp [Record.saw,here]
  · simp [Record.saw,same]

/-- Since the start of a pass the record only grows by the writes. -/
theorem note_writes (still : ∀ r v, a ≠ .set_balance r v) (unlocks : t = .fee_collection → a ≠ .unlock (.lock_read .account_list)) :
    ∃ read, note t a x s R = { R with read := read } := by
  cases a with
  | balance r => exact ⟨_,rfl⟩
  | set_balance r v => exact absurd rfl (still r v)
  | unlock m =>
    cases m with
    | lock_read l =>
      cases l with
      | account_list => exact ⟨R.read,if_neg fun fee => unlocks fee rfl⟩
      | account r => exact ⟨R.read,rfl⟩
    | _ => exact ⟨R.read,rfl⟩
  | _ => exact ⟨R.read,rfl⟩

/-- What a thread saw is recorded as long as it neither reads nor writes there again. -/
theorem note_read {u : Tid} {r : Ref} (elsewhere : u ≠ t ∨ a ≠ .balance r ∧ ∀ v, a ≠ .set_balance r v) :
    (note t a x s R).read u r = R.read u r := by
  cases a with
  | balance q =>
    refine saw_read.trans (if_neg ?_)
    rintro ⟨same,rfl⟩
    exact elsewhere.elim (fun other => other same) fun others => others.1 rfl
  | set_balance q v =>
    refine saw_read.trans (if_neg ?_)
    rintro ⟨same,rfl⟩
    exact elsewhere.elim (fun other => other same) fun others => others.2 v rfl
  | unlock m =>
    cases m with
    | lock_read l =>
      cases l with
      | account_list => by_cases fee : t = .fee_collection <;> simp [note,fee,Record.start]
      | account q => rfl
    | _ => rfl
  | _ => rfl

/-- What a thread knows of a balance is what it last read or wrote there. -/
theorem reads_kept (before : ∀ r c b, g.cell r = some (c,b) → R.read t r = c) (reached : Views.Next S g a x g') :
    ∀ r c b, g'.cell r = some (c,b) → (note t a x s R).read t r = c := by
  intro r c b known
  by_cases reads : a = .balance r
  · subst reads
    obtain ⟨_,⟨b',had,rfl⟩ | ⟨_,rfl⟩⟩ := reached
    · rw [had] at known; cases known; simp [note,saw_read]
    · simp only [Function.update_self] at known; cases known; simp [note,saw_read]
  by_cases writes : ∃ v, a = .set_balance r v
  · obtain ⟨v,rfl⟩ := writes
    obtain ⟨_,_,_,rfl⟩ := reached
    simp only [Function.update_self] at known
    cases known
    simp [note,saw_read]
  · obtain ⟨b',had⟩ := ((next_from reached).cell r c b known).resolve_right fun own => own.elim reads writes
    rw [note_read (.inr ⟨reads,fun v own => writes ⟨v,own⟩⟩)]
    exact before r c b' had

/-- A thread writes a balance that it has read, and that nobody has written since. -/
theorem write_atomic {Γ : Ghost} {r : Ref} {v : Int} (sees : Sees S s Γ t g) (reads : ∀ r c a, g.cell r = some (c,a) → R.read t r = c)
    (ok : Views.Ok S t g (.set_balance r v)) : (s.account r).balance = R.read t r := by
  obtain ⟨_,_,_,_,⟨c,a,known⟩,_⟩ := ok
  rw [(sees.cell r c a known).2.2.1,reads r c a known]

theorem atomic_kept {Γ : Ghost} (sees : Sees S s Γ t g) (reads : ∀ r c a, g.cell r = some (c,a) → R.read t r = c)
    (atomic : ∀ w ∈ R.writes, w.before = w.read) (ok : Views.Ok S t g a) :
    ∀ w ∈ (note t a x s R).writes, w.before = w.read := by
  by_cases writes : ∃ r v, a = .set_balance r v
  · obtain ⟨r,v,rfl⟩ := writes
    intro w member
    rcases List.mem_append.mp member with before | last
    · exact atomic w before
    · obtain rfl := List.mem_singleton.mp last
      exact write_atomic sees reads ok
  by_cases starts : t = .fee_collection ∧ a = .unlock (.lock_read .account_list)
  · obtain ⟨rfl,rfl⟩ := starts
    intro w member
    exact absurd member List.not_mem_nil
  · obtain ⟨read,same⟩ := note_writes (a := a) (x := x) (s := s) (R := R) (fun r v own => writes ⟨r,v,own⟩) fun fee own => starts ⟨fee,own⟩
    rw [same]
    exact atomic

/-! ### What becomes of a pass -/

theorem Charged.still (charged : Charged s R h) (same : Untouched s s') (read : Tid → Ref → Int) : Charged s' { R with read := read } h :=
  ⟨charged.entries.trans same.entries.symm,charged.accounts,charged.fees,same.bank.trans charged.bank,
    fun r => (same.balances r).trans (charged.balances r)⟩
theorem charged_start {rate : Nat} : Charged s (R.start s) (.fresh rate) :=
  ⟨rfl,rfl,fun _ member => absurd member List.not_mem_nil,by simp [Record.start,Record.charges,Pass.fresh],
    fun r => by simp [Record.start,Record.on]⟩
/-- What the fee collector relies on is no part of what it has done. -/
theorem Charged.relying (charged : Charged s R h) (read : Option (Ref × Int)) (bank : Option Int) :
    Charged s R { h with read := read, bank := bank } :=
  ⟨charged.entries,charged.accounts,charged.fees,charged.bank,charged.balances⟩
/-- Before the first charge the rate and the iterator are free. -/
theorem Charged.begin (charged : Charged s R h) (done : h.done = []) (uncharged : h.charged = false) (rate : Nat)
    (stand : Option Ref) : Charged s R { h with rate := rate, stand := stand } := by
  have accounts := charged.accounts
  rw [done,uncharged] at accounts
  have none : R.charges = [] := List.map_eq_nil_iff.mp accounts
  refine ⟨charged.entries,?_,?_,charged.bank,charged.balances⟩
  · simpa [done,uncharged] using none
  · intro w member
    rw [none] at member
    cases member

theorem sum_on {ws : List Write} {w : Write} {r : Ref} :
    (((ws ++ [w]).filter fun w => w.account = r).map fun w => w.written - w.read).sum =
      ((ws.filter fun w => w.account = r).map fun w => w.written - w.read).sum + if w.account = r then w.written - w.read else 0 := by
  by_cases here : w.account = r <;> simp [List.filter_append,here]

/-- A write of a balance counts for its account. -/
theorem balances_write {r : Ref} {v : Int} (charged : Charged s R h) (atomic : (s.account r).balance = R.read t r) (q : Ref) :
    ((Function.update s.account r { s.account r with balance := v } : Ref → Account) q).balance =
      R.opening q + (((R.wrote t r (s.account r).balance v).on q).map fun w => w.written - w.read).sum := by
  have before := charged.balances q
  rw [Record.on,Record.wrote,sum_on]
  by_cases here : q = r
  · subst here
    simp only [Function.update_self,if_true]
    rw [Record.on] at before
    omega
  · simp only [Function.update_of_ne here,if_neg (Ne.symm here),add_zero]
    exact before

/-- Another thread writes a balance during a pass. -/
theorem Charged.write {r : Ref} {v : Int} (charged : Charged s R h) (other : t ≠ .fee_collection)
    (atomic : (s.account r).balance = R.read t r) :
    Charged { s with account := Function.update s.account r { s.account r with balance := v } }
      ((R.wrote t r (s.account r).balance v).saw t r v) h := by
  have same : (R.wrote t r (s.account r).balance v).charges = R.charges := by
    simp [Record.charges,Record.wrote,List.filter_append,other]
  exact ⟨charged.entries,same ▸ charged.accounts,same ▸ charged.fees,same ▸ charged.bank,balances_write charged atomic⟩

/-- The fee collector charges the account that it stands at. -/
theorem Charged.charge {r : Ref} {v : Int} (charged : Charged s R h) (stand : h.stand = some r) (uncharged : h.charged = false)
    (atomic : (s.account r).balance = R.read .fee_collection r) (owed : h.owed = fee (s.account r).balance h.rate)
    (value : v = (s.account r).balance - fee (s.account r).balance h.rate) :
    Charged { s with account := Function.update s.account r { s.account r with balance := v } }
      ((R.wrote .fee_collection r (s.account r).balance v).saw .fee_collection r v) { h.drop with owed := 0, charged := true } := by
  have more : ((R.wrote .fee_collection r (s.account r).balance v).saw .fee_collection r v).charges =
      R.charges ++ [⟨.fee_collection,r,(s.account r).balance,R.read .fee_collection r,v⟩] := by
    simp [Record.charges,Record.wrote,Record.saw,List.filter_append]
  have accounts := charged.accounts
  have bank := charged.bank
  refine ⟨charged.entries,?_,?_,?_,balances_write charged atomic⟩
  · rw [uncharged] at accounts
    rw [more]
    simp [accounts,stand,Pass.drop]
  · intro w member
    rw [more] at member
    rcases List.mem_append.mp member with before | last
    · exact charged.fees w before
    · obtain rfl := List.mem_singleton.mp last
      exact value
  · rw [more]
    simp only [List.map_append,List.map_cons,List.map_nil,List.sum_append,List.sum_cons,List.sum_nil,Record.wrote,Record.saw]
    omega

/-! ### Every operation keeps the record in order -/

/-- During a pass the collector's own operations on the locks, the log and the flags
    change nothing, and it relies on no balance after them. -/
theorem Beside.drop (beside : Beside s R g h) (same : g.phase .account_list = .reading → Untouched s s')
    (reached : From a g g') (inside : a ≠ .unlock (.lock_read .account_list)) (stays : a ≠ .first ∧ ∀ key, a ≠ .after key)
    (read : Tid → Ref → Int) : Beside s' { R with read := read } g' h.drop where
  pass reads := by
    have reads := (reached.reading reads).resolve_right inside
    exact ((beside.pass reads).still (same reads) read).relying none none
  stands done it is :=
    beside.stands done it ((reached.pass _ is).resolve_right fun moves => moves.elim stays.1 fun own => own.elim stays.2)
  read _ _ known := by cases known
  bank _ known := by cases known

/-- Whose pass is under way finds the list as it was, whoever does something. -/
theorem still_reading {Γ : Ghost} (G : Global S s Γ V) (L : ∀ t, Holds s t (V t) ∧ Sees S s Γ t (V t)) (ok : Views.Ok S t (V t) a)
    (ran : run t a s = some (x,s')) (reads : (V .fee_collection).phase .account_list = .reading) :
    (∃ r v, a = .set_balance r v) ∨ (t = .fee_collection ∧ ∃ v, a = .set_bank_balance v) ∨ Untouched s s' := by
  rcases untouched (L t).2 ok ran with writes | balance | ⟨v,rfl⟩ | same
  · have mine := writer_alone G (fun t => (L t).1) writes (held_of_reading reads)
    rw [mine,writes] at reads
    cases reads
  · exact .inl balance
  · exact .inr (.inl ⟨ok.1,v,rfl⟩)
  · exact .inr (.inr same)

theorem act_others {Γ : Ghost} (G : Global S s Γ V) (L : ∀ t, Holds s t (V t) ∧ Sees S s Γ t (V t)) (tie : Inv s R V W)
    (ok : Views.Ok S t (V t) a) (ran : run t a s = some (x,s')) (other : t ≠ .fee_collection) :
    Beside s' (note t a x s R) (V .fee_collection) (W .fee_collection) := by
  refine { tie.own with pass := fun reads => ?_ }
  have charged := tie.own.pass reads
  by_cases writes : ∃ r v, a = .set_balance r v
  · obtain ⟨r,v,rfl⟩ := writes
    cases ran
    exact charged.write other (write_atomic (L t).2 (tie.reads t) ok)
  · obtain ⟨read,recorded⟩ := note_writes (t := t) (a := a) (x := x) (s := s) (R := R)
      (fun r v own => writes ⟨r,v,own⟩) fun fee => absurd fee other
    rw [recorded]
    rcases (still_reading G L ok ran reads).resolve_left writes with ⟨fee,_⟩ | same
    · exact absurd fee other
    · exact charged.still same read

theorem act_fee {Γ : Ghost} (G : Global S s Γ V) (L : ∀ t, Holds s t (V t) ∧ Sees S s Γ t (V t)) (tie : Inv s R V W)
    (ok : Views.Ok S .fee_collection (V .fee_collection) a) (permits : (W .fee_collection).Permits a)
    (ran : run .fee_collection a s = some (x,s')) (reached : Views.Next S (V .fee_collection) a x g) :
    ∃ h, (W .fee_collection).Leads a x h ∧ Beside s' (note .fee_collection a x s R) g h := by
  have own := tie.own
  have sees := (L .fee_collection).2
  generalize W .fee_collection = h at *
  have come := next_from reached
  have other : a ≠ .unlock (.lock_read .account_list) → (a ≠ .first ∧ ∀ key, a ≠ .after key) → (∀ r v, a ≠ .set_balance r v) →
      (∀ v, a ≠ .set_bank_balance v) → Beside s' (note .fee_collection a x s R) g h.drop := by
    intro inside stays unwritten unbanked
    obtain ⟨read,recorded⟩ := note_writes (t := .fee_collection) (a := a) (x := x) (s := s) (R := R) unwritten fun _ => inside
    rw [recorded]
    refine own.drop (fun reads => ?_) come inside stays read
    rcases still_reading G L ok ran reads with ⟨r,v,is⟩ | ⟨_,v,is⟩ | same
    · exact absurd is (unwritten r v)
    · exact absurd is (unbanked v)
    · exact same
  cases a with
  | rand =>
    obtain ⟨done,uncharged⟩ := permits
    have dropped := other (by simp) (by simp) (by simp) (by simp)
    exact ⟨_,rfl,{ dropped with pass := fun reads => (dropped.pass reads).begin done uncharged _ _ }⟩
  | first =>
    obtain ⟨done,stand,uncharged⟩ := permits
    obtain rfl := reached
    cases ran
    refine ⟨_,rfl,fun reads => ?_,?_,by simp [Pass.drop],by simp [Pass.drop]⟩
    · exact ((own.pass reads).relying none none).begin done uncharged _ _
    · rintro _ it is
      cases is
      exact ⟨done,rfl⟩
  | after key =>
    obtain ⟨passed,r,was,rfl⟩ := reached
    obtain ⟨done,stand⟩ := own.stands passed _ was
    cases ran
    refine ⟨_,rfl,fun reads => ?_,?_,by simp [Pass.drop],by simp [Pass.drop]⟩
    · have charged := own.pass reads
      have accounts := charged.accounts
      rw [show h.charged = true from permits] at accounts
      exact ⟨charged.entries,by simpa [note,Pass.drop] using accounts,charged.fees,charged.bank,charged.balances⟩
    · rintro _ it is
      cases is
      simp [done,stand]
  | balance r =>
    have dropped := other (by simp) (by simp) (by simp) (by simp)
    cases ran
    refine ⟨_,⟨fun b known => ?_,rfl⟩,fun reads => (dropped.pass reads).relying _ _,dropped.stands,?_,?_⟩
    · obtain ⟨a,had⟩ := own.read r b known
      exact (sees.cell r b a had).2.2.1
    · rintro q b known
      cases known
      obtain ⟨_,⟨a,had,rfl⟩ | ⟨_,rfl⟩⟩ := reached
      · exact ⟨a,had⟩
      · exact ⟨(s.account r).balance,by simp⟩
    · intro y known
      obtain ⟨_,⟨_,_,rfl⟩ | ⟨_,rfl⟩⟩ := reached <;> exact own.bank y known
  | bank_balance =>
    have dropped := other (by simp) (by simp) (by simp) (by simp)
    cases ran
    refine ⟨_,rfl,fun reads => (dropped.pass reads).relying _ _,dropped.stands,?_,?_⟩
    · intro q b known
      obtain ⟨_,⟨_,_,rfl⟩ | ⟨_,rfl⟩⟩ := reached <;> exact own.read q b known
    · intro y known
      cases known
      obtain ⟨_,⟨a,had,rfl⟩ | ⟨_,rfl⟩⟩ := reached
      · exact ⟨a,had⟩
      · exact ⟨s.balance,rfl⟩
  | set_bank_balance v =>
    obtain ⟨r,b,y,read,bank,owed,rfl⟩ := permits
    obtain ⟨a,had⟩ := own.bank y bank
    have is : s.balance = y := (sees.bank y a had).1
    obtain ⟨_,_,_,rfl⟩ := reached
    cases ran
    refine ⟨_,⟨y,bank,rfl⟩,fun reads => ?_,own.stands,own.read,by simp⟩
    have charged := own.pass reads
    have total := charged.bank
    refine ⟨charged.entries,charged.accounts,charged.fees,?_,charged.balances⟩
    simp only [note]
    omega
  | set_balance r v =>
    obtain ⟨stand,uncharged,b,read,owed,rfl⟩ := permits
    obtain ⟨a,had⟩ := own.read r b read
    have is : (s.account r).balance = b := (sees.cell r b a had).2.2.1
    have atomic := write_atomic sees (tie.reads .fee_collection) ok
    obtain ⟨_,_,_,rfl⟩ := reached
    cases ran
    subst is
    refine ⟨_,rfl,fun reads => ?_,own.stands,by simp [Pass.drop],by simp [Pass.drop]⟩
    exact (own.pass reads).charge stand uncharged atomic owed rfl
  | unlock m =>
    cases m with
    | lock_read l =>
      cases l with
      | account_list =>
        have outside : ¬ (V .fee_collection).Held := by
          rcases ok with ⟨n,is,_⟩ | is | ⟨n,is,_⟩ | is <;> simp [View.Held,Phase.inside,is]
        have unpassed : g.pass = none := by
          by_contra passing
          obtain ⟨y,is⟩ := Option.ne_none_iff_exists'.mp passing
          have was := (come.pass y is).resolve_right (by simp)
          exact outside (sees.pass y.1 y.2 was).1
        have moved : s.move .fee_collection .account_list .unlockRead = some (x,s') := ran
        obtain ⟨lock,_,same⟩ := Option.map_eq_some_iff.mp moved
        cases same
        refine ⟨_,rfl,fun _ => ?_,by simp [unpassed],by simp [Pass.fresh],by simp [Pass.fresh]⟩
        rw [show note .fee_collection (.unlock (.lock_read .account_list)) () s R = R.start s by simp [note]]
        exact charged_start
      | account r => exact ⟨_,rfl,other (by simp) (by simp) (by simp) (by simp)⟩
    | _ => exact ⟨_,rfl,other (by simp) (by simp) (by simp) (by simp)⟩
  | _ => exact ⟨_,rfl,other (by simp) (by simp) (by simp) (by simp)⟩

theorem layer_sound (S : Setting) (n : Nat) : layer.Sound (outline S) (bank n) note where
  act := by
    rintro s R V W t a x s' g ⟨Γ,G,L⟩ tie ok permits ran reached _
    have reads : ∀ u r c b, (Function.update V t g u).cell r = some (c,b) → (note t a x s R).read u r = c := by
      intro u r c b known
      by_cases same : u = t
      · subst same
        exact reads_kept (tie.reads u) reached r c b (by simpa using known)
      · rw [note_read (.inl same)]
        exact tie.reads u r c b (by simpa [same] using known)
    have atomic := atomic_kept (L t).2 (tie.reads t) tie.atomic ok (x := x)
    by_cases fee : t = .fee_collection
    · subst fee
      obtain ⟨h,leads,beside⟩ := act_fee G L tie ok (permits rfl) ran reached
      exact ⟨h,fun _ => leads,reads,atomic,by simpa using beside⟩
    · have beside := act_others G L tie ok ran fee
      exact ⟨W t,fun same => absurd same fee,reads,atomic,by simpa [Ne.symm fee] using beside⟩
  round := round_follows

/-! ### A pass at its end -/

/-- The nearest integer, and of two that are equally near the one further from zero. -/
def Nearest (x : Rat) (n : Int) : Prop := |(n : Rat) - x| ≤ 1 / 2 ∧ (|(n : Rat) - x| = 1 / 2 → |x| < |(n : Rat)|)

theorem nearest_floor {x : Rat} (sign : 0 ≤ x) : Nearest x ⌊x + 1 / 2⌋ := by
  have low := Int.floor_le (x + 1 / 2)
  have high := Int.lt_floor_add_one (x + 1 / 2)
  unfold Nearest
  generalize ((⌊x + 1 / 2⌋ : Int) : Rat) = n at low high ⊢
  have above : -(1 / 2) < n - x := by linarith only [high]
  have below : n - x ≤ 1 / 2 := by linarith only [low]
  refine ⟨abs_le.mpr ⟨above.le,below⟩,fun tie => ?_⟩
  rcases eq_or_eq_neg_of_abs_eq tie with up | down
  · rw [abs_of_nonneg sign,abs_of_nonneg (by linarith only [sign,up])]
    linarith only [up]
  · exact absurd down above.ne'
theorem Nearest.neg {x : Rat} {n : Int} (nearest : Nearest (-x) n) : Nearest x (-n) := by
  have mirrored : ((-n : Int) : Rat) - x = -((n : Rat) - -x) := by
    push_cast
    ring
  have far : |((-n : Int) : Rat)| = |(n : Rat)| := by rw [Int.cast_neg,abs_neg]
  rw [Nearest,abs_neg] at nearest
  rw [Nearest,mirrored,abs_neg,far]
  exact nearest
theorem round_nearest (x : Rat) : Nearest x (Bank.round x) := by
  unfold Bank.round
  split
  · rename_i sign
    exact nearest_floor sign
  · rename_i sign
    exact (nearest_floor (by linarith only [sign])).neg

variable {n : Nat} {files : Nat → List Command} {rand : Nat → Nat} {c : Programs.Config Tid (Shared × Record) Act Res Ctl}

/-- The outline and its layer hold in every state of the bank with its record. -/
theorem recorded_holds (recorded : Recorded n files rand c) : (under (outline (anyFiles files)) layer).Holds c := by
  refine ((layer_sound _ n).under (bank_sound _ n)).reaches ?_ recorded
  obtain ⟨V,inv,follows⟩ := initial_holds (anyFiles files) rand
  have home : ∀ t, ∃ todo, V t = .home todo := by
    intro t
    cases t with
    | atm i => exact ⟨_,(follows (.atm i)).1⟩
    | accounts_print => exact ⟨_,follows .accounts_print⟩
    | fee_collection => exact ⟨_,follows .fee_collection⟩
    | main => exact ⟨_,follows .main⟩
  obtain ⟨todo,outside⟩ := home .fee_collection
  refine ⟨fun t => (V t,.fresh 0),⟨inv,?_,by simp [attach,Record.empty],?_⟩,fun t => ?_⟩
  · intro t r b a known
    obtain ⟨todo,same⟩ := home t
    have known : (V t).cell r = some (b,a) := known
    rw [same] at known
    cases known
  · show Beside _ _ (V .fee_collection) (.fresh 0)
    rw [outside]
    constructor <;> simp [View.home,Pass.fresh]
  · refine follows_under (follows t) ?_
    rintro rfl
    exact ⟨rfl,rfl,rfl,rfl⟩

/-- A pass of the fee collector that has come to the end of the accounts has charged
    those that the list had when the collector got it, each once, at a rate from 1 to
    5; each charge is the balance at that moment times rate/100, to the nearest integer
    and from halfway away from zero; the bank has gained the charges and nothing else;
    and no write to an account is lost: each thread writes over the balance that it has
    read, so that the balances have changed by what the threads meant to change. -/
theorem pass_charges_all {rate : Nat} (recorded : Recorded n files rand c)
    (ended : (c.thread .fee_collection).prog = .ret (.charge_accounts rate none)) :
    (1 ≤ rate ∧ rate ≤ 5) ∧
      (c.shared.2.charges.map (·.account) = c.shared.2.entries.map (·.2) ∧ (c.shared.2.entries.map (·.2)).Nodup) ∧
      (∀ w ∈ c.shared.2.charges, Nearest (w.before * (rate / 100)) (w.before - w.written)) ∧
      c.shared.1.balance = c.shared.2.bank + (c.shared.2.charges.map fun w => w.before - w.written).sum ∧
      (∀ w ∈ c.shared.2.writes, w.before = w.read) ∧
      ∀ r, (c.shared.1.account r).balance = c.shared.2.opening r + ((c.shared.2.on r).map fun w => w.written - w.read).sum := by
  obtain ⟨V,⟨⟨Γ,G,L⟩,tie⟩,follows⟩ := recorded_holds recorded
  have mine := follows .fee_collection
  rw [ended,follows_ret] at mine
  obtain ⟨⟨low,high,done,passing⟩,looped⟩ := mine
  obtain ⟨rated,stand,owed,uncharged⟩ := looped rfl
  have charged := tie.own.pass passing.list
  have accounts := charged.accounts
  obtain ⟨_,rest,split,last⟩ := (L .fee_collection).2.pass done none passing.pass
  have entries : c.shared.2.entries = done := by rw [charged.entries,split,last rfl]; simp
  refine ⟨⟨low,high⟩,⟨?_,?_⟩,fun w member => ?_,?_,tie.atomic,charged.balances⟩
  · rw [uncharged,(tie.own.stands done none passing.pass).1] at accounts
    simpa [entries] using accounts
  · rw [charged.entries]
    refine OrdMap.values_nodup fun j k r one other => ?_
    rw [← (G.entries j r one).2.1,← (G.entries k r other).2.1]
  · have paid : w.before - w.written = Bank.round (w.before * ((rate : Rat) / PERCENTAGE)) := by
      rw [charged.fees w member,rated,fee]
      omega
    rw [paid]
    exact round_nearest _
  · have total := charged.bank
    rw [owed] at total
    omega

/-- ATM 1 opens two accounts, and deposits into the first after it has been charged in a pass at 3 percent. -/
def chargedFiles (i : Nat) : List Command :=
  if i = 1 then [.create_account 1 "a" 50,.create_account 2 "b" 130,.deposit_to_account 1 "a" 7] else []
def chargedSchedule : List Tid :=
  List.replicate 28 (.atm 1) ++ List.replicate 23 .fee_collection ++ List.replicate 25 (.atm 1) ++ List.replicate 13 .fee_collection
def chargedRun : Option (Programs.Config Tid (Shared × Record) Act Res Ctl) :=
  (recording (bank 1) note).runs chargedSchedule (attach (initial chargedFiles fun _ => 2) Record.empty)
theorem charged_ends : chargedRun.isSome = true := by decide

theorem pass_charges_all_two :
    (1 ≤ 3 ∧ 3 ≤ 5) ∧
      ((chargedRun.get charged_ends).shared.2.charges.map (·.account) = (chargedRun.get charged_ends).shared.2.entries.map (·.2) ∧
        ((chargedRun.get charged_ends).shared.2.entries.map (·.2)).Nodup) ∧
      (∀ w ∈ (chargedRun.get charged_ends).shared.2.charges, Nearest (w.before * ((3 : Nat) / 100)) (w.before - w.written)) ∧
      (chargedRun.get charged_ends).shared.1.balance = (chargedRun.get charged_ends).shared.2.bank +
        ((chargedRun.get charged_ends).shared.2.charges.map fun w => w.before - w.written).sum ∧
      (∀ w ∈ (chargedRun.get charged_ends).shared.2.writes, w.before = w.read) ∧
      ∀ r, ((chargedRun.get charged_ends).shared.1.account r).balance = (chargedRun.get charged_ends).shared.2.opening r +
        (((chargedRun.get charged_ends).shared.2.on r).map fun w => w.written - w.read).sum :=
  pass_charges_all ⟨chargedSchedule,(Option.some_get charged_ends).symm⟩ rfl

end StructureOfOs.FeePasses
