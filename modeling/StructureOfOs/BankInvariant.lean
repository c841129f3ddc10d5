import StructureOfOs.Views

/-!
The invariant that ties the shared state of the bank to the views of its threads.
A ghost carries the history in the order of the log and the book it leads to. The
two account maps agree with the book but for the change that a writer of the list
has under way, and a balance agrees with the book but for the writes that a thread
inside the account has not logged yet.
-/
namespace StructureOfOs.BankInvariant
open StructureOfOs.Programs StructureOfOs.Outlines StructureOfOs.RwLock StructureOfOs.BankState StructureOfOs.Atm
open StructureOfOs.Bank StructureOfOs.AccountBook StructureOfOs.Views

/-- The events in the order of the log, the book after them, the balances that the
    log accounts for, the change of the maps under way, and the closed accounts. -/
structure Ghost where
  hist : List Event
  book : Book
  accounted : Ref → Int
  change : Change
  retired : List Ref

/-- The account that has been put among the closed ones before the log says so. -/
def leaving : Change → List Ref
  | .kept r _ | .flagged r _ | .erased r _ => [r]
  | .none | .allocated _ _ _ _ | .added _ _ _ _ => []
/-- The account that is open under an id according to the log. -/
def booked (m : OrdMap Int Ref) (id : Int) : Change → Option Ref
  | .added _ key _ _ => if id = key then none else m.find id
  | .erased r key => if id = key then some r else m.find id
  | .none | .allocated _ _ _ _ | .kept _ _ | .flagged _ _ => m.find id
/-- The open accounts are not what the log says, or no longer what they seem. -/
def Unsettled : Change → Prop
  | .added _ _ _ _ | .flagged _ _ | .erased _ _ => True
  | .none | .allocated _ _ _ _ | .kept _ _ => False
/-- What has been done for a change that is under way. -/
def Done (s : Shared) : Change → Prop
  | .none => True
  | .allocated r id pw balance =>
    s.account r = ⟨id,balance,pw,false⟩ ∧ r < s.allocated ∧ ∀ key, s.map_of_accounts.find key ≠ some r
  | .added r id pw balance => s.account r = ⟨id,balance,pw,false⟩ ∧ s.map_of_accounts.find id = some r
  | .kept r id => s.map_of_accounts.find id = some r
  | .flagged r id => s.map_of_accounts.find id = some r ∧ (s.account r).deleted = true
  | .erased r id => s.map_of_accounts.find id = none ∧ r < s.allocated ∧ (s.account r).id = id ∧
      (s.account r).deleted = true

/-- The balances in the status that is on the screen, or under way. -/
def balances (screen : List Output) : List Int :=
  screen.foldl (fun rows output => match output with
    | .header => []
    | .row _ balance _ => rows ++ [balance]
    | .bank _ => rows) []

/-- The mutexes and counters are what the view says. -/
structure Holds (s : Shared) (t : Tid) (g : View) : Prop where
  phase : ∀ l, g.phase l = (s.lock l).phase t
  transfer : g.transfer = true ↔ s.transfer_lock = some t
  logging : g.logging = true ↔ s.log_print_lock = some t
  known : ∀ l n, g.known = some (l,n) → (g.phase l).holdsRead = true ∧ (s.lock l).num_of_readers = n

/-- The data are what the view says, as long as the thread stays in its locks. -/
structure Sees (S : Setting) (s : Shared) (Γ : Ghost) (t : Tid) (g : View) : Prop where
  looked : ∀ id it, g.looked id = some it → g.Held ∧ s.map_of_accounts.find id = it
  change : g.change = .none ∨ (∃ i, t = .atm i) ∧ g.phase .account_list = .writing ∧ g.change = Γ.change
  unsettled : Unsettled g.change → ∀ id, g.looked id = none
  pass : ∀ done it, g.pass = some (done,it) → g.Held ∧
    ∃ rest, s.map_of_accounts.entries = done ++ it.toList ++ rest ∧ (it = none → rest = [])
  pw : ∀ r p, g.pw r = some p → r < s.allocated ∧ (s.account r).password = p
  cell : ∀ r c a, g.cell r = some (c,a) → r < s.allocated ∧ (g.phase (.account r)).inside = true ∧
    (s.account r).balance = c ∧ Γ.accounted r = a
  dirty : ∀ r c a, g.cell r = some (c,a) → c ≠ a → g.phase (.account r) = .writing ∧
    g.phase .account_list = .reading ∧ (∃ id, g.looked id = some (some r)) ∧ t ≠ .accounts_print ∧ t ≠ .main
  bank : ∀ c a, g.bank = some (c,a) → s.balance = c ∧ Γ.book.bank = a ∧
    (t = .fee_collection ∧ g.phase .account_list = .reading ∨ g.phase .account_list = .writing)
  bankDirty : ∀ c a, g.bank = some (c,a) → c ≠ a → g.phase .account_list = .reading ∧
    ∃ r, g.phase (.account r) = .writing
  shown : ∀ rows, g.shown = some rows → t = .accounts_print ∧ g.phase .account_list = .writing ∧
    balances s.screen = rows.map (·.2) ∧ ∀ x ∈ rows, x.1 < s.allocated ∧ Γ.accounted x.1 = x.2
  todo : ∀ i, t = .atm i → commandsOf i Γ.hist ++ g.todo = S.files i

/-- What holds of the shared state as a whole. -/
structure Global (S : Setting) (s : Shared) (Γ : Ghost) (V : Tid → View) : Prop where
  locks : ∀ l, (s.lock l).Inv
  entries : ∀ id r, s.map_of_accounts.find id = some r → r < s.allocated ∧ (s.account r).id = id ∧ r ∉ Γ.retired ∧
    ((s.account r).deleted = true → Γ.change = .flagged r id)
  done : Done s Γ.change
  fresh : ∀ r, Γ.change.ref = some r → r ∉ Γ.retired
  retired : ∀ r ∈ Γ.retired, r < s.allocated ∧ (s.account r).deleted = true
  once : Γ.retired.Nodup
  kept : ∀ id, s.map_of_deleted_accounts.find id =
    (Γ.retired ++ leaving Γ.change).find? fun r => (s.account r).id = id
  every : ∀ r, r < s.allocated → s.map_of_accounts.find (s.account r).id = some r ∨ r ∈ Γ.retired ∨
    Γ.change.ref = some r
  dirty : ∀ r, (s.account r).balance ≠ Γ.accounted r → ∃ t c a, (V t).cell r = some (c,a) ∧ c ≠ a
  bankDirty : s.balance ≠ Γ.book.bank → ∃ t c a, (V t).bank = some (c,a) ∧ c ≠ a
  changed : Γ.change ≠ .none → ∃ t, (V t).change = Γ.change
  serial : Serial Γ.hist Γ.book s.log
  opened : ∀ id, Γ.book.opened.find id =
    (booked s.map_of_accounts id Γ.change).map fun r => ((s.account r).password,Γ.accounted r)
  closed : Γ.book.closed = Γ.retired.map fun r => ((s.account r).id,(s.account r).password,(s.account r).balance)
  solvent : S.nonneg → (∀ r, 0 ≤ (s.account r).balance) ∧ 0 ≤ s.balance

/-- The invariant of the bank. -/
def Inv (S : Setting) (s : Shared) (V : Tid → View) : Prop :=
  ∃ Γ, Global S s Γ V ∧ ∀ t, Holds s t (V t) ∧ Sees S s Γ t (V t)

variable {S : Setting} {s s' : Shared} {Γ : Ghost} {V : Tid → View} {t u : Tid} {g g' : View}

/-! ### The locks and the views -/

/-- Nobody is inside the account list along with a writer. -/
theorem writer_alone (G : Global S s Γ V) (L : ∀ t, Holds s t (V t)) (writes : (V t).phase .account_list = .writing)
    (held : (V u).Held) : u = t := by
  unfold View.Held at held
  rw [(L t).phase] at writes
  rw [(L u).phase] at held
  exact (G.locks .account_list).exclusive writes held
/-- Nobody is inside an account along with a writer. -/
theorem owner_alone {r : Ref} (G : Global S s Γ V) (L : ∀ t, Holds s t (V t))
    (writes : (V t).phase (.account r) = .writing) (inside : ((V u).phase (.account r)).inside = true) : u = t := by
  rw [(L t).phase] at writes
  rw [(L u).phase] at inside
  exact (G.locks (.account r)).exclusive writes inside

theorem held_of_writing (writes : g.phase .account_list = .writing) : g.Held := by
  simp [View.Held,writes,Phase.inside]
theorem held_of_reading (reads : g.phase .account_list = .reading) : g.Held := by
  simp [View.Held,reads,Phase.inside]

/-- A thread inside the account list knows about the change under way: it is its own. -/
theorem change_known (G : Global S s Γ V) (L : ∀ t, Holds s t (V t) ∧ Sees S s Γ t (V t)) (held : (V t).Held) :
    Γ.change = (V t).change := by
  by_cases underway : Γ.change = .none
  · rcases (L t).2.change with none | ⟨_,_,same⟩
    · rw [underway,none]
    · exact same.symm
  · obtain ⟨u,theirs⟩ := G.changed underway
    rcases (L u).2.change with none | ⟨_,writes,_⟩
    · exact absurd (theirs ▸ none) underway
    · rw [writer_alone G (fun t => (L t).1) writes held]
      exact theirs.symm
/-- Who is inside an account and has not read its balance finds the one in the log. -/
theorem balance_accounted {r : Ref} (G : Global S s Γ V) (L : ∀ t, Holds s t (V t) ∧ Sees S s Γ t (V t))
    (inside : ((V t).phase (.account r)).inside = true) (unread : (V t).cell r = none) :
    (s.account r).balance = Γ.accounted r := by
  by_contra differs
  obtain ⟨u,c,a,theirs,dirty⟩ := G.dirty r differs
  obtain ⟨writes,_,_⟩ := (L u).2.dirty r c a theirs dirty
  rw [← owner_alone G (fun t => (L t).1) writes inside,unread] at theirs
  cases theirs
theorem bank_accounted (G : Global S s Γ V) (L : ∀ t, Holds s t (V t) ∧ Sees S s Γ t (V t))
    (may : t = .fee_collection ∧ (V t).phase .account_list = .reading ∨ (V t).phase .account_list = .writing)
    (unread : (V t).bank = none) : s.balance = Γ.book.bank := by
  by_contra differs
  obtain ⟨u,c,a,theirs,dirty⟩ := G.bankDirty differs
  have reads := ((L u).2.bankDirty c a theirs dirty).1
  have same : u = t := by
    rcases may with ⟨is,_⟩ | writes
    · rcases ((L u).2.bank c a theirs).2.2 with ⟨also,_⟩ | writes
      · rw [is,also]
      · rw [writes] at reads; cases reads
    · exact writer_alone G (fun t => (L t).1) writes (held_of_reading reads)
  rw [same,unread] at theirs
  cases theirs
/-- An account looked up is open, and nobody is closing it. -/
theorem looked_open {id : Int} {r : Ref} (G : Global S s Γ V) (L : ∀ t, Holds s t (V t) ∧ Sees S s Γ t (V t))
    (looked : (V t).looked id = some (some r)) :
    r < s.allocated ∧ (s.account r).id = id ∧ r ∉ Γ.retired ∧ (s.account r).deleted = false := by
  obtain ⟨held,found⟩ := (L t).2.looked id (some r) looked
  obtain ⟨below,named,unretired,flagged⟩ := G.entries id r found
  refine ⟨below,named,unretired,?_⟩
  by_contra deleted
  have underway := flagged (by simpa using deleted)
  rw [change_known G L held] at underway
  have := (L t).2.unsettled (by rw [underway]; trivial) id
  rw [this] at looked
  cases looked

/-- What is not in the log is still some thread's. -/
theorem cell_witness {r : Ref} (keeps : ∀ c a, (V t).cell r = some (c,a) → c ≠ a → g'.cell r = some (c,a))
    (theirs : ∃ u c a, (V u).cell r = some (c,a) ∧ c ≠ a) :
    ∃ u c a, (Function.update V t g' u).cell r = some (c,a) ∧ c ≠ a := by
  obtain ⟨u,c,a,known,dirty⟩ := theirs
  refine ⟨u,c,a,?_,dirty⟩
  by_cases same : u = t
  · subst same; simpa using keeps c a known dirty
  · simpa [same] using known
theorem bank_witness (keeps : ∀ c a, (V t).bank = some (c,a) → c ≠ a → g'.bank = some (c,a))
    (theirs : ∃ u c a, (V u).bank = some (c,a) ∧ c ≠ a) :
    ∃ u c a, (Function.update V t g' u).bank = some (c,a) ∧ c ≠ a := by
  obtain ⟨u,c,a,known,dirty⟩ := theirs
  refine ⟨u,c,a,?_,dirty⟩
  by_cases same : u = t
  · subst same; simpa using keeps c a known dirty
  · simpa [same] using known

/-- The view keeps the writes that are not logged yet. -/
structure Keeps (g g' : View) : Prop where
  cell : ∀ r c a, g.cell r = some (c,a) → c ≠ a → g'.cell r = some (c,a)
  bank : ∀ c a, g.bank = some (c,a) → c ≠ a → g'.bank = some (c,a)

theorem Keeps.same (cell : g'.cell = g.cell) (bank : g'.bank = g.bank) : Keeps g g' :=
  ⟨fun r c a known _ => by rw [cell,known],fun c a known _ => by rw [bank,known]⟩

theorem Global.keeps (G : Global S s Γ V) (keeps : Keeps (V t) g') (settled : g'.change = (V t).change) :
    Global S s Γ (Function.update V t g') := by
  refine { G with
    dirty := fun r differs => cell_witness (keeps.cell r) (G.dirty r differs)
    bankDirty := fun differs => bank_witness keeps.bank (G.bankDirty differs)
    changed := fun underway => ?_ }
  obtain ⟨u,theirs⟩ := G.changed underway
  refine ⟨u,?_⟩
  by_cases same : u = t
  · subst same; simpa [settled] using theirs
  · simpa [same] using theirs

/-- The invariant after a step of a thread, from what its step does to the others. -/
theorem inv_update (Γ' : Ghost) (G : Global S s' Γ' (Function.update V t g')) (mine : Holds s' t g' ∧ Sees S s' Γ' t g')
    (others : ∀ u, u ≠ t → Holds s' u (V u) ∧ Sees S s' Γ' u (V u)) : Inv S s' (Function.update V t g') := by
  refine ⟨Γ',G,fun u => ?_⟩
  by_cases same : u = t
  · subst same; simpa using mine
  · simpa [same] using others u same

theorem inv_initial (S : Setting) (rand : Nat → Nat) :
    Inv S (.initial rand) (fun t => match t with
      | .atm i => .home (S.files i)
      | _ => .home []) := by
  refine ⟨⟨[],.empty,fun _ => 0,.none,[]⟩,?_,fun t => ?_⟩
  · constructor
    case serial => exact .nil
    all_goals simp [Shared.initial,inv_fresh,Done,Change.ref,leaving,booked,Book.empty]
  · cases t <;> exact ⟨by constructor <;> simp [View.home,Shared.initial,Lock.fresh],
      by constructor <;> simp [View.home,commandsOf,Unsettled]⟩

end StructureOfOs.BankInvariant
