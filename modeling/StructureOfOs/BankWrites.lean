import StructureOfOs.BankMoves
import Mathlib.Data.List.Find

/-!
The operations that write: a new account, the four steps by which an account is
added to a map, flagged as deleted or removed from a map, the two balances, a line
of the log and a line of the screen. With the line of the log the history grows by
the event that the line reports, and the writes of its thread are accounted for.
-/
namespace StructureOfOs.BankWrites
open StructureOfOs.Programs StructureOfOs.Outlines StructureOfOs.RwLock StructureOfOs.BankState StructureOfOs.Bank
open StructureOfOs.AccountBook StructureOfOs.Views StructureOfOs.BankInvariant StructureOfOs.BankReads
open StructureOfOs.BankMoves

variable {S : Setting} {s s' : Shared} {Γ Γ' : Ghost} {V : Tid → View} {t u : Tid} {g : View}

/-! ### What a writer of the list leaves to the others -/

/-- A thread outside the account list depends on the accounts only. -/
theorem sees_away (sees : Sees S s Γ t g) (away : ¬ g.Held) (allocated : s.allocated ≤ s'.allocated)
    (accounts : ∀ r, r < s.allocated → (s'.account r).password = (s.account r).password ∧
      (s'.account r).balance = (s.account r).balance ∧ Γ'.accounted r = Γ.accounted r)
    (hist : Γ'.hist = Γ.hist) : Sees S s' Γ' t g where
  looked id it known := absurd (sees.looked id it known).1 away
  change := .inl (sees.change.resolve_right fun writes => away (held_of_writing writes.2.1))
  unsettled := sees.unsettled
  pass done it known := absurd (sees.pass done it known).1 away
  pw r p known := by
    obtain ⟨below,password⟩ := sees.pw r p known
    exact ⟨below.trans_le allocated,by rw [(accounts r below).1,password]⟩
  cell r c a known := by
    obtain ⟨below,inside,balance,accounted⟩ := sees.cell r c a known
    exact ⟨below.trans_le allocated,inside,by rw [(accounts r below).2.1,balance],
      by rw [(accounts r below).2.2,accounted]⟩
  dirty := sees.dirty
  bank c a known := by
    rcases (sees.bank c a known).2.2 with ⟨_,reads⟩ | writes
    · exact absurd (held_of_reading reads) away
    · exact absurd (held_of_writing writes) away
  bankDirty := sees.bankDirty
  shown rows known := absurd (held_of_writing (sees.shown rows known).2.1) away
  todo := by rw [hist]; exact sees.todo

/-- While the list is being written, the others are outside it. -/
theorem others_away (G : Global S s Γ V) (L : ∀ t, Holds s t (V t) ∧ Sees S s Γ t (V t))
    (writes : (V t).phase .account_list = .writing) (other : u ≠ t) : ¬ (V u).Held :=
  fun held => other (writer_alone G (fun t => (L t).1) writes held)

/-- A thread that writes the list has no unlogged balance. -/
theorem clean_of_writing (sees : Sees S s Γ t g) (writes : g.phase .account_list = .writing) :
    (∀ r, g.Clean r) ∧ g.CleanBank := by
  constructor
  · intro r c a known
    by_contra dirty
    have := (sees.dirty r c a known dirty).2.1
    rw [writes] at this; cases this
  · intro c a known
    by_contra dirty
    have := (sees.bankDirty c a known dirty).1
    rw [writes] at this; cases this

/-! ### Adding an account -/

theorem write_new_account {id balance : Int} {pw : String} (inv : Inv S s V)
    (ok : Ok S t (V t) (.new_account id balance pw)) :
    Inv S { s with account := Function.update s.account s.allocated ⟨id,balance,pw,false⟩, allocated := s.allocated + 1 }
      (Function.update V t { V t with change := .allocated s.allocated id pw balance }) := by
  obtain ⟨Γ,G,L⟩ := inv
  obtain ⟨holds,sees⟩ := L t
  obtain ⟨is,writes,settled,quiet,amount⟩ := ok
  have underway : Γ.change = .none := by rw [change_known G L (held_of_writing writes),settled]
  have keeps : Keeps (V t) { V t with change := .allocated s.allocated id pw balance } := .same rfl rfl
  have below : ∀ {key r}, s.map_of_accounts.find key = some r → r ≠ s.allocated :=
    fun found => (G.entries _ _ found).1.ne
  have old : ∀ r ∈ Γ.retired, r ≠ s.allocated := fun r member => (G.retired r member).1.ne
  refine inv_update { Γ with change := .allocated s.allocated id pw balance,
                             accounted := Function.update Γ.accounted s.allocated balance } ?_ ⟨{ holds with },?_⟩ ?_
  · refine { G with entries := ?_, done := ?_, fresh := ?_, retired := ?_, kept := ?_, every := ?_, dirty := ?_,
                    bankDirty := fun differs => bank_witness keeps.bank (G.bankDirty differs), changed := fun _ => ⟨t,by simp⟩,
                    opened := ?_, closed := ?_, solvent := ?_ }
    · intro key r found
      obtain ⟨less,named,unretired,flagged⟩ := G.entries key r found
      simp only [underway,reduceCtorEq,imp_false,Bool.not_eq_true] at flagged
      exact ⟨Nat.lt_succ_of_lt less,by simp [below found,named],unretired,by simp [below found,flagged]⟩
    · refine ⟨by simp,by simp,fun key found => ?_⟩
      exact below found rfl
    · intro r changing
      cases changing
      exact fun member => old _ member rfl
    · intro r member
      obtain ⟨less,deleted⟩ := G.retired r member
      exact ⟨Nat.lt_succ_of_lt less,by simp [old r member,deleted]⟩
    · intro key
      rw [G.kept key,underway]
      refine List.find?_congr fun r member => ?_
      have other : r ≠ s.allocated := old r (by simpa [leaving] using member)
      simp [other]
    · intro r less
      rcases Nat.lt_succ_iff_lt_or_eq.mp less with less | rfl
      · have known := G.every r less
        simp only [underway,Change.ref,reduceCtorEq,or_false] at known
        rcases known with found | retired
        · left; simpa [below found] using found
        · exact .inr (.inl retired)
      · exact .inr (.inr rfl)
    · intro r differs
      by_cases same : r = s.allocated
      · subst same; simp at differs
      · exact cell_witness (keeps.cell r) (G.dirty r (by simpa [same] using differs))
    · intro key
      rw [G.opened key,underway]
      refine Option.map_congr fun r found => ?_
      have other : r ≠ s.allocated := below found
      simp [other]
    · rw [G.closed]
      exact List.map_congr_left fun r member => by simp [old r member]
    · intro assumed
      refine ⟨fun r => ?_,(G.solvent assumed).2⟩
      by_cases same : r = s.allocated
      · subst same; simpa using amount assumed
      · simpa [same] using (G.solvent assumed).1 r
  · refine { sees with change := .inr ⟨is,writes,rfl⟩, unsettled := fun h => h.elim, pw := ?_, cell := ?_, shown := ?_ }
    · intro r p known
      obtain ⟨less,password⟩ := sees.pw r p known
      exact ⟨Nat.lt_succ_of_lt less,by simp [less.ne,password]⟩
    · intro r c a known
      obtain ⟨less,inside,balance,accounted⟩ := sees.cell r c a known
      exact ⟨Nat.lt_succ_of_lt less,inside,by simp [less.ne,balance],by simp [less.ne,accounted]⟩
    · intro rows known
      obtain ⟨is,list,screen,accounted⟩ := sees.shown rows known
      refine ⟨is,list,screen,fun x member => ?_⟩
      obtain ⟨less,accounted⟩ := accounted x member
      exact ⟨Nat.lt_succ_of_lt less,by simp [less.ne,accounted]⟩
  · intro u other
    refine ⟨{ (L u).1 with },sees_away (L u).2 (others_away G L writes other) (Nat.le_succ _) (fun r less => ?_) rfl⟩
    simp [less.ne]

/-- A thread with a change under way is an ATM that writes the list, and the change is the ghost's. -/
theorem changing_writes (L : ∀ t, Holds s t (V t) ∧ Sees S s Γ t (V t)) {k : Change}
    (changing : (V t).change = k) (some : k ≠ .none) :
    (∃ i, t = .atm i) ∧ (V t).phase .account_list = .writing ∧ Γ.change = k := by
  rcases (L t).2.change with none | ⟨is,writes,same⟩
  · rw [changing] at none; exact absurd none some
  · exact ⟨is,writes,by rw [← same,changing]⟩

theorem write_insert {id : Int} {r : Ref} (inv : Inv S s V) (ok : Ok S t (V t) (.insert id r)) :
    ∃ g, Next S (V t) (.insert id r) () g ∧
      Inv S { s with map_of_accounts := s.map_of_accounts.insert id r } (Function.update V t g) := by
  obtain ⟨Γ,G,L⟩ := inv
  obtain ⟨holds,sees⟩ := L t
  obtain ⟨⟨pw,balance,changing⟩,unlooked,_⟩ := ok
  obtain ⟨held,absent⟩ := sees.looked id none unlooked
  obtain ⟨is,writes,underway⟩ := changing_writes L changing (by simp)
  have done := G.done
  rw [underway] at done
  obtain ⟨account,less,unlisted⟩ := done
  have clean := clean_of_writing sees writes
  have keeps : Keeps (V t) { V t with change := .added r id pw balance, looked := fun _ => none, pass := none } :=
    .same rfl rfl
  have unretired : r ∉ Γ.retired := G.fresh r (by rw [underway]; rfl)
  refine ⟨_,⟨r,id,pw,balance,changing,rfl⟩,
    inv_update { Γ with change := .added r id pw balance } ?_ ⟨{ holds with },?_⟩ ?_⟩
  · refine { G with entries := ?_, done := ⟨account,OrdMap.find_insert_self absent⟩, fresh := ?_, kept := ?_, every := ?_,
                    dirty := fun q differs => cell_witness (keeps.cell q) (G.dirty q differs),
                    bankDirty := fun differs => bank_witness keeps.bank (G.bankDirty differs),
                    changed := fun _ => ⟨t,by simp⟩, opened := ?_ }
    · intro key q found
      by_cases same : key = id
      · subst same
        rw [OrdMap.find_insert_self absent] at found
        cases found
        exact ⟨less,by rw [account],unretired,by simp [account]⟩
      · rw [OrdMap.find_insert_other same] at found
        obtain ⟨below,named,unretired,flagged⟩ := G.entries key q found
        refine ⟨below,named,unretired,fun deleted => ?_⟩
        rw [underway] at flagged
        cases flagged deleted
    · intro q same
      cases same
      exact unretired
    · intro key
      rw [G.kept key,underway]
      rfl
    · intro q below
      have known := G.every q below
      rw [underway] at known
      refine known.imp_left fun found => ?_
      have other : (s.account q).id ≠ id := by
        intro same
        rw [same,absent] at found
        cases found
      rw [OrdMap.find_insert_other other]
      exact found
    · intro key
      rw [G.opened key,underway]
      congr 1
      by_cases same : key = id
      · subst same; simp [booked,absent]
      · simp [booked,same,OrdMap.find_insert_other same]
  · refine { sees with looked := by simp, change := .inr ⟨is,writes,rfl⟩, unsettled := fun _ _ => rfl, pass := by simp, dirty := ?_ }
    intro q c a known dirty
    exact absurd (clean.1 q c a known) dirty
  · intro u other
    exact ⟨{ (L u).1 with },sees_away (L u).2 (others_away G L writes other) le_rfl (fun _ _ => ⟨rfl,rfl,rfl⟩) rfl⟩

/-! ### Closing an account -/

/-- `insert` keeps the entry of an account that was closed before under the same id. -/
theorem write_insert_deleted {id : Int} {r : Ref} (inv : Inv S s V) (ok : Ok S t (V t) (.insert_deleted id r)) :
    Inv S { s with map_of_deleted_accounts := s.map_of_deleted_accounts.insert id r }
      (Function.update V t { V t with change := .kept r id }) := by
  obtain ⟨Γ,G,L⟩ := inv
  obtain ⟨holds,sees⟩ := L t
  obtain ⟨is,writes,settled,looked,_⟩ := ok
  obtain ⟨held,found⟩ := sees.looked id (some r) looked
  obtain ⟨less,named,unretired,undeleted⟩ := looked_open G L looked
  have underway : Γ.change = .none := by rw [change_known G L held,settled]
  have keeps : Keeps (V t) { V t with change := .kept r id } := .same rfl rfl
  refine inv_update { Γ with change := .kept r id } ?_ ⟨{ holds with },?_⟩ ?_
  · refine { G with entries := ?_, done := found, fresh := ?_, kept := ?_, every := ?_,
                    dirty := fun q differs => cell_witness (keeps.cell q) (G.dirty q differs),
                    bankDirty := fun differs => bank_witness keeps.bank (G.bankDirty differs),
                    changed := fun _ => ⟨t,by simp⟩, opened := ?_ }
    · intro key q found
      obtain ⟨below,named,unretired,flagged⟩ := G.entries key q found
      refine ⟨below,named,unretired,fun deleted => ?_⟩
      rw [underway] at flagged
      cases flagged deleted
    · intro q same
      cases same
      exact unretired
    · intro key
      have before := G.kept key
      rw [underway,leaving,List.append_nil] at before
      rw [leaving,List.find?_append,← before]
      by_cases same : key = id
      · subst same
        cases earlier : s.map_of_deleted_accounts.find key with
        | some q => rw [OrdMap.insert_of_some earlier,earlier]; rfl
        | none => rw [OrdMap.find_insert_self earlier]; simp [named]
      · rw [OrdMap.find_insert_other same]
        simp [named,Ne.symm same]
    · intro q below
      have known := G.every q below
      simp only [underway,Change.ref,reduceCtorEq,or_false] at known
      exact known.imp_right .inl
    · intro key
      rw [G.opened key,underway]
      rfl
  · exact { sees with change := .inr ⟨is,writes,rfl⟩, unsettled := fun h => h.elim }
  · intro u other
    exact ⟨{ (L u).1 with },sees_away (L u).2 (others_away G L writes other) le_rfl (fun _ _ => ⟨rfl,rfl,rfl⟩) rfl⟩

theorem write_set_deleted {r : Ref} (inv : Inv S s V) (ok : Ok S t (V t) (.set_deleted r)) :
    ∃ g, Next S (V t) (.set_deleted r) () g ∧
      Inv S { s with account := Function.update s.account r { s.account r with deleted := true } }
        (Function.update V t g) := by
  obtain ⟨Γ,G,L⟩ := inv
  obtain ⟨holds,sees⟩ := L t
  obtain ⟨id,changing⟩ := ok
  obtain ⟨is,writes,underway⟩ := changing_writes L changing (by simp)
  have found := G.done
  rw [underway] at found
  obtain ⟨_,named,unretired,_⟩ := G.entries id r found
  have clean := clean_of_writing sees writes
  have keeps : Keeps (V t) { V t with change := .flagged r id, looked := fun _ => none } := .same rfl rfl
  -- Only the flag changes.
  have same : ∀ q, (Function.update s.account r { s.account r with deleted := true } q).id = (s.account q).id ∧
      (Function.update s.account r { s.account r with deleted := true } q).password = (s.account q).password ∧
      (Function.update s.account r { s.account r with deleted := true } q).balance = (s.account q).balance := by
    intro q
    by_cases at_r : q = r
    · subst at_r; simp
    · simp [at_r]
  refine ⟨_,⟨id,changing,rfl⟩,inv_update { Γ with change := .flagged r id } ?_ ⟨{ holds with },?_⟩ ?_⟩
  · refine { G with entries := ?_, done := ⟨found,by simp⟩, fresh := ?_, retired := ?_, kept := ?_, every := ?_,
                    dirty := ?_, bankDirty := fun differs => bank_witness keeps.bank (G.bankDirty differs),
                    changed := fun _ => ⟨t,by simp⟩, opened := ?_, closed := ?_, solvent := ?_ }
    · intro key q listed
      obtain ⟨below,name,unretired,flagged⟩ := G.entries key q listed
      refine ⟨below,by rw [(same q).1,name],unretired,fun deleted => ?_⟩
      by_cases at_r : q = r
      · subst at_r; rw [← name,named]
      · rw [underway] at flagged
        cases flagged (by simpa [at_r] using deleted)
    · intro q same
      cases same
      exact unretired
    · intro q member
      have other : q ≠ r := by rintro rfl; exact unretired member
      simpa [other] using G.retired q member
    · intro key
      simp only [(same _).1]
      rw [G.kept key,underway]
      rfl
    · intro q below
      have known := G.every q below
      rw [underway] at known
      rw [(same q).1]
      exact known
    · intro q differs
      rw [(same q).2.2] at differs
      exact cell_witness (keeps.cell q) (G.dirty q differs)
    · intro key
      simp only [(same _).2.1]
      rw [G.opened key,underway]
      rfl
    · simp only [(same _).1,(same _).2.1,(same _).2.2]
      exact G.closed
    · intro assumed
      simp only [(same _).2.2]
      exact G.solvent assumed
  · refine { sees with looked := by simp, change := .inr ⟨is,writes,rfl⟩, unsettled := fun _ _ => rfl, pw := ?_, cell := ?_,
                       dirty := ?_ }
    · intro q p known
      simp only [(same q).2.1]
      exact sees.pw q p known
    · intro q c a known
      simp only [(same q).2.2]
      exact sees.cell q c a known
    · intro q c a known dirty
      exact absurd (clean.1 q c a known) dirty
  · intro u other
    exact ⟨{ (L u).1 with },sees_away (L u).2 (others_away G L writes other) le_rfl
      (fun q _ => ⟨(same q).2.1,(same q).2.2,rfl⟩) rfl⟩

theorem write_erase {id : Int} (inv : Inv S s V) (ok : Ok S t (V t) (.erase id)) :
    ∃ g, Next S (V t) (.erase id) () g ∧
      Inv S { s with map_of_accounts := s.map_of_accounts.erase id } (Function.update V t g) := by
  obtain ⟨Γ,G,L⟩ := inv
  obtain ⟨holds,sees⟩ := L t
  obtain ⟨r,changing⟩ := ok
  obtain ⟨is,writes,underway⟩ := changing_writes L changing (by simp)
  have done := G.done
  rw [underway] at done
  obtain ⟨found,deleted⟩ := done
  obtain ⟨less,named,unretired,_⟩ := G.entries id r found
  have clean := clean_of_writing sees writes
  have keeps : Keeps (V t) { V t with change := .erased r id, pass := none } := .same rfl rfl
  refine ⟨_,⟨r,changing,rfl⟩,inv_update { Γ with change := .erased r id } ?_ ⟨{ holds with },?_⟩ ?_⟩
  · refine { G with entries := ?_, done := ⟨OrdMap.find_erase_self,less,named,deleted⟩, fresh := ?_, kept := ?_,
                    every := ?_, dirty := fun q differs => cell_witness (keeps.cell q) (G.dirty q differs),
                    bankDirty := fun differs => bank_witness keeps.bank (G.bankDirty differs),
                    changed := fun _ => ⟨t,by simp⟩, opened := ?_ }
    · intro key q listed
      have other : key ≠ id := by
        rintro rfl
        rw [OrdMap.find_erase_self] at listed
        cases listed
      rw [OrdMap.find_erase_other other] at listed
      obtain ⟨below,name,unretired,flagged⟩ := G.entries key q listed
      refine ⟨below,name,unretired,fun deleted => ?_⟩
      rw [underway] at flagged
      cases flagged deleted
      exact absurd rfl other
    · intro q same
      cases same
      exact unretired
    · intro key
      rw [G.kept key,underway]
      rfl
    · intro q below
      have known := G.every q below
      rw [underway] at known
      rcases known with listed | known
      · by_cases same : (s.account q).id = id
        · rw [same,found] at listed
          exact .inr (.inr (by rw [← listed]; rfl))
        · left
          rw [OrdMap.find_erase_other same]
          exact listed
      · exact .inr known
    · intro key
      rw [G.opened key,underway]
      congr 1
      by_cases same : key = id
      · subst same; simp [booked,found]
      · simp [booked,same,OrdMap.find_erase_other same]
  · have unlooked := sees.unsettled (by rw [changing]; trivial)
    refine { sees with looked := ?_, change := .inr ⟨is,writes,rfl⟩, unsettled := fun _ => unlooked, pass := by simp }
    intro key it known
    rw [unlooked key] at known
    cases known
  · intro u other
    exact ⟨{ (L u).1 with },sees_away (L u).2 (others_away G L writes other) le_rfl (fun _ _ => ⟨rfl,rfl,rfl⟩) rfl⟩

end StructureOfOs.BankWrites
