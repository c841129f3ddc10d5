import StructureOfOs.BankWrites

/-!
The remaining writes, of balances, of the screen and of the log, and with them the
soundness of the outline: every operation that a view permits leads to a view for
which the invariant holds again. A line of the log is where an event takes effect:
the book performs it, and what its thread has written is accounted for.
-/
namespace StructureOfOs.BankSound
open StructureOfOs.Programs StructureOfOs.Outlines StructureOfOs.RwLock StructureOfOs.BankState StructureOfOs.Bank
open StructureOfOs.AccountBook StructureOfOs.Views StructureOfOs.BankInvariant StructureOfOs.BankReads
open StructureOfOs.BankMoves StructureOfOs.BankWrites

variable {S : Setting} {s : Shared} {Γ : Ghost} {V : Tid → View} {t u : Tid} {g : View}

/-! ### Balances -/

theorem write_set_balance {r : Ref} {v : Int} (inv : Inv S s V) (ok : Ok S t (V t) (.set_balance r v)) :
    ∃ g, Next S (V t) (.set_balance r v) () g ∧
      Inv S { s with account := Function.update s.account r { s.account r with balance := v } } (Function.update V t g) := by
  obtain ⟨Γ,G,L⟩ := inv
  obtain ⟨holds,sees⟩ := L t
  obtain ⟨may,writes,reads,⟨id,looked⟩,⟨c,a,read⟩,amount⟩ := ok
  obtain ⟨less,_,unretired,_⟩ := looked_open G L looked
  obtain ⟨_,inside,_,accounted⟩ := sees.cell r c a read
  have underway : Γ.change = .none := by
    rw [change_known G L (held_of_reading reads)]
    refine sees.change.resolve_right ?_
    rintro ⟨_,also,_⟩
    rw [also] at reads; cases reads
  -- Only the balance of this account changes.
  have same : ∀ q, (Function.update s.account r { s.account r with balance := v } q).id = (s.account q).id ∧
      (Function.update s.account r { s.account r with balance := v } q).password = (s.account q).password ∧
      (Function.update s.account r { s.account r with balance := v } q).deleted = (s.account q).deleted := by
    intro q
    by_cases at_r : q = r
    · subst at_r; simp
    · simp [at_r]
  refine ⟨_,⟨c,a,read,rfl⟩,inv_update Γ ?_ ⟨{ holds with },?_⟩ ?_⟩
  · refine { G with entries := ?_, done := by rw [underway]; trivial, retired := ?_, kept := ?_, every := ?_, dirty := ?_,
                    bankDirty := ?_, changed := fun some => absurd underway some, opened := ?_, closed := ?_, solvent := ?_ }
    · intro key q found
      simp only [(same q).1,(same q).2.2]
      exact G.entries key q found
    · intro q member
      simp only [(same q).2.2]
      exact G.retired q member
    · simp only [(same _).1]; exact G.kept
    · simp only [(same _).1]; exact G.every
    · intro q differs
      by_cases at_r : q = r
      · subst at_r
        refine ⟨t,v,a,by simp,?_⟩
        simpa [accounted] using differs
      · refine cell_witness (fun c a known _ => ?_) (G.dirty q (by simpa [at_r] using differs))
        simpa [at_r] using known
    · exact fun differs => bank_witness (fun _ _ known _ => known) (G.bankDirty differs)
    · simp only [(same _).2.1]; exact G.opened
    · rw [G.closed]
      refine List.map_congr_left fun q member => ?_
      have apart : q ≠ r := by rintro rfl; exact unretired member
      simp [apart]
    · intro assumed
      refine ⟨fun q => ?_,(G.solvent assumed).2⟩
      by_cases at_r : q = r
      · subst at_r; simpa using amount assumed
      · simpa [at_r] using (G.solvent assumed).1 q
  · refine { sees with pw := ?_, cell := ?_, dirty := ?_ }
    · simp only [(same _).2.1]; exact sees.pw
    · intro q c' a' known
      by_cases at_r : q = r
      · subst at_r
        simp only [Function.update_self,Option.some.injEq,Prod.mk.injEq] at known
        obtain ⟨rfl,rfl⟩ := known
        exact ⟨less,inside,by simp,accounted⟩
      · simpa [at_r] using sees.cell q c' a' (by simpa [at_r] using known)
    · intro q c' a' known dirty
      by_cases at_r : q = r
      · subst at_r; exact ⟨writes,reads,⟨id,looked⟩,may⟩
      · exact sees.dirty q c' a' (by simpa [at_r] using known) dirty
  · intro u other
    refine ⟨{ (L u).1 with },{ (L u).2 with pw := ?_, cell := ?_ }⟩
    · simp only [(same _).2.1]; exact (L u).2.pw
    · intro q c' a' known
      have facts := (L u).2.cell q c' a' known
      have apart : q ≠ r := by
        rintro rfl
        exact other (owner_alone G (fun t => (L t).1) writes facts.2.1)
      simpa [apart] using facts

/-- Only the fee collector, inside an account, changes the bank's balance. -/
theorem write_set_bank_balance {v : Int} (inv : Inv S s V) (ok : Ok S t (V t) (.set_bank_balance v)) :
    ∃ g, Next S (V t) (.set_bank_balance v) () g ∧ Inv S { s with balance := v } (Function.update V t g) := by
  obtain ⟨Γ,G,L⟩ := inv
  obtain ⟨holds,sees⟩ := L t
  obtain ⟨is,reads,inside,⟨c,a,read⟩,amount⟩ := ok
  obtain ⟨_,accounted,_⟩ := sees.bank c a read
  refine ⟨_,⟨c,a,read,rfl⟩,inv_update Γ ?_ ⟨{ holds with },?_⟩ ?_⟩
  · refine { G with done := ?_, dirty := fun r differs => cell_witness (fun _ _ known _ => known) (G.dirty r differs),
                    bankDirty := ?_, changed := ?_, solvent := fun assumed => ⟨(G.solvent assumed).1,amount assumed⟩ }
    · have done := G.done
      cases change : Γ.change <;> rw [change] at done <;> exact done
    · intro differs
      exact ⟨t,v,a,by simp,by rw [accounted] at differs; exact differs⟩
    · intro underway
      obtain ⟨u,theirs⟩ := G.changed underway
      refine ⟨u,?_⟩
      by_cases same : u = t
      · subst same; simpa using theirs
      · simpa [same] using theirs
  · refine { sees with bank := ?_, bankDirty := ?_ }
    · rintro c' a' known
      cases known
      exact ⟨rfl,accounted,.inl ⟨is,reads⟩⟩
    · exact fun _ _ _ _ => ⟨reads,inside⟩
  · intro u other
    refine ⟨{ (L u).1 with },{ (L u).2 with bank := ?_ }⟩
    intro c' a' known
    rcases ((L u).2.bank c' a' known).2.2 with ⟨also,_⟩ | writes
    · exact absurd (also.trans is.symm) other
    · exact absurd (writer_alone G (fun t => (L t).1) writes (held_of_reading reads)) (Ne.symm other)

/-! ### The screen -/

theorem balances_snoc (screen : List Output) (output : Output) :
    balances (screen ++ [output]) = match output with
      | .header => []
      | .row _ balance _ => balances screen ++ [balance]
      | .bank _ => balances screen := by
  cases output <;> simp [balances]

theorem write_print {output : Output} (inv : Inv S s V) (ok : Ok S t (V t) (.print output)) :
    ∃ g, Next S (V t) (.print output) () g ∧ Inv S { s with screen := s.screen ++ [output] } (Function.update V t g) := by
  obtain ⟨Γ,G,L⟩ := inv
  obtain ⟨holds,sees⟩ := L t
  obtain ⟨is,writes,shows⟩ := ok
  -- The others have shown nothing, and the rest does not look at the screen.
  have others : ∀ u, u ≠ t → Holds { s with screen := s.screen ++ [output] } u (V u) ∧
      Sees S { s with screen := s.screen ++ [output] } Γ u (V u) := by
    intro u other
    refine ⟨{ (L u).1 with },{ (L u).2 with shown := fun rows known => ?_ }⟩
    exact absurd (((L u).2.shown rows known).1.trans is.symm) other
  have globally : ∀ rows, Global S { s with screen := s.screen ++ [output] } Γ
      (Function.update V t { V t with shown := rows }) := by
    intro rows
    have keeps : Keeps (V t) { V t with shown := rows } := .same rfl rfl
    have G' := G.keeps keeps rfl
    have done : Done { s with screen := s.screen ++ [output] } Γ.change := by
      have done := G.done
      cases change : Γ.change <;> rw [change] at done <;> exact done
    exact { G' with done := done }
  cases output with
  | header =>
    refine ⟨_,rfl,inv_update _ (globally _) ⟨{ holds with },{ sees with shown := ?_ }⟩ others⟩
    intro rows known
    cases known
    exact ⟨is,writes,by simp [balances_snoc],by simp⟩
  | row id balance pw =>
    obtain ⟨done,key,r,rows,passed,read,before⟩ := shows
    obtain ⟨_,_,screen,accounted⟩ := sees.shown rows before
    obtain ⟨less,_,_,account⟩ := sees.cell r balance balance read
    refine ⟨_,⟨done,key,r,rows,passed,before,rfl⟩,inv_update _ (globally _) ⟨{ holds with },{ sees with shown := ?_ }⟩ others⟩
    intro rows' known
    cases known
    refine ⟨is,writes,by simp [balances_snoc,screen],fun x member => ?_⟩
    rcases List.mem_append.mp member with earlier | last
    · exact accounted x earlier
    · rw [List.mem_singleton.mp last]
      exact ⟨less,account⟩
  | bank balance =>
    refine ⟨V t,rfl,inv_update _ (globally (V t).shown) ⟨{ holds with },{ sees with shown := ?_ }⟩ others⟩
    intro rows known
    obtain ⟨_,_,screen,accounted⟩ := sees.shown rows known
    exact ⟨is,writes,by simpa [balances_snoc] using screen,accounted⟩

/-! ### The log -/

/-- Under the account list's lock, the book agrees with what a thread knows. -/
theorem book_agrees (G : Global S s Γ V) (L : ∀ t, Holds s t (V t) ∧ Sees S s Γ t (V t)) (held : (V t).Held) :
    (V t).Agrees Γ.book := by
  have sees := (L t).2
  have underway := change_known G L held
  have settled : ∀ id it, (V t).looked id = some it → booked s.map_of_accounts id Γ.change = it := by
    intro id it looked
    have found := (sees.looked id it looked).2
    cases change : Γ.change with
    | added | erased =>
      have := sees.unsettled (by rw [← underway,change]; trivial) id
      rw [looked] at this; cases this
    | _ => exact found
  constructor
  · intro id looked
    rw [G.opened id,settled id none looked]; rfl
  · intro id r looked
    refine ⟨(s.account r).password,Γ.accounted r,by rw [G.opened id,settled id (some r) looked]; rfl,?_,?_⟩
    · exact fun q known => (sees.pw r q known).2
    · exact fun c b known => (sees.cell r c b known).2.2.2
  · intro r id pw balance added
    rw [G.opened id,underway,added]
    simp [booked]
  · intro r id erased
    refine ⟨(s.account r).password,Γ.accounted r,by rw [G.opened id,underway,erased]; simp [booked],?_,?_⟩
    · exact fun q known => (sees.pw r q known).2
    · exact fun c b known => (sees.cell r c b known).2.2.2
  · exact fun c a known => (sees.bank c a known).2.1

/-- While the list is being written, every balance is the one in the log. -/
theorem balance_settled (G : Global S s Γ V) (L : ∀ t, Holds s t (V t) ∧ Sees S s Γ t (V t))
    (writes : (V t).phase .account_list = .writing) (r : Ref) : (s.account r).balance = Γ.accounted r := by
  by_contra differs
  obtain ⟨u,c,a,theirs,dirty⟩ := G.dirty r differs
  have reads := ((L u).2.dirty r c a theirs dirty).2.1
  rw [writer_alone G (fun t => (L t).1) writes (held_of_reading reads),writes] at reads
  cases reads

/-- The ghost once the event of a thread's line is in the history. -/
def settle (Γ : Ghost) (g : View) (e : Event) (B : Book) : Ghost where
  hist := Γ.hist ++ [e]
  book := B
  accounted r := ((g.cell r).map (·.1)).getD (Γ.accounted r)
  change := .none
  retired := Γ.retired ++ leaving g.change

theorem settle_clean {e : Event} {B : Book} {r : Ref} (sees : Sees S s Γ t g) (clean : g.Clean r) :
    (settle Γ g e B).accounted r = Γ.accounted r := by
  cases read : g.cell r with
  | none => simp [settle,read]
  | some x => simp [settle,read,clean x.1 x.2 read,(sees.cell r x.1 x.2 read).2.2.2]
theorem settle_read {e : Event} {B : Book} {r : Ref} {c a : Int} (read : g.cell r = some (c,a)) :
    (settle Γ g e B).accounted r = c := by
  simp [settle,read]

/-- A line reports no change of the maps, or one that is complete. -/
theorem commits_change {B B' : Book} (commits : g.Commits B B') : g.change = .none ∨
    (∃ r id pw balance, g.change = .added r id pw balance) ∨
    ∃ r id p b, g.change = .erased r id ∧ g.pw r = some p ∧ g.cell r = some (b,b) ∧ B'.closed = B.closed ++ [(id,p,b)] := by
  have closed := commits.closed
  cases change : g.change with
  | none => exact .inl rfl
  | added r id pw balance => exact .inr (.inl ⟨r,id,pw,balance,rfl⟩)
  | erased r id =>
    rw [change] at closed
    obtain ⟨p,b,password,balance,closed⟩ := closed
    exact .inr (.inr ⟨r,id,p,b,rfl,password,balance,closed⟩)
  | allocated | kept | flagged => rw [change] at closed; exact closed.elim

/-- The entries of the book after the line are those of the map. -/
private theorem settle_opened {e : Event} {B : Book} (G : Global S s Γ V)
    (L : ∀ t, Holds s t (V t) ∧ Sees S s Γ t (V t)) (held : (V t).Held) (commits : (V t).Commits Γ.book B) (id : Int) :
    B.opened.find id = (s.map_of_accounts.find id).map fun r =>
      ((s.account r).password,(settle Γ (V t) e B).accounted r) := by
  have sees := (L t).2
  have underway := change_known G L held
  have before := G.opened id
  have done := G.done
  rw [underway] at before done
  rw [commits.opened id]
  rcases commits_change commits with change | ⟨r,key,pw,balance,change⟩ | ⟨r,key,_,_,change,_⟩
  · simp only [change,booked] at before
    simp only [View.entry,change]
    cases known : ((V t).looked id).bind fun it => it.bind (V t).cell with
    | some x =>
      obtain ⟨it,looked,read⟩ := Option.bind_eq_some_iff.mp known
      obtain ⟨r,rfl,read⟩ := Option.bind_eq_some_iff.mp read
      have found := (sees.looked id (some r) looked).2
      simp [before,found,settle_read (e := e) (B := B) read]
    | none =>
      rw [before]
      refine Option.map_congr fun r found => ?_
      rw [settle_clean (e := e) (B := B) sees]
      -- An unlogged balance is one looked up under this id.
      intro c a read
      by_contra dirty
      obtain ⟨_,_,⟨key,looked⟩,_⟩ := sees.dirty r c a read dirty
      have same : key = id := by rw [← (looked_open G L looked).2.1,(G.entries id r found).2.1]
      rw [same] at looked
      simp [looked,read] at known
  · have writes := (changing_writes L change (by simp)).2.1
    have clean := fun r => settle_clean (e := e) (B := B) sees ((clean_of_writing sees writes).1 r)
    simp only [change,booked] at before
    simp only [View.entry,change]
    rw [change] at done
    by_cases same : id = key
    · subst same
      simp [done.2,clean,← balance_settled G L writes,done.1]
    · simp [same,before,clean]
  · have writes := (changing_writes L change (by simp)).2.1
    have clean := fun r => settle_clean (e := e) (B := B) sees ((clean_of_writing sees writes).1 r)
    simp only [change,booked] at before
    simp only [View.entry,change]
    rw [change] at done
    by_cases same : id = key
    · subst same; simp [done.1]
    · simp [same,before,clean]

private theorem settle_global {e : Event} {B : Book} {line : Line} (G : Global S s Γ V)
    (L : ∀ t, Holds s t (V t) ∧ Sees S s Γ t (V t)) (held : (V t).Held) (executed : Γ.book.exec e = some (B,line))
    (commits : (V t).Commits Γ.book B) :
    Global S { s with log := s.log ++ [line] } (settle Γ (V t) e B) (Function.update V t (V t).commit) := by
  have sees := (L t).2
  have underway := change_known G L held
  have done := G.done
  rw [underway] at done
  have opened := settle_opened (e := e) G L held commits
  refine { G with entries := ?_, done := trivial, fresh := ?_, retired := ?_, once := ?_, kept := ?_, every := ?_,
                  dirty := ?_, bankDirty := ?_, changed := fun some => absurd rfl some, serial := G.serial.snoc executed,
                  opened := opened, closed := ?_ }
  · intro id r found
    obtain ⟨below,named,unretired,flagged⟩ := G.entries id r found
    rw [underway] at flagged
    rcases commits_change commits with change | ⟨q,key,_,_,change⟩ | ⟨q,key,_,_,change,_⟩
    · rw [change] at flagged
      exact ⟨below,named,by simpa [settle,change,leaving] using unretired,fun deleted => by cases flagged deleted⟩
    · rw [change] at flagged
      exact ⟨below,named,by simpa [settle,change,leaving] using unretired,fun deleted => by cases flagged deleted⟩
    · rw [change] at flagged done
      refine ⟨below,named,?_,fun deleted => by cases flagged deleted⟩
      have other : r ≠ q := by
        rintro rfl
        rw [← named,done.2.2.1,done.1] at found
        cases found
      simp [settle,change,leaving,unretired,other]
  · intro r changing
    cases changing
  · intro r member
    rcases List.mem_append.mp member with earlier | now
    · exact G.retired r earlier
    · rcases commits_change commits with change | ⟨q,key,_,_,change⟩ | ⟨q,key,_,_,change,_⟩
      · simp [change,leaving] at now
      · simp [change,leaving] at now
      · rw [change] at now done
        rw [List.mem_singleton.mp now]
        exact ⟨done.2.1,done.2.2.2⟩
  · rcases commits_change commits with change | ⟨q,key,_,_,change⟩ | ⟨q,key,_,_,change,_⟩
    · simpa [settle,change,leaving] using G.once
    · simpa [settle,change,leaving] using G.once
    · have unretired : q ∉ Γ.retired := G.fresh q (by rw [underway,change]; rfl)
      refine List.nodup_append.mpr ⟨G.once,by simp [change,leaving],fun a member b last same => ?_⟩
      simp only [change,leaving,List.mem_singleton] at last
      exact unretired (last ▸ same ▸ member)
  · intro id
    have kept := G.kept id
    rw [underway] at kept
    rw [kept]
    exact congrArg _ (List.append_nil _).symm
  · intro r below
    rcases G.every r below with found | retired | changing
    · exact .inl found
    · exact .inr (.inl (List.mem_append_left _ retired))
    · rw [underway] at changing
      rcases commits_change commits with change | ⟨q,key,_,_,change⟩ | ⟨q,key,_,_,change,_⟩
      · rw [change] at changing; cases changing
      · rw [change] at changing done
        cases changing
        exact .inl (by rw [done.1]; exact done.2)
      · rw [change] at changing
        cases changing
        exact .inr (.inl (by simp [settle,change,leaving]))
  · intro r differs
    cases read : (V t).cell r with
    | none =>
      refine cell_witness (fun c a known _ => ?_) (G.dirty r (by simpa [settle,read] using differs))
      rw [read] at known; cases known
    | some x =>
      rw [settle_read read,(sees.cell r x.1 x.2 read).2.2.1] at differs
      exact absurd rfl differs
  · intro differs
    have bank := commits.bank
    cases read : (V t).bank with
    | none =>
      rw [read] at bank
      refine bank_witness (fun c a known _ => ?_) (G.bankDirty fun same => differs (same.trans bank.symm))
      rw [read] at known; cases known
    | some x =>
      rw [read] at bank
      exact absurd ((sees.bank x.1 x.2 read).1.trans bank.symm) differs
  · have closed := commits.closed
    rcases commits_change commits with change | ⟨q,key,_,_,change⟩ | ⟨q,key,p,b,change,password,read,closed⟩
    · rw [change] at closed
      simp [settle,closed,change,leaving,G.closed]
    · rw [change] at closed
      simp [settle,closed,change,leaving,G.closed]
    · rw [change] at done
      simp [settle,closed,change,leaving,G.closed,done.2.2.1,(sees.pw q p password).2,(sees.cell q b b read).2.2.1]

/-- A line of the log: its event takes effect in the book. -/
theorem write_log {line : Line} (inv : Inv S s V) (ok : Ok S t (V t) (.log line)) :
    Inv S { s with log := s.log ++ [line] } (Function.update V t (V t).commit) := by
  obtain ⟨Γ,G,L⟩ := inv
  obtain ⟨holds,sees⟩ := L t
  obtain ⟨logging,held,e,performs,reports⟩ := ok
  obtain ⟨B,executed,commits⟩ := reports Γ.book (book_agrees G L held)
  refine inv_update (settle Γ (V t) e B) (settle_global G L held executed commits) ⟨{ holds with },?_⟩ ?_
  · refine { sees with change := .inl rfl, unsettled := fun h => h.elim, cell := ?_, dirty := ?_, bank := ?_,
                       bankDirty := ?_, shown := ?_, todo := ?_ }
    · intro r c a known
      obtain ⟨x,read,same⟩ := Option.map_eq_some_iff.mp known
      cases same
      obtain ⟨less,inside,balance,_⟩ := sees.cell r x.1 x.2 read
      exact ⟨less,inside,balance,settle_read read⟩
    · intro r c a known dirty
      obtain ⟨x,_,same⟩ := Option.map_eq_some_iff.mp known
      cases same
      exact absurd rfl dirty
    · intro c a known
      obtain ⟨x,read,same⟩ := Option.map_eq_some_iff.mp known
      cases same
      obtain ⟨balance,_,may⟩ := sees.bank x.1 x.2 read
      have bank := commits.bank
      rw [read] at bank
      exact ⟨balance,bank,may⟩
    · intro c a known dirty
      obtain ⟨x,_,same⟩ := Option.map_eq_some_iff.mp known
      cases same
      exact absurd rfl dirty
    · intro rows known
      have is := (sees.shown rows known).1
      cases e with
      | command atm c => rw [is] at performs; cases performs.1
      | charge rate id => rw [is] at performs; cases performs
    · intro i is
      cases e with
      | command atm c =>
        obtain ⟨also,next⟩ := performs
        rw [is] at also
        cases also
        obtain ⟨rest,todo⟩ := List.head?_eq_some_iff.mp next
        have files := sees.todo i is
        simpa [View.commit,settle,todo] using files
      | charge rate id => rw [is] at performs; cases performs
  · intro u other
    have theirs := (L u).2
    have outside : ∀ writes : (V u).phase .account_list = .writing, False :=
      fun writes => other (writer_alone G (fun t => (L t).1) writes held).symm
    refine ⟨{ (L u).1 with },{ theirs with change := ?_, cell := ?_, bank := ?_, shown := ?_, todo := ?_ }⟩
    · exact .inl (theirs.change.resolve_right fun writes => outside writes.2.1)
    · intro r c a known
      obtain ⟨less,inside,balance,accounted⟩ := theirs.cell r c a known
      have clean : (V t).Clean r := by
        intro c' a' read
        by_contra dirty
        exact other (owner_alone G (fun t => (L t).1) (sees.dirty r c' a' read dirty).1 inside)
      exact ⟨less,inside,balance,(settle_clean sees clean).trans accounted⟩
    · intro c a known
      obtain ⟨balance,accounted,may⟩ := theirs.bank c a known
      refine ⟨balance,?_,may⟩
      have bank := commits.bank
      cases read : (V t).bank with
      | none => rw [read] at bank; exact bank.trans accounted
      | some x =>
        rcases may with ⟨is,_⟩ | writes
        · rcases (sees.bank x.1 x.2 read).2.2 with ⟨also,_⟩ | writes
          · exact absurd (is.trans also.symm) other
          · have inside : (V u).Held := by
              rcases (theirs.bank c a known).2.2 with ⟨_,reads⟩ | writes
              · exact held_of_reading reads
              · exact held_of_writing writes
            exact absurd (writer_alone G (fun t => (L t).1) writes inside) other
        · exact (outside writes).elim
    · exact fun rows known => (outside (theirs.shown rows known).2.1).elim
    · intro i is
      have files := theirs.todo i is
      cases e with
      | command atm c =>
        have apart : atm ≠ i := by
          rintro rfl
          exact other (is.trans performs.1.symm)
        simpa [settle,commandsOf_snoc_other apart] using files
      | charge rate id => simpa [settle] using files

/-! ### Soundness -/

/-- The invariant does not look at the rest of the shared state. -/
theorem write_elsewhere (inv : Inv S s V) (stdout : Option Tid) (flag progress : Bool) (rand : Nat → Nat)
    (exited : Tid → Bool) :
    Inv S { s with stdout_print_lock := stdout, accounts_print := flag, progress := progress, rand := rand,
                   exited := exited } (Function.update V t (V t)) := by
  rw [Function.update_eq_self]
  obtain ⟨Γ,G,L⟩ := inv
  refine ⟨Γ,{ G with done := ?_ },fun u => ⟨{ (L u).1 with },{ (L u).2 with }⟩⟩
  have done := G.done
  cases change : Γ.change <;> rw [change] at done <;> exact done

/-- Every operation that a view permits leads to a view for which the invariant holds. -/
theorem act_sound {a : Act} {r : Res a} {s' : Shared} (inv : Inv S s V) (ok : Ok S t (V t) a)
    (ran : run t a s = some (r,s')) : ∃ g, Next S (V t) a r g ∧ Inv S s' (Function.update V t g) := by
  cases a with
  | lock m =>
    cases m with
    | lock_read l => exact ⟨_,rfl,move_lock_read inv ok ran⟩
    | lock_write l =>
      obtain ⟨entered,inv'⟩ := move_lock_write inv ok ran
      exact ⟨_,⟨entered,rfl⟩,inv'⟩
    | transfer_lock =>
      simp only [run,Option.ite_none_right_eq_some,Option.some.injEq,Prod.mk.injEq] at ran
      obtain ⟨free,_,rfl⟩ := ran
      exact ⟨_,rfl,move_lock_transfer inv free⟩
    | log_print_lock =>
      simp only [run,Option.ite_none_right_eq_some,Option.some.injEq,Prod.mk.injEq] at ran
      obtain ⟨free,_,rfl⟩ := ran
      exact ⟨_,rfl,move_lock_log inv free⟩
    | stdout_print_lock =>
      simp only [run,Option.ite_none_right_eq_some,Option.some.injEq,Prod.mk.injEq] at ran
      obtain ⟨_,_,rfl⟩ := ran
      exact ⟨_,rfl,write_elsewhere inv (some t) s.accounts_print s.progress s.rand s.exited⟩
  | unlock m =>
    cases m with
    | lock_read l => exact ⟨_,rfl,move_unlock_read inv ok ran⟩
    | lock_write l => exact ⟨_,rfl,move_unlock_write inv ok ran⟩
    | transfer_lock => cases ran; exact ⟨_,rfl,move_unlock_transfer inv ok⟩
    | log_print_lock => cases ran; exact ⟨_,rfl,move_unlock_log inv ok⟩
    | stdout_print_lock =>
      cases ran
      exact ⟨_,rfl,write_elsewhere inv none s.accounts_print s.progress s.rand s.exited⟩
  | readers l => cases ran; exact learn_readers inv ok
  | set_readers l n => exact ⟨_,rfl,move_set_readers inv ok ran⟩
  | accounts_print => cases ran; exact ⟨_,rfl,learn_nothing inv⟩
  | set_accounts_print flag =>
    cases ran
    exact ⟨_,rfl,write_elsewhere inv s.stdout_print_lock flag s.progress s.rand s.exited⟩
  | progress => cases ran; exact ⟨_,rfl,learn_nothing inv⟩
  | set_progress flag =>
    cases ran
    exact ⟨_,rfl,write_elsewhere inv s.stdout_print_lock s.accounts_print flag s.rand s.exited⟩
  | rand =>
    cases ran
    exact ⟨_,rfl,write_elsewhere inv s.stdout_print_lock s.accounts_print s.progress (fun n => s.rand (n + 1)) s.exited⟩
  | find id => cases ran; exact learn_find inv ok
  | first => cases ran; exact learn_first inv ok
  | after key => cases ran; exact learn_after inv ok
  | new_account id balance pw => cases ran; exact ⟨_,rfl,write_new_account inv ok⟩
  | insert id r => cases ran; exact write_insert inv ok
  | insert_deleted id r => cases ran; exact ⟨_,rfl,write_insert_deleted inv ok⟩
  | erase id => cases ran; exact write_erase inv ok
  | id r => cases ran; exact learn_id inv
  | password r => cases ran; exact learn_password inv ok
  | deleted r => cases ran; exact learn_deleted inv ok
  | set_deleted r => cases ran; exact write_set_deleted inv ok
  | balance r => cases ran; exact learn_balance inv ok
  | set_balance r v => cases ran; exact write_set_balance inv ok
  | bank_balance => cases ran; exact learn_bank_balance inv ok
  | set_bank_balance v => cases ran; exact write_set_bank_balance inv ok
  | log line => cases ran; exact ⟨_,rfl,write_log inv ok⟩
  | print output => cases ran; exact write_print inv ok
  | exit =>
    cases ran
    exact ⟨_,rfl,write_elsewhere inv s.stdout_print_lock s.accounts_print s.progress s.rand (Function.update s.exited t true)⟩
  | join u =>
    simp only [run,Option.ite_none_right_eq_some,Option.some.injEq,Prod.mk.injEq] at ran
    obtain ⟨_,_,rfl⟩ := ran
    exact ⟨_,rfl,learn_nothing inv⟩

end StructureOfOs.BankSound
