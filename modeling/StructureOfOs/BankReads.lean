import StructureOfOs.BankInvariant

/-!
The operations that leave the shared state as it is: what a thread learns from a
lookup, from an iteration over the accounts or from reading an account agrees with
the shared state as long as the thread stays in the locks it is in.
-/
namespace StructureOfOs.BankReads
open StructureOfOs.Programs StructureOfOs.Outlines StructureOfOs.RwLock StructureOfOs.BankState StructureOfOs.Bank
open StructureOfOs.AccountBook StructureOfOs.Views StructureOfOs.BankInvariant

variable {S : Setting} {s : Shared} {Γ : Ghost} {V : Tid → View} {t : Tid} {g : View}

/-- A thread that only reads may know more afterwards. -/
theorem inv_view (G : Global S s Γ V) (L : ∀ t, Holds s t (V t) ∧ Sees S s Γ t (V t)) (keeps : Keeps (V t) g)
    (settled : g.change = (V t).change) (holds : Holds s t g) (sees : Sees S s Γ t g) : Inv S s (Function.update V t g) :=
  inv_update _ (G.keeps keeps settled) ⟨holds,sees⟩ fun u _ => L u

/-- An operation that tells nothing. -/
theorem learn_nothing (inv : Inv S s V) : Inv S s (Function.update V t (V t)) := by
  rwa [Function.update_eq_self]

/-- An account that a thread can name has been allocated. -/
theorem knows_allocated {r : Ref} (G : Global S s Γ V) (L : ∀ t, Holds s t (V t) ∧ Sees S s Γ t (V t))
    (knows : (V t).Knows r) : r < s.allocated := by
  rcases knows with ⟨id,looked⟩ | changing
  · exact (looked_open G L looked).1
  · have done := G.done
    rcases (L t).2.change with none | ⟨_,_,same⟩
    · rw [none] at changing; cases changing
    · rw [← same] at done
      cases change : (V t).change with
      | none => rw [change] at changing; cases changing
      | allocated q id pw balance =>
        rw [change] at changing done; cases changing; exact done.2.1
      | added q id pw balance =>
        rw [change] at changing done; cases changing; exact (G.entries id _ done.2).1
      | kept q id =>
        rw [change] at changing done; cases changing; exact (G.entries id _ done).1
      | flagged q id =>
        rw [change] at changing done; cases changing; exact (G.entries id _ done.1).1
      | erased q id =>
        rw [change] at changing done; cases changing; exact done.2.1

theorem learn_readers {l : RwId} (inv : Inv S s V) (ok : Ok S t (V t) (.readers l)) :
    ∃ g, Next S (V t) (.readers l) (s.lock l).num_of_readers g ∧ Inv S s (Function.update V t g) := by
  obtain ⟨Γ,G,L⟩ := inv
  obtain ⟨holds,sees⟩ := L t
  refine ⟨_,⟨rfl,?_⟩,inv_view G L (.same rfl rfl) rfl ?_ { sees with }⟩
  · intro v at_t
    rw [holds.phase] at at_t
    exact (G.locks l).written t v at_t
  · refine ⟨holds.phase,holds.transfer,holds.logging,?_⟩
    intro l' n same
    cases same
    exact ⟨ok,rfl⟩

/-- Two ids with the same account are the same id. -/
theorem learn_find {id : Int} (inv : Inv S s V) (ok : Ok S t (V t) (.find id)) :
    ∃ g, Next S (V t) (.find id) (s.map_of_accounts.find id) g ∧ Inv S s (Function.update V t g) := by
  obtain ⟨Γ,G,L⟩ := inv
  obtain ⟨holds,sees⟩ := L t
  obtain ⟨held,settled⟩ := ok
  refine ⟨_,⟨rfl,?_,?_⟩,inv_view G L (.same rfl rfl) rfl { holds with } ?_⟩
  · exact fun known looked => (sees.looked id known looked).2
  · intro r found key looked
    rw [← (looked_open G L looked).2.1]
    exact (G.entries id r found).2.1
  · refine { sees with looked := ?_, unsettled := ?_, dirty := ?_ }
    · intro key it known
      by_cases same : key = id
      · subst same
        simp only [Function.update_self,Option.some.injEq] at known
        exact ⟨held,known⟩
      · exact sees.looked key it (by simpa [same] using known)
    · intro unsettled
      simp only [settled,Unsettled] at unsettled
    · intro r c a cell dirty
      obtain ⟨writes,reads,⟨key,looked⟩,may⟩ := sees.dirty r c a cell dirty
      refine ⟨writes,reads,⟨key,?_⟩,may⟩
      by_cases same : key = id
      · subst same; simp [(sees.looked key (some r) looked).2]
      · simpa [same] using looked

/-- A thread in no account's lock has read no balance that is still to be trusted. -/
theorem cell_quiet (sees : Sees S s Γ t g) (quiet : g.Quiet) (r : Ref) : g.cell r = none := by
  by_contra known
  obtain ⟨⟨c,a⟩,known⟩ := Option.ne_none_iff_exists'.mp known
  have inside := (sees.cell r c a known).2.1
  rw [quiet r] at inside
  cases inside

/-- Between two accounts there is no unlogged charge to the bank's balance. -/
theorem bank_quiet (sees : Sees S s Γ t g) (quiet : g.Quiet) : g.CleanBank := by
  intro c a known
  by_contra dirty
  obtain ⟨_,r,writes⟩ := sees.bankDirty c a known dirty
  rw [quiet r] at writes
  cases writes

/-- An iteration over the open accounts comes to its next entry. -/
private theorem visit_sees {done : List (Int × Ref)} (rest : List (Int × Ref)) {it : Option (Int × Ref)} (sees : Sees S s Γ t g)
    (held : g.Held) (settled : g.change = .none) (quiet : g.Quiet)
    (split : s.map_of_accounts.entries = done ++ it.toList ++ rest) (last : it = none → rest = []) :
    Sees S s Γ t (g.visit done it) := by
  refine { sees with looked := ?_, unsettled := ?_, pass := ?_, pw := ?_, dirty := ?_, bank := ?_, bankDirty := ?_ }
  · intro key found known
    refine ⟨held,?_⟩
    cases it with
    | none => simp [View.visit] at known
    | some e =>
      simp only [View.visit,Option.bind_some,Option.ite_none_right_eq_some,Option.some.injEq] at known
      obtain ⟨rfl,rfl⟩ := known
      exact OrdMap.find_eq_some.mpr (by simp [split])
  · intro unsettled
    simp only [View.visit,settled,Unsettled] at unsettled
  · rintro done' it' known
    cases known
    exact ⟨held,rest,split,last⟩
  · simp [View.visit]
  · intro r c a known
    simp [View.visit,cell_quiet sees quiet r] at known
  · simp [View.visit]
  · simp [View.visit]

private theorem visit_keeps {done : List (Int × Ref)} {it : Option (Int × Ref)} (sees : Sees S s Γ t g)
    (quiet : g.Quiet) : Keeps g (g.visit done it) :=
  ⟨fun _ _ _ known _ => known,fun c a known dirty => absurd (bank_quiet sees quiet c a known) dirty⟩

theorem learn_first (inv : Inv S s V) (ok : Ok S t (V t) .first) :
    ∃ g, Next S (V t) .first s.map_of_accounts.first g ∧ Inv S s (Function.update V t g) := by
  obtain ⟨Γ,G,L⟩ := inv
  obtain ⟨holds,sees⟩ := L t
  obtain ⟨held,settled,quiet⟩ := ok
  refine ⟨_,rfl,inv_view G L (visit_keeps sees quiet) rfl { holds with } ?_⟩
  refine visit_sees s.map_of_accounts.entries.tail sees held settled quiet ?_ ?_
  · unfold OrdMap.first
    cases s.map_of_accounts.entries <;> simp
  · unfold OrdMap.first
    cases s.map_of_accounts.entries <;> simp

theorem learn_after {key : Int} (inv : Inv S s V) (ok : Ok S t (V t) (.after key)) :
    ∃ g, Next S (V t) (.after key) (s.map_of_accounts.after key) g ∧ Inv S s (Function.update V t g) := by
  obtain ⟨Γ,G,L⟩ := inv
  obtain ⟨holds,sees⟩ := L t
  obtain ⟨settled,quiet,done,r,passed⟩ := ok
  obtain ⟨held,rest,split,_⟩ := sees.pass done _ passed
  have following : s.map_of_accounts.after key = rest.head? :=
    OrdMap.after_split (e := (key,r)) (by simpa using split)
  refine ⟨_,⟨done,r,passed,rfl⟩,inv_view G L (visit_keeps sees quiet) rfl { holds with } ?_⟩
  refine visit_sees rest.tail sees held settled quiet ?_ ?_
  · rw [following,split]
    cases rest <;> simp
  · rw [following]
    cases rest <;> simp

theorem learn_id {r : Ref} (inv : Inv S s V) : ∃ g, Next S (V t) (.id r) (s.account r).id g ∧
    Inv S s (Function.update V t g) := by
  refine ⟨V t,⟨rfl,?_⟩,learn_nothing inv⟩
  obtain ⟨Γ,G,L⟩ := inv
  exact fun key looked => (looked_open G L looked).2.1

theorem learn_password {r : Ref} (inv : Inv S s V) (ok : Ok S t (V t) (.password r)) :
    ∃ g, Next S (V t) (.password r) (s.account r).password g ∧ Inv S s (Function.update V t g) := by
  obtain ⟨Γ,G,L⟩ := inv
  obtain ⟨holds,sees⟩ := L t
  have below := knows_allocated G L ok
  refine ⟨_,rfl,inv_view G L (.same rfl rfl) rfl { holds with } { sees with pw := ?_ }⟩
  intro q p known
  by_cases same : q = r
  · subst same
    simp only [Function.update_self,Option.some.injEq] at known
    exact ⟨below,known⟩
  · exact sees.pw q p (by simpa [same] using known)

/-- What has been looked up is not deleted. -/
theorem learn_deleted {r : Ref} (inv : Inv S s V) (ok : Ok S t (V t) (.deleted r)) :
    ∃ g, Next S (V t) (.deleted r) (s.account r).deleted g ∧ Inv S s (Function.update V t g) := by
  refine ⟨V t,⟨rfl,?_⟩,learn_nothing inv⟩
  obtain ⟨Γ,G,L⟩ := inv
  obtain ⟨id,looked⟩ := ok
  exact (looked_open G L looked).2.2.2

theorem learn_balance {r : Ref} (inv : Inv S s V) (ok : Ok S t (V t) (.balance r)) :
    ∃ g, Next S (V t) (.balance r) (s.account r).balance g ∧ Inv S s (Function.update V t g) := by
  obtain ⟨Γ,G,L⟩ := inv
  obtain ⟨holds,sees⟩ := L t
  obtain ⟨inside,knows⟩ := ok
  have below := knows_allocated G L knows
  cases read : (V t).cell r with
  | some x =>
    obtain ⟨c,a⟩ := x
    obtain ⟨_,_,rfl,_⟩ := sees.cell r c a read
    exact ⟨V t,⟨fun assumed => (G.solvent assumed).1 r,.inl ⟨a,read,rfl⟩⟩,learn_nothing ⟨Γ,G,L⟩⟩
  | none =>
    have accounted := balance_accounted G L inside read
    refine ⟨_,⟨fun assumed => (G.solvent assumed).1 r,.inr ⟨read,rfl⟩⟩,inv_view G L ⟨?_,fun _ _ h _ => h⟩ rfl
      { holds with } { sees with cell := ?_, dirty := ?_ }⟩
    · intro q c a known _
      have other : q ≠ r := by rintro rfl; rw [read] at known; cases known
      simpa [other] using known
    · intro q c a known
      by_cases same : q = r
      · subst same
        simp only [Function.update_self,Option.some.injEq,Prod.mk.injEq] at known
        obtain ⟨rfl,rfl⟩ := known
        exact ⟨below,inside,rfl,accounted.symm⟩
      · exact sees.cell q c a (by simpa [same] using known)
    · intro q c a known dirty
      by_cases same : q = r
      · subst same
        simp only [Function.update_self,Option.some.injEq,Prod.mk.injEq] at known
        exact absurd (known.1.symm.trans known.2) dirty
      · exact sees.dirty q c a (by simpa [same] using known) dirty

theorem learn_bank_balance (inv : Inv S s V) (ok : Ok S t (V t) .bank_balance) :
    ∃ g, Next S (V t) .bank_balance s.balance g ∧ Inv S s (Function.update V t g) := by
  obtain ⟨Γ,G,L⟩ := inv
  obtain ⟨holds,sees⟩ := L t
  cases read : (V t).bank with
  | some x =>
    obtain ⟨c,a⟩ := x
    obtain ⟨rfl,_⟩ := sees.bank c a read
    exact ⟨V t,⟨fun assumed => (G.solvent assumed).2,.inl ⟨a,read,rfl⟩⟩,learn_nothing ⟨Γ,G,L⟩⟩
  | none =>
    have accounted := bank_accounted G L ok read
    refine ⟨_,⟨fun assumed => (G.solvent assumed).2,.inr ⟨read,rfl⟩⟩,inv_view G L ⟨fun _ _ _ h _ => h,?_⟩ rfl
      { holds with } { sees with bank := ?_, bankDirty := ?_ }⟩
    · intro c a known
      rw [read] at known; cases known
    · rintro c a known
      cases known
      exact ⟨rfl,accounted.symm,ok⟩
    · rintro c a known dirty
      cases known
      exact absurd rfl dirty

end StructureOfOs.BankReads
