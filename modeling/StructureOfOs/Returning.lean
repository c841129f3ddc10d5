import StructureOfOs.Teardown
import Mathlib.Order.Interval.Finset.Nat

/-!
The program can always return from `main`, where its arguments name files, no call of pthreads
fails and no transfer names one account twice. `main` is stopped by nothing but a join; the
thread it waits for comes to its end as it does in the bank; and when all others have ended
`main` has a bounded number of actions left.
-/
namespace StructureOfOs.Returning
open StructureOfOs.Programs StructureOfOs.Outlines StructureOfOs.BankState StructureOfOs.Atm StructureOfOs.Extensions
open StructureOfOs.Bank (bank)
open StructureOfOs.Finishing (Started)
open StructureOfOs.Views (Distinct)
open StructureOfOs.Debts
open StructureOfOs.BankProgram StructureOfOs.Teardown
open StructureOfOs.Streams (Text getlines)
open StructureOfOs.CommandLines (Fields performed)

/-- The arguments name files, and no call of `pthread_create` or `pthread_join` fails. -/
structure Fair (argv : Argv) (results : Nat → Int) : Prop where
  some_ : argv ≠ []
  files : ∀ file ∈ argv, file.isSome = true
  results : ∀ k, results k = 0

variable {argv : Argv} {v : Nat → Fields} {results : Nat → Int} {rand : Nat → Nat} {c d : Config} {t u : Tid} {n : Nat}
  {point : Ctl} {p : BankProgram.Code Ctl}

/-! ### Nothing fails -/

/-- What `main` is answered: its calls return 0, and the maps are as known. -/
def said (known : Option Maps) : (a : Act ⊕ Extra) → Sum.elim Res ResX a → Prop
  | .inr (.pthread_create _), (result : Int) | .inr .result, (result : Int) => result = 0
  | .inr (.after key), it => ∀ maps, known = some maps → it = maps.1.after key
  | .inr (.after_deleted key), it => ∀ maps, known = some maps → it = maps.2.after key
  | _, _ => True
/-- Nothing has failed. -/
structure Fine (o : Process) : Prop where
  results : ∀ k, o.results k = 0
  cerr : o.cerr = []
/-- Nobody writes a message. -/
def fine : Outline Tid (Shared × Process) (Act ⊕ Extra) (Sum.elim Res ResX) Ctl Unit where
  Inv s _ := Fine s.2
  Ok _ _ a := ∀ message, a ≠ .inr (.cerr message)
  Next _ _ a r _ := said none a r
  Loop _ _ _ := True

theorem answers {known : Option Maps} {s s' : Shared × Process} {a : Act ⊕ Extra} {r : Sum.elim Res ResX a} (holds : Fine s.2)
    (same : ∀ maps, known = some maps → (s.1.map_of_accounts,s.1.map_of_deleted_accounts) = maps)
    (ran : (program argv v).run t a s = some (r,s')) : said known a r := by
  cases a with
  | inl a => trivial
  | inr x =>
    obtain ⟨_,did,_⟩ := run_extra ran
    have did : own t x s.1 s.2 = some (r,s'.2) := did
    generalize s'.2 = o at did
    cases x with
    | pthread_create u =>
      simp only [own,holds.results,if_true] at did
      cases did; rfl
    | result => cases did; exact holds.results 0
    | after key | after_deleted key =>
      cases did
      intro maps is
      rw [← same maps is]
    | _ => trivial

theorem fine_act {s s' : Shared × Process} {a : Act ⊕ Extra} {r : Sum.elim Res ResX a} (inv : Fine s.2)
    (ok : ∀ message, a ≠ .inr (.cerr message)) (ran : (program argv v).run t a s = some (r,s')) : Fine s'.2 := by
  cases a with
  | inl a =>
    obtain ⟨_,_,same⟩ := run_low ran
    rw [same]
    exact inv
  | inr x =>
    obtain ⟨_,did,_⟩ := run_extra ran
    have did : own t x s.1 s.2 = some (r,s'.2) := did
    have next : Fine s.2.next := ⟨fun k => inv.results (k + 1),inv.cerr⟩
    generalize s'.2 = o at did
    cases x with
    | cerr message => exact absurd rfl (ok message)
    | pthread_create u =>
      simp only [own,inv.results,if_true] at did
      cases did
      exact ⟨next.results,next.cerr⟩
    | result => cases did; exact next
    | started | wait u =>
      obtain ⟨_,same⟩ := Option.ite_none_right_eq_some.mp did
      cases same; exact inv
    | _ => cases did; exact ⟨inv.results,inv.cerr⟩

theorem fine_low {a : Act} : fine.Ok t () (.inl a) := fun _ same => by cases same
theorem fine_lift {α β : Type} {p : Prog Act Res α} {f : α → BankProgram.Code β} {Q : β → Unit → Prop}
    (rest : ∀ value, fine.Follows t (f value) () Q) : fine.Follows t (lift p >>= f) () Q := by
  induction p with
  | ret value => exact rest value
  | act a next ih => exact ⟨fine_low,fun r _ _ => ih r⟩
theorem fine_extra {x : Extra} {α : Type} {f : ResX x → BankProgram.Code α} {Q : α → Unit → Prop} (silent : ∀ message, x ≠ .cerr message)
    (rest : ∀ r, said none (.inr x) r → fine.Follows t (f r) () Q) : fine.Follows t (extra x >>= f) () Q :=
  ⟨fun message same => silent message (Sum.inr.inj same),fun r _ answered => rest r answered⟩
theorem fine_join {α : Type} {f : Int → BankProgram.Code α} {Q : α → Unit → Prop} (rest : fine.Follows t (f 0) () Q) :
    fine.Follows t (pthread_join u >>= f) () Q := by
  refine fine_extra (by simp) ?_
  rintro _ rfl
  show fine.Follows t ((wait u >>= fun _ => .ret 0) >>= f) () Q
  cases u with
  | atm i => exact ⟨fine_low,fun _ _ _ => rest⟩
  | _ => exact fine_extra (by simp) fun _ _ => rest
theorem files_some (files : ∀ file ∈ argv, file.isSome = true) : ∃ texts, arr_of_files argv = some texts := by
  induction argv with
  | nil => exact ⟨[],rfl⟩
  | cons file argv ih =>
    obtain ⟨text,rfl⟩ := Option.isSome_iff_exists.mp (files file (by simp))
    obtain ⟨texts,same⟩ := ih fun file member => files file (by simp [member])
    exact ⟨text :: texts,by simp [arr_of_files,same]⟩

theorem fine_round (fair : Fair argv results) (started : rounds argv v t point = some p) : fine.Follows t p () (fine.Loop t) := by
  cases t with
  | main =>
    cases point <;> simp only [rounds,reduceCtorEq,Option.some.injEq] at started <;> subst started
    case main =>
      obtain ⟨texts,named⟩ := files_some fair.files
      have any : ¬ argv.length < 1 := by simpa using fair.some_
      rw [BankProgram.main,if_neg any,named]
      trivial
    case create_atms i =>
      unfold create_atms
      split
      · refine fine_extra (by simp) ?_
        rintro _ rfl
        exact fine_extra (by simp) fun _ _ => trivial
      · refine fine_extra (by simp) ?_
        rintro _ rfl
        refine fine_extra (by simp) ?_
        rintro _ rfl
        trivial
    case join_atms i =>
      unfold join_atms
      split
      · exact fine_join trivial
      · refine fine_lift (p := .call (Act.set_progress false)) fun _ => fine_join (fine_join ?_)
        exact fine_extra (by simp) fun _ _ => fine_extra (by simp) fun _ _ => trivial
    case free_atms it =>
      cases it with
      | cons id it => exact fine_extra (by simp) fun _ _ => trivial
      | nil =>
        refine fine_extra (by simp) fun _ _ => fine_extra (by simp) fun _ _ => fine_extra (by simp) fun _ _ => ?_
        exact fine_extra (by simp) fun _ _ => fine_extra (by simp) fun _ _ => fine_extra (by simp) fun _ _ => trivial
    case free_accounts it | free_deleted_accounts it =>
      cases it with
      | none => exact fine_extra (by simp) fun _ _ => trivial
      | some e =>
        refine fine_extra (by simp) fun _ _ => fine_extra (by simp) fun _ _ => fine_extra (by simp) fun _ _ => ?_
        exact fine_extra (by simp) fun _ _ => trivial
  | atm i =>
    cases point <;> simp only [rounds,reduceCtorEq,Option.some.injEq] at started <;> subst started
    case unborn => exact fine_extra (by simp) fun _ _ => trivial
    case parser_file w lines =>
      unfold parser_file
      split
      · exact fine_lift fun _ => trivial
      · trivial
      · split
        · exact fine_lift fun _ => trivial
        · trivial
  | accounts_print | fee_collection =>
    cases point <;> simp only [rounds,reduceCtorEq,Option.some.injEq,Option.map_eq_some_iff] at started
    case unborn => subst started; exact fine_extra (by simp) fun _ _ => trivial
    case loop point =>
      obtain ⟨q,_,rfl⟩ := started
      exact fine_lift fun _ => trivial

theorem fine_holds (fair : Fair argv results) (reachable : Reachable argv v results rand c) : Fine c.shared.2 := by
  have sound : fine.Sound (program argv v) := by
    refine ⟨fun inv ok ran => ⟨(),?_,fine_act inv ok ran⟩,fun _ started => fine_round fair started⟩
    exact answers inv (by simp) ran
  have start : fine.Holds (initial results rand) := ⟨fun _ => (),⟨fair.results,rfl⟩,fun _ => trivial⟩
  obtain ⟨_,inv,_⟩ := sound.reaches start reachable
  exact inv

/-! ### What `main` has left -/

/-- What `main` has left at a point with `n` ATMs, when it goes through these maps. -/
def left (n : Nat) (maps : Maps) : Ctl → Nat
  | .free_deleted_accounts it => 5 * maps.2.ahead it + 2
  | .free_accounts it => 5 * maps.1.ahead it + (5 * (maps.2.entries.length + 1) + 4)
  | .free_atms it => 2 * min it.length n + (5 * (maps.1.entries.length + 1) + (5 * (maps.2.entries.length + 1) + 4) + 7)
  | .join_atms i => 4 * (n - i) + 2 * n + (5 * (maps.1.entries.length + 1) + (5 * (maps.2.entries.length + 1) + 4) + 16)
  | .create_atms i => 3 * (n - i) + 6 * n + (5 * (maps.1.entries.length + 1) + (5 * (maps.2.entries.length + 1) + 4) + 20)
  | .main => 9 * n + (5 * (maps.1.entries.length + 1) + (5 * (maps.2.entries.length + 1) + 4) + 21)
  | _ => 0

theorem within_fail {k : Nat} {message : String} : Within (fun _ => True) (k + 2) (fail message) :=
  within_then trivial fun _ => within_then trivial fun _ => within_ret
theorem within_join {k : Nat} {f : Int → BankProgram.Code Ctl} (rest : ∀ result, Within (fun _ => True) k (f result)) :
    Within (fun _ => True) (k + 2) (pthread_join u >>= f) := by
  refine within_bind (j := 2) (within_then trivial fun result => ?_) rest
  split
  · cases u with
    | atm i => exact within_then (k := 0) trivial fun _ => within_ret
    | _ => exact within_then (k := 0) trivial fun _ => within_ret
  · exact within_ret
theorem within_delete {r : Ref} {point : Ctl} : Within (fun _ => True) 3 (delete_account r >>= fun _ => .ret point) :=
  within_then trivial fun _ => within_then trivial fun _ => within_then trivial fun _ => within_ret
theorem within_round (started : rounds argv v .main point = some p) : Within (fun _ => True) 8 p := by
  cases point <;> simp only [rounds,reduceCtorEq,Option.some.injEq] at started <;> subst started
  case main =>
    unfold BankProgram.main
    split
    · exact within_fail
    · split
      · exact within_fail
      · exact within_ret
  case create_atms i =>
    unfold create_atms
    refine within_ite (within_then trivial fun (result : Int) => within_ite within_fail (within_then trivial fun _ => within_ret)) ?_
    refine within_then trivial fun (result : Int) => within_ite within_fail ?_
    exact within_then trivial fun (result : Int) => within_ite within_fail within_ret
  case join_atms i =>
    unfold join_atms
    refine within_ite (within_join fun _ => within_ite within_fail within_ret) (within_then trivial fun _ => ?_)
    refine within_join fun _ => within_ite within_fail (within_join fun _ => within_ite within_fail ?_)
    exact within_then trivial fun _ => within_then trivial fun _ => within_ret
  case free_atms it =>
    cases it with
    | cons id it => exact within_then trivial fun _ => within_ret
    | nil =>
      refine within_then trivial fun _ => within_then trivial fun _ => within_then trivial fun _ => ?_
      exact within_then trivial fun _ => within_then trivial fun _ => within_then trivial fun _ => within_ret
  case free_accounts it | free_deleted_accounts it =>
    cases it with
    | none => exact within_then trivial fun _ => within_ret
    | some e => exact within_then trivial fun _ => within_mono (fun _ _ => trivial) (by omega) within_delete

/-- That is bounded at every time. -/
theorem left_some (reachable : Reachable argv v results rand c) (n : Nat) (maps : Maps) (known : Option Maps) :
    ∃ k, Owes (said known) (left n maps) k (c.thread .main).prog := by
  have within : Within (fun _ => True) 8 (c.thread .main).prog :=
    within_reaches (fun _ _ started => within_round started) within_ret reachable
  refine ⟨_,owes_within (k := 20 * n + 5 * (maps.1.entries.length + 1) + 5 * (maps.2.entries.length + 1) + 30) within fun point => ?_⟩
  cases point with
  | free_deleted_accounts it => have := maps.2.ahead_le it; simp only [left]; omega
  | free_accounts it => have := maps.1.ahead_le it; simp only [left]; omega
  | _ => simp only [left]; omega

theorem owes_extra {x : Extra} {known : Option Maps} {maps : Maps} {k : Nat} {f : ResX x → BankProgram.Code Ctl}
    (rest : ∀ r, said known (.inr x) r → Owes (said known) (left n maps) k (f r)) :
    Owes (said known) (left n maps) (k + 1) (extra x >>= f) := rest
theorem owes_join {known : Option Maps} {maps : Maps} {k : Nat} {f : Int → BankProgram.Code Ctl}
    (rest : Owes (said known) (left n maps) k (f 0)) : Owes (said known) (left n maps) (k + 2) (pthread_join u >>= f) := by
  refine owes_extra ?_
  rintro _ rfl
  show Owes _ _ (k + 1) ((wait u >>= fun _ => .ret 0) >>= f)
  cases u with
  | atm i => exact fun _ _ => rest
  | _ => exact owes_extra fun _ _ => rest
theorem owes_delete {known : Option Maps} {maps : Maps} {k : Nat} {r : Ref} (less : left n maps point ≤ k) :
    Owes (said known) (left n maps) (k + 3) (delete_account r >>= fun _ => .ret point) :=
  owes_extra fun _ _ => owes_extra fun _ _ => owes_extra fun _ _ => owes_ret.mpr less

/-- `main` takes the bank down. -/
def Late : Ctl → Prop
  | .free_atms _ | .free_accounts _ | .free_deleted_accounts _ => True
  | _ => False
/-- Every round costs less than the point it starts from, where the maps are known when the bank is taken down. -/
theorem round_owes {known : Option Maps} {maps : Maps} (fair : Fair argv results) (started : rounds argv v .main point = some p)
    (atms : ∀ it, point = .free_atms it → it.length ≤ argv.length) (knows : Late point → known = some maps) :
    ∃ k, k < left argv.length maps point ∧ Owes (said known) (left argv.length maps) k p := by
  cases point <;> simp only [rounds,reduceCtorEq,Option.some.injEq] at started <;> subst started
  case main =>
    obtain ⟨texts,named⟩ := files_some fair.files
    have any : ¬ argv.length < 1 := by simpa using fair.some_
    rw [BankProgram.main,if_neg any,named]
    exact ⟨left argv.length maps (.create_atms 0),by simp only [left]; omega,owes_ret.mpr le_rfl⟩
  case create_atms i =>
    unfold create_atms
    split
    · refine ⟨left argv.length maps (.create_atms (i + 1)) + 2,by simp only [left]; omega,owes_extra ?_⟩
      rintro _ rfl
      exact owes_extra fun _ _ => owes_ret.mpr le_rfl
    · refine ⟨left argv.length maps (.join_atms 0) + 2,by simp only [left]; omega,owes_extra ?_⟩
      rintro _ rfl
      refine owes_extra ?_
      rintro _ rfl
      exact owes_ret.mpr le_rfl
  case join_atms i =>
    unfold join_atms
    split
    · exact ⟨left argv.length maps (.join_atms (i + 1)) + 2,by simp only [left]; omega,owes_join (owes_ret.mpr le_rfl)⟩
    · refine ⟨left argv.length maps (.join_atms i) - 9 + 2 + 2 + 2 + 1,by simp only [left]; omega,fun _ _ => owes_join (owes_join ?_)⟩
      refine owes_extra fun _ _ => owes_extra fun it _ => owes_ret.mpr ?_
      simp only [left]
      omega
  case free_atms it =>
    cases it with
    | cons id it =>
      have short := atms _ rfl
      refine ⟨left argv.length maps (.free_atms it) + 1,?_,owes_extra fun _ _ => owes_ret.mpr le_rfl⟩
      simp only [left,List.length_cons] at short ⊢
      omega
    | nil =>
      refine ⟨left argv.length maps (.free_atms []) - 7 + 6,by simp only [left]; omega,?_⟩
      refine owes_extra fun _ _ => owes_extra fun _ _ => owes_extra fun _ _ => owes_extra fun _ _ => owes_extra fun _ _ => ?_
      refine owes_extra fun it _ => owes_ret.mpr ?_
      have := maps.1.ahead_le it
      simp only [left]
      omega
  case free_accounts it =>
    cases it with
    | none =>
      refine ⟨5 * (maps.2.entries.length + 1) + 2 + 1,by simp only [left]; omega,owes_extra fun it _ => owes_ret.mpr ?_⟩
      have := maps.2.ahead_le it
      simp only [left]
      omega
    | some e =>
      have fewer : maps.1.ahead (maps.1.after e.1) < maps.1.ahead (some e) := maps.1.ahead_after e.1 e.2
      refine ⟨left argv.length maps (.free_accounts (maps.1.after e.1)) + 3 + 1,by simp only [left]; omega,?_⟩
      refine owes_extra fun it answered => ?_
      rw [answered maps (knows trivial)]
      exact owes_delete le_rfl
  case free_deleted_accounts it =>
    cases it with
    | none => exact ⟨1,by simp only [left]; omega,owes_extra fun _ _ => owes_ret.mpr le_rfl⟩
    | some e =>
      have fewer : maps.2.ahead (maps.2.after e.1) < maps.2.ahead (some e) := maps.2.ahead_after e.1 e.2
      refine ⟨left argv.length maps (.free_deleted_accounts (maps.2.after e.1)) + 3 + 1,by simp only [left]; omega,?_⟩
      refine owes_extra fun it answered => ?_
      rw [answered maps (knows trivial)]
      exact owes_delete le_rfl

/-! ### What stops `main` -/

/-- All threads but `main` have ended. -/
def AllEnded (n : Nat) (s : Shared) : Prop := ∀ t, t ≠ .main → Started n t → s.exited t = true
/-- `main` waits for this thread. -/
structure Waits (n : Nat) (c : Config) (u : Tid) : Prop where
  acts : (c.thread .main).prog.action = some (.inl (.join u)) ∨ (c.thread .main).prog.action = some (.inr (.wait u))
  other : u ≠ .main
  started : Started n u
  under_way : c.shared.1.exited u = false
  created : AllCreated n c.shared.2
  stopped : (∃ i, u = .atm i) ∨ c.shared.1.progress = false

theorem main_blocked (reachable : Reachable argv v results rand c) (running : c.shared.2.status = none)
    (blocked : (program argv v).step c .main = none) : ∃ u, Waits argv.length c u := by
  obtain ⟨d,reachable₀,sim,V,inv,follows⟩ := teardown_holds reachable
  rcases step_blocked blocked with ⟨point,at_,ended⟩ | ⟨a,acts,waits⟩
  · exfalso
    have looped := follows .main
    rw [at_,follows_ret] at looped
    have ended : rounds argv v .main point = none := ended
    cases point <;> simp only [teardown,Loop,rounds,reduceCtorEq] at looped ended
    rw [inv.same] at looped
    exact looped running
  have ok := follows_permits (follows .main) acts
  obtain ⟨next,at_⟩ := Prog.action_eq_some.mp acts
  cases a with
  | inl a =>
    have waits : (if (process argv v).alive c.shared.2 then
        (run .main a c.shared.1).map fun out => (out.1,out.2,c.shared.2) else none) = none := waits
    rw [if_pos (by simp [process,running]),Option.map_eq_none_iff] at waits
    obtain ⟨_,created,⟨u,rfl⟩ | rfl⟩ := ok
    · have behind := sim.thread .main
      rw [at_] at behind
      obtain ⟨below,stands,_⟩ := behind
      obtain ⟨_,j,within,rfl⟩ := Finishing.joins_main reachable₀ (Prog.action_eq_some.mpr ⟨below,stands⟩)
      exact ⟨_,.inl acts,by simp,atm_started within,by simpa [run] using waits,inv.same ▸ created,.inl ⟨_,rfl⟩⟩
    · cases waits
  | inr x =>
    have waits : (if (process argv v).alive c.shared.2 then
        (own .main x c.shared.1 c.shared.2).map fun out => (out.1,c.shared.1,out.2) else none) = none := waits
    rw [if_pos (by simp [process,running]),Option.map_eq_none_iff] at waits
    cases x with
    | started => exact ok.elim
    | pthread_create u => simp only [own] at waits; split at waits <;> cases waits
    | wait u =>
      obtain ⟨_,created,stopped,which⟩ := ok
      have collector : u = .accounts_print ∨ u = .fee_collection := which.symm.imp_left And.left
      refine ⟨u,.inr acts,?_,collector_started collector,?_,inv.same ▸ created,.inr (inv.stopped stopped)⟩
      · rintro rfl
        simp at collector
      · simpa [own] using waits
    | _ => cases waits

/-! ### The others -/

/-- A program's thread has fewer lines to read. -/
def size (argv : Argv) (t : Tid) : Ctl → Nat
  | .parser_file _ lines => lines.length
  | .unborn => match t with
    | .atm i => (getlines (text argv i)).length + 1
    | _ => 1
  | _ => 0
/-- The process runs, and all threads have been created. -/
def Running (n : Nat) (o : Process) : Prop := o.status = none ∧ AllCreated n o

theorem prompt (other : t ≠ .main) (started : Started argv.length t) :
    Prompt (bank argv.length) (process argv v) May (Beside argv v) (Running argv.length) (size argv t) t where
  alive o running := by simp [process,running.1]
  own x s o may running := by
    have begins : x = .started := by
      cases t <;> cases x <;> first | exact absurd rfl other | exact may.elim | rfl
    subst begins
    exact ⟨(),o,if_pos (running.2 t other started),running⟩
  point point q beside := by
    cases t with
    | main => exact absurd rfl other
    | _ => cases point <;> first | exact beside.elim | exact ⟨_,beside⟩ | exact ⟨_,beside.2⟩
  round point low q beside starts := by
    have starts : Bank.rounds argv.length t low = some q := starts
    cases t with
    | main => exact absurd rfl other
    | atm i =>
      cases point with
      | unborn => exact ⟨_,rfl,.inr ⟨⟨trivial,fun _ => beside⟩,fun _ => Nat.lt_succ_self _⟩⟩
      | parser_file w lines =>
        refine ⟨_,rfl,?_⟩
        rcases parser_file_beside (n := argv.length) beside with ⟨behind,ends⟩ | ⟨low',q',same,starts',behind⟩
        · refine .inr ⟨behind,ends_mono ?_ ends⟩
          rintro _ ⟨w',lines',rfl,shorter⟩
          exact shorter
        · cases same
          have same : q' = q := Option.some.inj (starts'.symm.trans starts)
          exact .inl (same ▸ behind)
      | loop point =>
        obtain ⟨_,same⟩ := beside
        cases same; cases starts
      | _ => exact beside.elim
    | accounts_print | fee_collection =>
      cases point with
      | unborn => exact ⟨_,rfl,.inr ⟨⟨trivial,fun _ => beside⟩,fun _ => Nat.zero_lt_one⟩⟩
      | loop point =>
        cases beside
        exact ⟨_,congrArg (Option.map bank_round) starts,.inl (behind_bank_round fun _ => rfl)⟩
      | _ => exact beside.elim

variable {files : Nat → List Command} {c₀ d₀ : Bank.Config}

/-- `main` and the ATMs. -/
def owners (n : Nat) : Finset Tid := insert .main ((Finset.Icc 1 n).image .atm)
/-- Only threads that have been created are inside a lock. -/
theorem owners_under (reachable : Bank.Reachable argv.length (BankProgram.files argv v) rand c₀) :
    Emptying.Under argv.length (BankProgram.files argv v) rand (owners argv.length) c₀ := by
  refine ⟨reachable,fun t inside => ?_,fun t member => ?_⟩
  · by_contra outside
    simp only [Emptying.Moving,owners,Finset.mem_insert,Finset.mem_image,Finset.mem_Icc,not_or,not_exists,not_and] at outside
    obtain ⟨⟨main,atm⟩,_⟩ := outside
    have unborn : ¬ Started argv.length t := by
      intro started
      cases t with
      | main => exact main rfl
      | atm i => exact atm i (started i rfl) rfl
      | _ => simp_all
    obtain ⟨W,⟨Γ,_,L⟩,follows⟩ := BankFollows.reachable_holds (S := SerialHistory.anyFiles _) reachable
    exact Emptying.home_outside (L t).1 (ended_home reachable (.inr (files_empty main unborn)) (follows t)) inside
  · simp only [owners,Finset.mem_insert,Finset.mem_image] at member
    rcases member with rfl | ⟨i,_,rfl⟩ <;> simp
theorem owners_started (other : t ≠ .main) (moving : Emptying.Moving (owners n) t) : Started n t := by
  rintro i rfl
  simpa [Emptying.Moving,owners] using moving

theorem flag_stays {P : Tid → Prop} (others : ∀ t, P t → t ≠ .main) (reachable : Bank.Reachable n files rand c₀)
    (reached : (bank n).ReachesBy P c₀ d₀) : d₀.shared.progress = c₀.shared.progress := by
  obtain ⟨schedule,among,ran⟩ := reached
  induction schedule generalizing c₀ with
  | nil => cases ran; rfl
  | cons t rest ih =>
    obtain ⟨middle,stepped,later⟩ := Option.bind_eq_some_iff.mp ran
    have still := ih (reachable.step stepped) (fun u member => among u (List.mem_cons_of_mem t member)) later
    exact still.trans (Finishing.flag_kept reachable (others t (among t (List.mem_cons_self ..))) stepped)

/-- In the bank, what `main` waits for comes about. -/
theorem bank_ends (distinct : ∀ i, ∀ cmd ∈ BankProgram.files argv v i, Distinct cmd)
    (reachable : Bank.Reachable argv.length (BankProgram.files argv v) rand c₀) (other : u ≠ .main) (started : Started argv.length u)
    (stopped : (∃ i, u = .atm i) ∨ c₀.shared.progress = false) :
    ∃ d₀, (bank argv.length).ReachesBy (fun t => t ≠ .main ∧ Started argv.length t) c₀ d₀ ∧ d₀.shared.exited u = true := by
  have under := owners_under reachable
  obtain ⟨total,left⟩ := owing_of fun t member => Finishing.work_left (t := t) reachable (under.own t member)
  have wider : ∀ t, t ≠ .main ∧ Emptying.Moving (owners argv.length) t → t ≠ .main ∧ Started argv.length t :=
    fun t ⟨main,moving⟩ => ⟨main,owners_started main moving⟩
  by_cases atm : ∃ i, u = .atm i
  · obtain ⟨i,rfl⟩ := atm
    obtain ⟨d₀,_,reached,_,_,_,ended⟩ := Finishing.atms_end distinct under left fun i first last => by
      simp [owners,first,last]
    exact ⟨d₀,reached.mono wider,ended i (started i rfl).1 (started i rfl).2⟩
  · have collector : u = .accounts_print ∨ u = .fee_collection := by
      cases u <;> simp_all
    obtain ⟨d₀,_,_,reached,under',_,calm⟩ := Emptying.emptied distinct under left
    have still : d₀.shared.progress = false :=
      (flag_stays (fun _ moves => moves.1) reachable reached).trans (stopped.resolve_left atm)
    obtain ⟨e₀,lone,ended⟩ := Finishing.collector_ends distinct under'.reachable collector (fun t _ => calm t) still
    refine ⟨e₀,(reached.mono wider).trans (lone.reached.mono ?_),ended⟩
    rintro _ rfl
    exact ⟨other,started⟩

theorem waits_end (distinct : ∀ i, ∀ cmd ∈ BankProgram.files argv v i, Distinct cmd) (reachable : Reachable argv v results rand c)
    (running : c.shared.2.status = none) (waits : Waits argv.length c u) :
    ∃ d, (program argv v).ReachesBy (· ≠ .main) c d ∧ d.shared.2.status = none ∧ d.shared.1.exited u = true := by
  obtain ⟨c₀,reachable₀,sim,_⟩ := teardown_holds reachable
  obtain ⟨d₀,reached,ended⟩ := bank_ends distinct reachable₀ waits.other waits.started (by rw [← sim.shared]; exact waits.stopped)
  have prompts : ∀ t, t ≠ .main ∧ Started argv.length t → Prompt (bank argv.length) (process argv v) May (Beside argv v)
      (Running argv.length) (size argv t) t := fun t who => prompt who.1 who.2
  obtain ⟨d,reached',sim',running'⟩ := keeps_up prompts reached sim ⟨running,waits.created⟩
  exact ⟨d,reached'.mono fun t who => who.1,running'.1,by rw [sim'.shared]; exact ended⟩

/-! ### The return -/

/-- A step of `main` ends no thread and leaves the maps as they are. -/
theorem alone_kept (reachable : Reachable argv v results rand c) (ended : AllEnded argv.length c.shared.1)
    (stepped : (program argv v).step c .main = some d) : AllEnded argv.length d.shared.1 ∧
      (d.shared.1.map_of_accounts,d.shared.1.map_of_deleted_accounts) =
        (c.shared.1.map_of_accounts,c.shared.1.map_of_deleted_accounts) := by
  obtain ⟨_,_,_,V,_,follows⟩ := teardown_holds reachable
  rcases step_cases stepped with ⟨_,_,_,_,rfl⟩ | ⟨a,next,r,s,at_,ran,rfl⟩
  · exact ⟨ended,rfl⟩
  have ok := follows_permits (follows .main) (Prog.action_eq_some.mpr ⟨next,at_⟩)
  cases a with
  | inl a =>
    obtain ⟨_,did,_⟩ := run_low ran
    have did : run .main a c.shared.1 = some (r,s.1) := did
    obtain ⟨_,_,⟨u,rfl⟩ | rfl⟩ := ok
    · obtain ⟨_,same⟩ := Option.ite_none_right_eq_some.mp did
      have same : s.1 = c.shared.1 := (congrArg Prod.snd (Option.some.inj same)).symm
      exact ⟨by rw [same]; exact ended,by rw [same]⟩
    · have same : s.1 = { c.shared.1 with progress := false } := (congrArg Prod.snd (Option.some.inj did)).symm
      exact ⟨by rw [same]; exact ended,by rw [same]⟩
  | inr x =>
    obtain ⟨_,_,same⟩ := run_extra ran
    exact ⟨by rw [same]; exact ended,by rw [same]⟩

/-- `main` takes the bank down when all others have ended, and every ATM once. -/
theorem late_ended (reachable : Reachable argv v results rand c) (at_ : (c.thread .main).prog = .ret point) (late : Late point) :
    AllEnded argv.length c.shared.1 ∧ ∀ it, point = .free_atms it → it.length ≤ argv.length := by
  obtain ⟨_,_,_,V,inv,follows⟩ := teardown_holds reachable
  have looped := follows .main
  rw [at_,follows_ret] at looped
  cases point with
  | free_atms it =>
    obtain ⟨maps,closing⟩ := looped
    refine ⟨(inv.closed maps closing.closed).1,?_⟩
    rintro _ ⟨⟩
    have all := congrArg List.length closing.freed_atms
    simp only [List.length_append,ids,List.length_range'] at all
    omega
  | free_accounts it | free_deleted_accounts it =>
    obtain ⟨maps,_,_,freeing,_⟩ := looped
    exact ⟨(inv.closed maps freeing.closed).1,by simp⟩
  | _ => exact late.elim
theorem short_list (reachable : Reachable argv v results rand c) (at_ : (c.thread .main).prog = .ret point) :
    ∀ it, point = .free_atms it → it.length ≤ argv.length := by
  rintro it rfl
  exact (late_ended reachable at_ trivial).2 it rfl

/-- When all others have ended, `main` returns. -/
theorem main_returns (fair : Fair argv results) {k : Nat} {maps : Maps} (reachable : Reachable argv v results rand c)
    (ended : AllEnded argv.length c.shared.1) (same : (c.shared.1.map_of_accounts,c.shared.1.map_of_deleted_accounts) = maps)
    (owes : Owes (said (some maps)) (left argv.length maps) k (c.thread .main).prog) :
    ∃ d, (program argv v).Reaches c d ∧ d.shared.2.status ≠ none := by
  induction k using Nat.strong_induction_on generalizing c with
  | h k fewer =>
    by_cases exits : c.shared.2.status ≠ none
    · exact ⟨c,⟨[],rfl⟩,exits⟩
    have running : c.shared.2.status = none := not_not.mp exits
    cases stepped : (program argv v).step c .main with
    | none =>
      obtain ⟨u,waits⟩ := main_blocked reachable running stepped
      have under_way := waits.under_way
      rw [ended u waits.other waits.started] at under_way; cases under_way
    | some d =>
      have paced : Paced (program argv v) (said (some maps)) (left argv.length maps) c .main :=
        fun point p at_ started => round_owes fair started (short_list reachable at_) fun _ => rfl
      have answered : Answers (program argv v) (said (some maps)) .main c.shared :=
        fun a r s' ran => answers (fine_holds fair reachable) (by rintro _ ⟨⟩; exact same) ran
      obtain ⟨j,less,owes'⟩ := owes_step paced answered owes stepped
      obtain ⟨ended',same'⟩ := alone_kept reachable ended stepped
      obtain ⟨e,reached,exits⟩ := fewer j less (reachable.step stepped) ended' (same'.trans same) owes'
      exact ⟨e,Machine.Reaches.trans ⟨[.main],by simp [Machine.runs,stepped]⟩ reached,exits⟩

/-- All others end: `main` comes to a join, or past it when the thread has ended. -/
theorem others_ended (fair : Fair argv results) (distinct : ∀ i, ∀ cmd ∈ BankProgram.files argv v i, Distinct cmd) {k : Nat} {maps : Maps}
    (reachable : Reachable argv v results rand c) (owes : Owes (said none) (left argv.length maps) k (c.thread .main).prog) :
    ∃ d, (program argv v).Reaches c d ∧ (d.shared.2.status ≠ none ∨ AllEnded argv.length d.shared.1) := by
  induction k using Nat.strong_induction_on generalizing c with
  | h k fewer =>
    by_cases exits : c.shared.2.status ≠ none
    · exact ⟨c,⟨[],rfl⟩,.inl exits⟩
    by_cases ended : AllEnded argv.length c.shared.1
    · exact ⟨c,⟨[],rfl⟩,.inr ended⟩
    have running : c.shared.2.status = none := not_not.mp exits
    -- Where `main` can step.
    have goes_on : ∀ {c' d : Config}, (program argv v).Reaches c c' → ¬ AllEnded argv.length c'.shared.1 →
        Owes (said none) (left argv.length maps) k (c'.thread .main).prog → (program argv v).step c' .main = some d →
        ∃ d, (program argv v).Reaches c d ∧ (d.shared.2.status ≠ none ∨ AllEnded argv.length d.shared.1) := by
      intro c' d reached under_way owes stepped
      have reachable' := reachable.trans reached
      have paced : Paced (program argv v) (said none) (left argv.length maps) c' .main :=
        fun point p at_ started => round_owes fair started (short_list reachable' at_)
          fun late => absurd (late_ended reachable' at_ late).1 under_way
      have answered : Answers (program argv v) (said none) .main c'.shared :=
        fun a r s' ran => answers (fine_holds fair reachable') (by simp) ran
      obtain ⟨j,less,owes'⟩ := owes_step paced answered owes stepped
      obtain ⟨e,reached',goal⟩ := fewer j less (reachable'.step stepped) owes'
      exact ⟨e,(reached.step stepped).trans reached',goal⟩
    cases stepped : (program argv v).step c .main with
    | some d => exact goes_on ⟨[],rfl⟩ ended owes stepped
    | none =>
      obtain ⟨u,waits⟩ := main_blocked reachable running stepped
      obtain ⟨d,reached,running',exited⟩ := waits_end distinct reachable running waits
      by_cases ended' : AllEnded argv.length d.shared.1
      · exact ⟨d,reached.reaches,.inr ended'⟩
      have still : d.thread .main = c.thread .main := by
        obtain ⟨schedule,among,ran⟩ := reached
        exact runs_frame ran fun member => among _ member rfl
      cases stepped' : (program argv v).step d .main with
      | some e => exact goes_on reached.reaches ended' (still ▸ owes) stepped'
      | none =>
        obtain ⟨w,waits'⟩ := main_blocked (reachable.trans reached.reaches) running' stepped'
        have same : w = u := by
          have acts := waits'.acts
          rw [still] at acts
          rcases waits.acts with is | is <;> simp [is] at acts <;> exact acts.symm
        have under_way := waits'.under_way
        rw [same,exited] at under_way; cases under_way

/-- Where its arguments name files, no call of pthreads fails and no transfer names one account twice, the
    program can return from `main` from every state that it can reach. -/
theorem can_return (fair : Fair argv results) (distinct : ∀ i, ∀ cmd ∈ BankProgram.files argv v i, Distinct cmd)
    (reachable : Reachable argv v results rand c) : ∃ d, (program argv v).Reaches c d ∧ d.shared.2.status = some 0 ∧
      Returned argv.length (BankProgram.files argv v) d := by
  obtain ⟨k,owes⟩ := left_some reachable argv.length (.empty,.empty) none
  obtain ⟨d,reached,goal⟩ := others_ended fair distinct reachable owes
  have reachable' := reachable.trans reached
  obtain ⟨e,reached',exits⟩ : ∃ e, (program argv v).Reaches d e ∧ e.shared.2.status ≠ none := by
    rcases goal with exits | ended
    · exact ⟨d,⟨[],rfl⟩,exits⟩
    · obtain ⟨j,owes'⟩ := left_some reachable' argv.length _ (some _)
      exact main_returns fair reachable' ended rfl owes'
  have reachable'' := reachable'.trans reached'
  obtain ⟨status,exits⟩ := Option.ne_none_iff_exists'.mp exits
  refine ⟨e,reached.trans reached',?_⟩
  rcases exit_status reachable'' exits with ⟨rfl,returned⟩ | ⟨_,failed⟩
  · exact ⟨exits,returned⟩
  · obtain ⟨message,_,wrote⟩ := failed.cerr
    rw [(fine_holds fair reachable'').cerr] at wrote; cases wrote

theorem one_file_distinct : ∀ i, ∀ cmd ∈ BankProgram.files one_file (fun _ => ⟨0,0,[],0,0⟩) i, Distinct cmd := by
  intro i cmd member
  match i with
  | 0 => simp [BankProgram.files,text,CommandLines.commands,getlines,performed] at member
  | 1 =>
    have only : BankProgram.files one_file (fun _ => ⟨0,0,[],0,0⟩) 1 = [.create_account 1 "p" 9] := by decide
    rw [only] at member
    rw [List.mem_singleton.mp member]
    trivial
  | i + 2 => simp [BankProgram.files,text,one_file,CommandLines.commands,getlines,performed] at member
theorem can_return_day : ∃ d, (program one_file fun _ => ⟨0,0,[],0,0⟩).Reaches ((day 20).get day_begins) d ∧ d.shared.2.status = some 0 ∧
    Returned 1 (BankProgram.files one_file fun _ => ⟨0,0,[],0,0⟩) d :=
  can_return ⟨by decide,by decide,fun _ => rfl⟩ one_file_distinct (reachable_get day_begins)

end StructureOfOs.Returning
