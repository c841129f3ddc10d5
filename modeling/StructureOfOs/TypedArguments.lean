import StructureOfOs.ShellLines

/-!
What `execvp` gets. The words of a line go into an array of MAX_ARG pointers on both ways of
running it, and the NULL that ends them is there as long as a place is left for it. A line has
room for about twice as many words.
-/
namespace StructureOfOs.TypedArguments
open StructureOfOs.Streams (Text bytes string)
open StructureOfOs.CStrings StructureOfOs.ShellLines

/-- The array holds the words typed, in order, then a NULL, and any line with these words, in the
    background or not, gets this array. -/
structure AsTyped (line : Line) (e : External) : Prop where
  handed : (tokens line.text).map some ++ [none] <+: e.args
  alike : ∀ line' e', Execs line' e' → tokens line'.text = tokens line.text → e'.args = e.args

theorem padded_prefix_iff (ws : List Text) : ws.map some ++ [none] <+: padded ws ↔ ws.length < MAX_ARG := by
  constructor
  · intro handed
    have longer := handed.length_le
    have most : (padded ws).length ≤ MAX_ARG := by
      rw [padded,List.length_take]
      exact Nat.min_le_left _ _
    simp only [List.length_append,List.length_map,List.length_singleton] at longer
    exact Nat.lt_of_lt_of_le (Nat.lt_of_succ_le longer) most
  · intro room
    obtain ⟨left,all⟩ : ∃ left, MAX_ARG = ws.length + 1 + left := ⟨MAX_ARG - (ws.length + 1),by omega⟩
    refine List.prefix_take_iff.mpr ⟨?_,by simpa using Nat.succ_le_of_lt room⟩
    rw [all,Nat.add_right_comm,List.replicate_succ]
    exact ⟨List.replicate (ws.length + left) none,by simp⟩

/-- The words arrive as typed exactly when a place is left for the NULL. -/
theorem as_typed_iff (line : Line) (e : External) (execs : Execs line e) :
    AsTyped line e ↔ (tokens line.text).length < MAX_ARG := by
  have args : ∀ line' e', Execs line' e' → e'.args = padded (tokens line'.text) :=
    fun _ _ execs' => external_args (execs_iff.mp execs')
  rw [← padded_prefix_iff,← args line e execs]
  constructor
  · exact AsTyped.handed
  · intro handed
    refine ⟨handed,fun line' e' execs' same => ?_⟩
    rw [args line' e' execs',args line e execs,same]

/-- `ls -l &` -/
def listing : Line := ⟨bytes "ls -l &",by decide,by decide,by decide,by decide⟩
theorem as_typed_iff_listing : AsTyped listing ⟨padded [bytes "ls",bytes "-l"],true,bytes "ls -l &"⟩ :=
  (as_typed_iff listing _ (execs_iff.mpr (by decide))).mpr (by decide)

/-- Twenty words of one letter. -/
def crowded : Line := ⟨bytes "a a a a a a a a a a a a a a a a a a a a",by decide,by decide,by decide,by decide⟩
theorem crowded_execs : Execs crowded ⟨List.replicate 20 (some (bytes "a")),false,bytes "a"⟩ := execs_iff.mpr (by decide)
theorem crowded_unterminated : ¬ ∀ line e, Execs line e → AsTyped line e := by
  intro claimed
  have handed := (claimed crowded _ crowded_execs).handed
  exact absurd handed (by decide)

end StructureOfOs.TypedArguments
