import StructureOfOs.JobLists

/-!
No process is tracked twice. `Fg_Proccss_Pid` stays set to a child that has finished long
ago, and a ctrl-Z may enter that old pid into the list again; but whenever the shell waits,
it is no job's pid, so what is entered is new to the list.
-/
namespace StructureOfOs.TrackedPids
open StructureOfOs.Programs StructureOfOs.Jobs StructureOfOs.Smash StructureOfOs.ShellFollows StructureOfOs.JobLists

/-- If fork returns new pids only, no two jobs have one pid in any state, and at the prompt the
    foreground process has no job. -/
theorem no_pid_twice (smash_pid : Pid) (coming : List Answer) (c : Config) (fresh : Fresh smash_pid coming)
    (reached : Reachable smash_pid coming c) :
    (pids c.shared.vars.jobs).Nodup ∧
      (AtPrompt c → c.shared.vars.Fg_Proccss_Pid ≠ smash_pid → c.shared.vars.Fg_Proccss_Pid ∉ pids c.shared.vars.jobs) := by
  obtain ⟨x,steady,follows⟩ := reachable_steady reached
  have tracks := steady.tracks fresh
  rw [steady.vars]
  constructor
  · exact tracks.distinct
  · intro prompt away
    have rest := holds_at_prompt follows prompt
    exact tracks.front (by rw [rest.entry]; nofun) away

/-- Two commands that ctrl-Z stops. fg waits for the second, which stays in the foreground variable. -/
def returning : List Answer :=
  [.typed (.line (.external "cat" false)),.forked (some 7),.pressed [.ctrl_z],.killed true,.now 0,.waited 7,
    .typed (.line (.external "less" false)),.waited 0,.forked (some 8),.pressed [.ctrl_z],.killed true,.now 1,.waited 0,.waited 8,
    .typed (.line (.fg [])),.waited 0,.waited 0,.freed "less",.killed true,.pressed [],.waited 8,.freed "less"]
theorem returning_ends : (after 1 returning 51).isSome = true := by decide
theorem no_pid_twice_returning :
    (pids ((after 1 returning 51).get returning_ends).shared.vars.jobs).Nodup ∧
      ((after 1 returning 51).get returning_ends).shared.vars.Fg_Proccss_Pid ∉
        pids ((after 1 returning 51).get returning_ends).shared.vars.jobs := by
  obtain ⟨distinct,apart⟩ := no_pid_twice 1 returning _ ⟨by decide,by decide⟩ (reachable_after 1 returning_ends)
  exact ⟨distinct,apart (.inl rfl) (by decide)⟩

end StructureOfOs.TrackedPids
