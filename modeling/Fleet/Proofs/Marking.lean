import Fleet.Proofs.Minutes
import Fleet.Proofs.Sample
import Fleet.Proofs.Spreading

/-!
# Marks follow replacements

A pass leaves marks behind for the services that depend on its own, and it leaves them on
every way out: after a success, after a failure, and after the work has been ended. Whether it
does hangs on a flag that operations raise while others beside them may fail. So the flag is
held against the minutes of the pass. It is up if and only if a replacement has come to its
end, whatever has become of the other operations (`told_recreated`).

Marking is local. The services marked are those that depend on the one of the pass, and what
a lookup gives for any other name is what it gave before.

## Theorems

* `Pass.told_recreated`: The flag says whether a replacement is done.
* `Pass.marks_follow_replacements`: What a pass does to the marks.
-/

namespace Fleet

variable {ρ : Type}

/-- The names reached are those of services that depend on the one named. -/
theorem Marks.mem_reached {project : Project} {name key : String} :
    key ∈ reached project name ↔
      ∃ dependent ∈ project.services, dependent.needs name = true ∧ dependent.name = key := by
  simp only [reached, Project.dependentsOf, List.mem_map, List.mem_filter, and_assoc]

namespace Pass

/-- The flag says whether a replacement is done. -/
theorem told_recreated {Heard : Except RuntimeError (List Summary) → ρ → Prop} {pass : Pass}
    {before site : Site ρ} {past : List Bout} {stage : Stage}
    (h : Told Heard pass before past stage site) :
    site.recreated = true ↔ before.recreated = true ∨ ∃ bout ∈ past, bout.Replaces := by
  rcases h.silent_or_kept with hsilent | ⟨_, _, listing, operations, _, _, hminutes⟩
  · rw [hsilent.recreated, hsilent.past]
    exact ⟨Or.inl, fun h => h.resolve_right fun ⟨_, hbout, _⟩ => List.not_mem_nil hbout⟩
  · exact hminutes.recreated

theorem remembers_nothing (E : Engine ρ) (filter : LabelFilter) :
    Remembers E filter fun _ _ => True :=
  ⟨fun _ _ _ _ => trivial, fun _ _ _ => trivial, fun _ => trivial⟩

/-- Whatever the engine does, whatever fails, whenever the work is ended and whatever the order of
    moves: if a replacement has come to its end in a pass, the marks it leaves force all services
    that depend on the service of the pass, and are as before for any other name; and if none has,
    it leaves the marks that it found. -/
theorem marks_follow_replacements (E : Engine ρ) (project : Project) (service : Service)
    (grace : Option Nat) (marks : Marks) (w : ρ) (channel : Channel) (moves : List Move) :
    let pass := start project service grace marks
    let site : Site ρ := ⟨w, channel, false⟩
    let after := play E moves pass site
    let left := after.1.marksAfter after.2
    let replaced := ∃ bout ∈ bouts E moves pass site,
      bout.fate = .ended (.ok ()) ∧ bout.job.operation.kind = .recreate
    (replaced →
      (∀ dependent ∈ project.services, dependent.needs service.name = true →
        left.find? dependent.name = some .forceRecreate) ∧
      ∀ name, (∀ dependent ∈ project.services, dependent.needs service.name = true →
        dependent.name ≠ name) → left.find? name = marks.find? name) ∧
    (¬replaced → left = marks) := by
  intro pass site after left replaced
  have htold := told_play project service grace marks (remembers_nothing E _) site moves
  have hflag : after.2.recreated = true ↔ replaced :=
    (told_recreated htold).trans ⟨fun h => h.resolve_left Bool.false_ne_true, Or.inr⟩
  have hleft : left = if after.2.recreated then marks.spread project service.name .forceRecreate
      else marks := by
    rw [show left = after.1.marksAfter after.2 from rfl,
      show after.1 = { pass with stage := after.1.stage } from play_fields E moves pass site]
    rfl
  refine ⟨fun hreplaced => ?_, fun hnone => ?_⟩
  · rw [hleft, if_pos (hflag.mpr hreplaced)]
    refine ⟨?_, ?_⟩
    · intro dependent hdependent hneeds
      rw [Marks.find?_spread, if_pos (Marks.mem_reached.mpr ⟨dependent, hdependent, hneeds, rfl⟩)]
    · intro name hname
      rw [Marks.find?_spread, if_neg]
      intro hreached
      rcases Marks.mem_reached.mp hreached with ⟨dependent, hdependent, hneeds, heq⟩
      exact hname dependent hdependent hneeds heq
  · rw [hleft, if_neg (mt hflag.mp hnone)]

-- One service depends on another, and a container of the other one is replaced.
example :
    let after := play Drill.host.engine [.poll 0, .poll 0]
      (start Sample.tiers Sample.service none Marks.none) Sample.tiersSite
    (after.1.marksAfter after.2).find? "front" = some Strategy.forceRecreate := rfl

end Pass

end Fleet
