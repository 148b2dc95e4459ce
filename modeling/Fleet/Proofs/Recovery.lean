import Fleet.Proofs.OpenGates
import Fleet.Proofs.Reachable

/-!
# Trying again

What has gone wrong in a pass is left to the next one. Trying again is bound to help if,
under every order of moves, a pass succeeds or leads to a store from which trying again
is bound to help, and one of finitely many passes succeeds.

From a store that passes have led to, one pass is enough as long as no two containers
clash: whatever was left half done is then finished by it, a container that is out of the
way and one that was created but not started included.

## Main definitions

* `RecoversWithin`: So many passes are bound to see one that succeeds.

## Theorems

* `recovers_of_not_clash`: Without a clash one pass is enough.
-/

namespace Fleet

/-- Whatever runs the passes and under every order of moves, one of that many passes in a row is
    bound to succeed. -/
def RecoversWithin (project : Project) (service : Service) (grace : Option Nat) (marks : Marks) :
    Nat → Store → Prop
  | 0, _ => False
  | n + 1, s => ∀ (ρ : Type) (H : Host ρ) (site : Site ρ), H.peaceful site.world →
      H.store site.world = s →
      Pass.Inevitable H.engine (fun result after => result = .ok () ∨
        RecoversWithin project service grace marks n (H.store after.world))
        (.start project service grace marks) site

/-- Without a clash one pass is bound to succeed, as long as gates are open and numbers are left. -/
theorem recovers_of_not_clash {project : Project} {service : Service} {grace : Option Nat}
    {marks : Marks} {s : Store} (hhomely : Homely project.name service.name s)
    (hpending : s.pending = fun _ => none)
    (hopens : ∀ dependency ∈ service.healthDependencies, Opens project.name dependency s.containers)
    (hroom : Numbering.Room s.containers service.desiredScale)
    (hfree : ¬(Pass.start project service grace marks).Clash s.containers) :
    RecoversWithin project service grace marks 1 s := by
  rintro ρ H site hpeaceful rfl
  have hlisted : (Pass.start project service grace marks).listed (H.store site.world).containers =
      (H.store site.world).containers := hhomely.listed_eq
  have hregular : ∀ c ∈ (Pass.start project service grace marks).listed
      (H.store site.world).containers, c.Regular project.name service.name :=
    fun c hc => (hhomely.native c (Pass.mem_listed.mp hc).1).toRegular
  rcases Pass.planFor_complete hregular (hlisted.symm ▸ hroom) with ⟨plan, hplan⟩
  have houtside : (Pass.start project service grace marks).outside
      (H.store site.world).containers = [] := hhomely.outside_eq
  have hfit := Pass.fit_of_not_clash hplan hhomely.tidy.ids_nodup hregular hfree fun c hc => by
    rw [houtside] at hc
    exact absurd hc List.not_mem_nil
  have hintact : Intact H.forgetful ((Pass.start project service grace marks).brief
      (H.store site.world)) True (H.store site.world).containers site.world :=
    Pass.intact_of_distinct (H.calm_of_peaceful _ hpeaceful) hhomely.tidy.toDistinct
      (fun s hs => absurd hs List.not_mem_nil) fun _ => ⟨hpeaceful, hpending⟩
  exact (Pass.inevitable_start project service grace marks hplan hfit hopens hintact).imp
    fun _ _ hsucceeds => Or.inl hsucceeds.1

end Fleet
