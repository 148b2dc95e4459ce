import Fleet.Proofs.Around
import Fleet.Proofs.Origin
import Fleet.Proofs.Reachable
import Fleet.Proofs.Sample

/-!
# Who is on the networks

A container is attached to the networks of its service on its way up, between being
created and being started, and at no other time. So a container that was created by a
pass that then failed, or was broken off, may be without them, and nothing in a later
pass sees it: its fingerprint is the present one, so it is not replaced, and one that
does not run is only started.

What a successful pass leaves behind is therefore as well attached as what it kept. The
containers it creates and those it puts in the place of others have every network; those
it keeps as they are, or starts, have the ones they had.

## Main definitions

* `Container.Attached`: A container is on all networks of its service.

## Theorems

* `attached_risen`: A container that a pass brings up is on all networks.
* `attached_iff`: After a successful pass all containers are on all networks if and only
  if those it kept were.
* `not_attached_sample`: A successful pass that leaves a container without a network.
-/

namespace Fleet

variable {ρ : Type}

/-- A container is on all networks of its service, under the name of the service. -/
def Container.Attached (project : Project) (service : Service) (c : Container) : Prop :=
  ∀ network ∈ service.networks, (networkName project.name network, [service.name]) ∈ c.networks

namespace Pass

variable {pass : Pass} {s : Store}

/-- A container that a pass brings up is on all networks. -/
theorem attached_risen (pass : Pass) (s : Store) (number : Nat) (id : String) :
    (Container.risen (pass.brief s) number id).Attached pass.project pass.service :=
  fun _ hnetwork => List.mem_map_of_mem hnetwork

/-- After a successful pass all containers of the service are on all its networks if and only if
    those were that the pass kept without replacing them. New containers are in any case. -/
theorem attached_of_reached {H : Host ρ} {fair : Prop} {site : Site ρ}
    (h : Reached H fair s pass site) (hok : pass.result? = some (.ok ())) :
    ((∀ c ∈ ofService pass.project pass.service (H.store site.world).containers,
        c.Attached pass.project pass.service) ↔
      ∀ c ∈ pass.kept s.containers, pass.replaces c = false →
        c.Attached pass.project pass.service) ∧
    ∀ d ∈ ofService pass.project pass.service (H.store site.world).containers,
      (∀ c ∈ s.containers, c.id ≠ d.id) → d.Attached pass.project pass.service := by
  have hrenders := renders_of_reached h hok
  -- A container of the service has been kept, or has come up in the pass.
  have horigin : ∀ d ∈ ofService pass.project pass.service (H.store site.world).containers,
      (∃ c ∈ pass.kept s.containers, pass.replaces c = false ∧ d = { c with state := .running }) ∨
        d.Attached pass.project pass.service := by
    intro d hd
    rcases List.mem_filter.mp hd with ⟨hmem, haccepts⟩
    rcases hrenders.origin d hmem with hout | hkept | ⟨number, fresh, _, rfl⟩
    · have hnot := (List.mem_filter.mp hout).2
      have hown : pass.filter.accepts d.labels = true := haccepts
      rw [hown] at hnot
      cases hnot
    · exact Or.inl hkept
    · exact Or.inr (attached_risen pass s number fresh)
  refine ⟨⟨fun hall c hkept hreplaces => ?_, fun hkept d hd => ?_⟩, fun d hd hnew => ?_⟩
  · exact hall { c with state := .running } (List.mem_filter.mpr
      ⟨hrenders.spared c hkept hreplaces, (mem_listed.mp (mem_listed_of_kept hkept)).2⟩)
  · rcases horigin d hd with ⟨c, hc, hnot, rfl⟩ | hattached
    · exact hkept c hc hnot
    · exact hattached
  · rcases horigin d hd with ⟨c, hc, _, rfl⟩ | hattached
    · exact absurd rfl (hnew c (Renders.mem_of_kept hc))
    · exact hattached

/-- After a successful pass on a store that passes over the service have led to, all containers of
    the service are on all its networks if and only if those were that the pass kept without
    replacing them. Those that the pass has created, in place of others or not, are in any case. -/
theorem attached_iff (H : Host ρ) (project : Project) (service : Service) (grace : Option Nat)
    (marks : Marks) (site : Site ρ) (hcalm : H.calm site.world)
    (hreachable : Reachable project service.name (H.store site.world)) (moves : List Move)
    (hok : (play H.engine moves (start project service grace marks) site).1.result? =
      some (.ok ())) :
    let pass := start project service grace marks
    let cs := (H.store site.world).containers
    let after := (H.store (play H.engine moves pass site).2.world).containers
    ((∀ c ∈ ofService project service after, c.Attached project service) ↔
      ∀ c ∈ pass.kept cs, pass.replaces c = false → c.Attached project service) ∧
    ∀ d ∈ ofService project service after, (∀ c ∈ cs, c.id ≠ d.id) →
      d.Attached project service := by
  intro pass cs after
  have hreached := reached_of_distinct H.forgetful project service grace marks site moves hcalm
    (homely_of_reachable hreachable).tidy.toDistinct fun s hs => absurd hs List.not_mem_nil
  have hattached := attached_of_reached hreached hok
  rw [play_fields] at hattached
  exact hattached

end Pass

/-! ### A container with its network, and one without -/

namespace Sample

/-- The service with a network. -/
def networked : Service := { service with networks := ["front"] }

/-- The store after a pass whose new container could not be attached. -/
def detached : Store :=
  (Pass.play Store.host.engine [.poll 0, .poll 0] (.start project networked none .none)
    ⟨Store.empty.failNext .connect "no such network", .fresh, false⟩).2.world

theorem reachable_detached : Reachable project networked.name detached :=
  .pass Store.host networked none .none ⟨Store.empty.failNext .connect "no such network", .fresh,
    false⟩ [.poll 0, .poll 0] rfl trivial (.expecting _ .empty)

/-- A pass over that store, after its two moves. -/
def restarted : Pass × Site Store :=
  Pass.play Store.host.engine [.poll 0, .poll 0] (.start project networked none .none)
    ⟨detached, .fresh, false⟩

theorem reachable_restarted : Reachable project networked.name restarted.2.world := by
  have hstore : ∀ s, Store.host.store s = s := fun _ => rfl
  have hreachable := Reachable.pass Store.host networked none .none ⟨detached, .fresh, false⟩
    [.poll 0, .poll 0] rfl trivial reachable_detached
  rw [hstore] at hreachable
  rw [restarted]
  exact hreachable

set_option maxRecDepth 100000 in
/-- The container is started as it is, and the pass reports success. -/
theorem restarted_ok : (restarted.1.result?.any (·.isOk) &&
    restarted.2.world.containers.map (·.networks) == [[]]) = true := by
  decide +kernel

end Sample

section Samples

open Sample

/-- A container that a pass creates is on its network. -/
theorem attached_sample :
    let after := Pass.play Store.host.engine [.poll 0, .poll 0]
      (.start project networked none .none) ⟨.empty, .fresh, false⟩
    after.1.result? = some (.ok ()) ∧
      ∀ c ∈ ofService project networked after.2.world.containers, c.Attached project networked :=
  ⟨rfl, (Pass.attached_iff Store.host project networked none .none ⟨.empty, .fresh, false⟩ trivial
    .empty [.poll 0, .poll 0] rfl).1.mpr fun _ hc => absurd hc List.not_mem_nil⟩

/-- A pass that could not attach its new container leads to a store on which the next pass reports
    success, although the container is not on its network. -/
theorem not_attached_sample :
    Reachable project networked.name detached ∧ restarted.1.result? = some (.ok ()) ∧
    ¬∀ c ∈ ofService project networked restarted.2.world.containers,
      c.Attached project networked := by
  rcases Bool.and_eq_true_iff.mp restarted_ok with ⟨hok, hnetworks⟩
  refine ⟨reachable_detached, eq_ok_of_isOk hok, ?_⟩
  · intro hall
    rcases List.map_eq_singleton_iff.mp (eq_of_beq hnetworks) with ⟨c, hc, hnone⟩
    have hmem : c ∈ restarted.2.world.containers := by
      rw [hc]
      exact List.mem_singleton_self c
    have hown := ((homely_of_reachable reachable_restarted).native c hmem).own
    have hattached := hall c (List.mem_filter.mpr ⟨hmem, hown⟩) "front" (List.mem_singleton_self _)
    rw [hnone] at hattached
    exact absurd hattached List.not_mem_nil

end Samples

end Fleet
