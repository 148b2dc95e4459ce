import Fleet.Proofs.Inevitable
import Fleet.Proofs.Pass

/-!
# What a pass finds

Before it carries anything out a pass only looks: at the containers of its dependencies and
then at those of its service. What it makes of them is decided when they have been listed,
so statements about what is bound to happen go by way of that moment.

`Pass.BoundFor` says that a moment is bound to come. It leaves open what happens then: if
something is bound to happen from there, it is bound to happen (`BoundFor.inevitable`), and
if something is bound to happen at all, it is from there (`Inevitable.exists_of_boundFor`).
So the way to the listing is gone only once, for what passes are bound to do and for what
they are not.

All that is used of the world on this way is that what is looked at is what there is, and
that nobody ends the work. Any fact that implies this will do (`Sees`), and it is known
still at the end of the way.

## Main definitions

* `Pass.BoundFor`: Whichever moves are made, a pass comes to a certain moment.
* `Sees`: What is looked at is what is in a list of containers.

## Theorems

* `takeListing_sees`: A turn of the listing goes on or brings what there is.
* `boundFor_listed`: A pass is bound to come to an end with its listing.
-/

namespace Fleet

variable {ρ : Type}

namespace Pass

/-- Whichever enabled moves are made, a pass comes to a moment at which a fact holds. -/
inductive BoundFor (E : Engine ρ) (Q : Pass → Site ρ → Prop) : Pass → Site ρ → Prop
  -- The moment has come.
  | here {pass : Pass} {site : Site ρ} : Q pass site → BoundFor E Q pass site
  -- The pass goes on, and every way it can go leads there.
  | later {pass : Pass} {site : Site ρ} : (∃ move, pass.Enabled move) →
    (∀ move, pass.Enabled move →
      BoundFor E Q (pass.step E move site).1 (pass.step E move site).2) →
    BoundFor E Q pass site

variable {E : Engine ρ} {P : Except Error Unit → Site ρ → Prop} {Q : Pass → Site ρ → Prop}
  {pass : Pass} {site : Site ρ}

/-- What is bound to happen from a moment that is bound to come is bound to happen. -/
theorem BoundFor.inevitable (h : BoundFor E Q pass site)
    (hQ : ∀ pass site, Q pass site → Inevitable E P pass site) : Inevitable E P pass site := by
  induction h with
  | here hnow => exact hQ _ _ hnow
  | later hmove _ ih => exact .later hmove ih

/-- What is bound to happen is so at some moment that is bound to come. -/
theorem Inevitable.exists_of_boundFor (hbound : Inevitable E P pass site)
    (h : BoundFor E Q pass site) :
    ∃ pass site, Q pass site ∧ Inevitable E P pass site := by
  induction h with
  | here hnow => exact ⟨_, _, hnow, hbound⟩
  | later hmove _ ih =>
      rcases hmove with ⟨move, henabled⟩
      cases hbound with
      | ended result hresult _ => exact absurd henabled (not_enabled_of_result hresult move)
      | later _ hrest => exact ih move henabled (hrest move henabled)

end Pass

/-- A fact about the world with which what is looked at is what is in a list of containers, and the
    work is not ended. -/
structure Sees (E : Engine ρ) (cs : List Container) (P : ρ → Prop) : Prop where
  kept : KeptByLooking E P
  lists : ∀ w filter, P w → (E.call (.list filter) w).1 =
    .ok ((cs.filter fun c => filter.accepts c.labels).map (·.summary))
  inspects : ∀ w id c, P w → cs.find? (·.id = id) = some c →
    (E.call (.inspect id) w).1 = .ok c.details
  going : ∀ w, P w → E.cancelled w = false

/-- Containers that nothing has happened to are seen. -/
theorem intact_sees (H : Host ρ) (b : Brief) (cs : List Container) :
    Sees H.engine cs (Intact H b True cs) where
  kept := intact_keptByLooking
  lists w filter h := by
    rcases h.lists filter with ⟨hlists, hok⟩
    rcases hok trivial with ⟨l, hl⟩
    rw [hl, hlists l hl]
  inspects w id c h hfind := by
    rcases h.sound.peace trivial with ⟨hpeaceful, hpending⟩
    rw [(H.call_peaceful _ w hpeaceful).2.1, Store.call_of_pending_none (by rw [hpending])]
    simp only [Store.serve, Store.container?, Store.logged, h.containers, hfind]
  going w h := H.not_cancelled w (h.sound.peace trivial).1

/-! ### Listing -/

namespace Pass

variable {E : Engine ρ} {cs : List Container} {P : ρ → Prop} {pass : Pass}

/-- A turn of the listing goes on, or brings what there is. -/
theorem takeListing_sees (hP : Sees E cs P) (pass : Pass) (started : Bool)
    {errand : Errand (List Summary)} {w : ρ} (h : P w)
    (hbears : errand.Bears fun answer => answer = .ok ((pass.listed cs).map (·.summary))) :
    let next := pass.takeListing E started errand w
    P next.2 ∧ ((∃ waiting errand', next.1 = .listing true waiting errand' ∧
        errand'.Bears fun answer => answer = .ok ((pass.listed cs).map (·.summary))) ∨
      next.1 = pass.afterListing ((pass.listed cs).map (·.summary))) := by
  have hkept := Errand.resume_keeps hP.kept (q := .list pass.filter) rfl errand h
  have hbrings := Errand.resume_brings E (.list pass.filter) hbears (hP.lists w pass.filter h)
  have hturn : guarded E.cancelled (listingTurn E pass) started errand w =
      listingTurn E pass errand w := by
    rcases Group.guarded_cases E.cancelled (listingTurn E pass) started errand w with
      heq | ⟨_, hcancelled⟩ | ⟨_, hcancelled⟩
    · exact heq
    · rw [hP.going w h] at hcancelled
      cases hcancelled
    · exact absurd ((hP.going _ hkept).symm.trans hcancelled) Bool.false_ne_true
  rw [takeListing_eq, hturn, listingTurn]
  rcases hresult : Errand.resume E (.list pass.filter) errand w with ⟨turn, w'⟩
  rw [hresult] at hkept hbrings
  cases turn with
  | yielded errand' => exact ⟨hkept, Or.inl ⟨false, errand', rfl, hbrings⟩⟩
  | asleep errand' => exact ⟨hkept, Or.inl ⟨true, errand', rfl, hbrings⟩⟩
  | finished answer =>
      refine ⟨hkept, Or.inr ?_⟩
      rw [show answer = .ok ((pass.listed cs).map (·.summary)) from hbrings]
      rfl

/-- The turns a listing has until its request, one more if it waits for the answer. -/
def listingLag (pauses : Nat) (waiting : Bool) (errand : Errand (List Summary)) : Nat :=
  if waiting then errand.wake.lag pauses + 1 else errand.lag pauses

/-- A turn of the listing that leads to another one makes the request, or uses up a turn and leaves
    the world alone. -/
theorem takeListing_descends {started waiting : Bool} {errand errand' : Errand (List Summary)}
    {w : ρ} (h : (pass.takeListing E started errand w).1 = .listing true waiting errand') :
    errand'.owes < errand.owes ∨ (errand'.owes ≤ errand.owes ∧
      (pass.takeListing E started errand w).2 = w ∧
      listingLag (E.pauses w) waiting errand' < errand.lag (E.pauses w)) := by
  have huses := Errand.resume_uses E (.list pass.filter) errand w
  rw [takeListing_eq] at h ⊢
  rcases Group.guarded_cases E.cancelled (listingTurn E pass) started errand w with
    heq | ⟨heq, _⟩ | ⟨heq, _⟩
  · rw [heq, listingTurn] at h ⊢
    rcases hresult : Errand.resume E (.list pass.filter) errand w with ⟨turn, w'⟩
    rw [hresult] at h huses
    simp only at huses ⊢
    cases turn with
    | yielded errand'' =>
        cases h
        rcases huses with hless | ⟨hle, rfl, hless⟩
        · exact Or.inl hless
        · exact Or.inr ⟨hle, rfl, hless⟩
    | asleep errand'' =>
        cases h
        rcases huses with hless | ⟨hle, rfl, hless⟩
        · exact Or.inl hless
        · exact Or.inr ⟨hle, rfl, hless⟩
    | finished answer =>
        cases answer with
        | error cause => cases h
        | ok l =>
            simp only [Turn.map, heard, afterListing] at h
            split at h
            · cases h
            · unfold afterJobs at h
              split at h
              · cases h
              · cases h
  · rw [heq] at h
    cases h
  · rw [heq] at h
    cases h

/-- The moment at which a pass has listed its containers, with what it makes of them. -/
def HasListed (cs : List Container) (P : ρ → Prop) (pass pass' : Pass) (site : Site ρ) : Prop :=
  pass' = { pass with stage := pass.afterListing ((pass.listed cs).map (·.summary)) } ∧
    P site.world

/-- A pass that lists its containers is bound to come to an end with it. -/
theorem boundFor_listed (hP : Sees E cs P) (pass : Pass) (started waiting : Bool)
    (errand : Errand (List Summary)) (site : Site ρ) (h : P site.world)
    (hbears : errand.Bears fun answer => answer = .ok ((pass.listed cs).map (·.summary))) :
    BoundFor E (HasListed cs P pass) { pass with stage := .listing started waiting errand }
      site := by
  have hall := descend
    (fun x : Bool × Bool × Errand (List Summary) × Site ρ => x.2.2.1.owes)
    (fun x => listingLag (E.pauses x.2.2.2.world) x.2.1 x.2.2.1)
    (P := fun x => P x.2.2.2.world →
      x.2.2.1.Bears (fun answer => answer = .ok ((pass.listed cs).map (·.summary))) →
      BoundFor E (HasListed cs P pass) { pass with stage := .listing x.1 x.2.1 x.2.2.1 }
        x.2.2.2) ?_
  · exact hall (started, waiting, errand, site) h hbears
  rintro ⟨started, waiting, errand, site⟩ ih h hbears
  simp only at h hbears ih ⊢
  -- The listing has left to make its request, to give up turns, or to be woken.
  refine .later ?_ ?_
  · cases waiting with
    | true => exact ⟨.fire, rfl⟩
    | false => exact ⟨.poll 0, rfl⟩
  intro move hmove
  cases move with
  | cancel => exact hmove.elim
  | fire =>
      have hwaiting : waiting = true := hmove
      refine ih (started, false, errand.wake, site) (Or.inr ⟨?_, ?_⟩) h
        (Errand.bears_wake.mpr hbears)
      · cases errand <;> exact Nat.le_refl _
      · rw [hwaiting]
        exact Nat.lt_succ_self _
  | poll place =>
      have hwaiting : waiting = false := hmove
      simp only [step]
      rcases takeListing_sees hP { pass with stage := .listing started waiting errand } started h
        hbears with ⟨hkept, ⟨waiting', errand', heq, hbears'⟩ | heq⟩
      · rw [heq]
        refine ih (true, waiting', errand', { site with world := _ }) ?_ hkept hbears'
        rw [hwaiting]
        rcases takeListing_descends heq with hless | ⟨hle, hw, hless⟩
        · exact Or.inl hless
        · exact Or.inr ⟨hle, hw.symm ▸ hless⟩
      · rw [heq]
        exact .here ⟨rfl, hkept⟩

end Pass

end Fleet
