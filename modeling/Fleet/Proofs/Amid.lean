import Fleet.Proofs.Foreign
import Fleet.Proofs.Outcome

/-!
# A pass amid others

A pass that shares its store with others cannot count on finding the containers as they
were when it began. `Pass.Reached` says of a pass which containers there are altogether, so
it does not outlive the first request of anybody else.

What a pass can count on is its own. Besides the containers of its service there are some
around it, which may be others at every moment; as long as none of them belongs to the
service and none has a name that the pass takes, the pass gets on as if they were not there.
`Pass.Amid` says where a pass stands with the containers around it left open. A move of the
pass itself keeps it with the same containers around (`amid_step`), and a move of anybody
else keeps it with others (`Amid.among`).

The two meet in the containers that a pass has in hand. They are of its service, under names
that it takes or that a container of the service had (`Pass.MayHold`), and so they are what
the others have around them.

## Main definitions

* `Pass.MayHold`: A container that a pass may have in hand.
* `Pass.Amid`: Where a pass stands among containers of others.
* `Pass.Recedes`: A move leaves a pass less to do.
* `Pass.share`: What a pass makes of the containers of its service.

## Theorems

* `Amid.among`: Others may come to be around a pass.
* `Amid.exists_hand`: What a pass has in hand.
* `amid_step`: A pass gets on with its work whatever is around it.
* `share_of_ledger`: It comes to its share.
-/

namespace Fleet

variable {ρ : Type}

namespace Pass

/-- A container that a pass may have in hand: one of its service, with a name that the pass takes or
    that a container of the service had. -/
structure MayHold (pass : Pass) (s : Store) (c : Container) : Prop where
  own : pass.filter.accepts c.labels = true
  named : c.name ∈ pass.takes s ∨ ∃ d ∈ pass.listed s.containers, d.name = c.name

/-- Where a pass that began on the store given stands, with certain containers around those of its
    service. It does not wait for others, and nothing has gone wrong. -/
def Amid (H : Host ρ) (s : Store) (missing : List Nat) (around : Multiset Container) (pass : Pass)
    (stage : Stage) (site : Site ρ) : Prop :=
  match stage with
  | .gating _ => False
  | .listing _ _ errand =>
    Sound H.forgetful (pass.brief s) True site.world ∧
      ((H.store site.world).containers : Multiset Container) =
        around + ↑(pass.listed s.containers) ∧
      errand.Bears fun answer => answer = .ok ((pass.listed s.containers).map (·.summary))
  | .working jobs => jobs.isOver = false ∧
    Ledger H.forgetful (pass.brief s) True (around + ↑(pass.idle s.containers))
      (pass.duties missing s.containers) jobs.slots jobs.failure ⟨jobs.tripped, site⟩
  | .ended result => result = .ok () ∧
    Ledger H.forgetful (pass.brief s) True (around + ↑(pass.idle s.containers))
      (pass.duties missing s.containers) 0 none ⟨false, site⟩

variable {H : Host ρ} {s : Store} {plan : Plan} {missing : List Nat}
  {around around' own : Multiset Container} {pass : Pass} {stage : Stage} {site site' : Site ρ}

/-! ### What is in hand -/

theorem mem_takes (hplan : pass.planFor s.containers = .ok plan) {name : String} :
    name ∈ pass.takes s ↔
      ∃ duty ∈ pass.duties plan.missing s.containers, name ∈ duty.wanted (pass.brief s) := by
  rw [takes, hplan]
  exact List.mem_flatMap

theorem mayHold_of_listed {c : Container} (hc : c ∈ pass.listed s.containers) :
    pass.MayHold s c := ⟨(mem_listed.mp hc).2, Or.inr ⟨c, hc, rfl⟩⟩

/-- The operations of a pass have in hand what it may have. -/
theorem mayHold_of_held (hplan : pass.planFor s.containers = .ok plan) {accounts : Multiset Account}
    (hduties : ∀ a ∈ accounts, a.duty ∈ pass.duties plan.missing s.containers)
    (hvalid : Valid (pass.brief s) accounts) {c : Container} (hc : c ∈ held accounts) :
    pass.MayHold s c := by
  rcases Multiset.mem_bind.mp hc with ⟨a, ha, hc⟩
  have hduty := hduties a ha
  refine ⟨(hvalid a ha).own (accepts_of_found hduty) c hc, ?_⟩
  rcases List.mem_append.mp ((hvalid a ha).name_mem c hc) with hwanted | hfound
  · exact Or.inl ((mem_takes hplan).mpr ⟨a.duty, hduty, hwanted⟩)
  · rcases List.mem_map.mp hfound with ⟨d, hd, hname⟩
    rcases duty_cases hplan hduty with ⟨number, heq, _⟩ | ⟨e, he, heq, _⟩
    · rw [heq] at hd
      exact absurd hd List.not_mem_nil
    · rw [heq, List.mem_singleton] at hd
      exact Or.inr ⟨e, he, hd ▸ hname⟩

theorem exists_hand_of_ledger (hplan : pass.planFor s.containers = .ok plan)
    {slots : Multiset (Slot Job)} {failure : Option Error} {tripped : Bool}
    (h : Ledger H.forgetful (pass.brief s) True (around + ↑(pass.idle s.containers))
      (pass.duties plan.missing s.containers) slots failure ⟨tripped, site⟩) :
    ∃ own : Multiset Container, ((H.store site.world).containers : Multiset Container) =
      around + own ∧ ∀ c ∈ own, pass.MayHold s c := by
  rcases h.accounted with ⟨accounts, hduties, hvalid, hstock⟩
  refine ⟨↑(pass.idle s.containers) + held accounts, ?_, fun c hc => ?_⟩
  · rw [← add_assoc]
    exact hstock
  rcases Multiset.mem_add.mp hc with hc | hc
  · exact mayHold_of_listed (mem_listed_of_kept (List.mem_filter.mp hc).1)
  · refine mayHold_of_held hplan (fun a ha => ?_) hvalid hc
    rw [← Multiset.mem_coe, ← hduties]
    exact Multiset.mem_map_of_mem _ ha

/-- What a pass has in hand is all that is not around it. -/
theorem Amid.exists_hand (hplan : pass.planFor s.containers = .ok plan)
    (h : pass.Amid H s plan.missing around stage site) :
    ∃ own : Multiset Container, ((H.store site.world).containers : Multiset Container) =
      around + own ∧ ∀ c ∈ own, pass.MayHold s c := by
  cases stage with
  | gating gates => exact h.elim
  | listing started waiting errand =>
      exact ⟨_, h.2.1, fun c hc => mayHold_of_listed (Multiset.mem_coe.mp hc)⟩
  | working jobs => exact exists_hand_of_ledger hplan h.2
  | ended result => exact exists_hand_of_ledger hplan h.2

/-! ### Moves of others -/

/-- Anybody's operations can count on the same. -/
theorem sound_of_sound {other : Pass} {w : ρ}
    (h : Sound H.forgetful (other.brief s) True w) : Sound H.forgetful (pass.brief s) True w :=
  ⟨h.calm, h.distinct, h.supply, h.unknown, h.birth, h.peace⟩

theorem Amid.sound (h : pass.Amid H s missing around stage site) :
    Sound H.forgetful (pass.brief s) True site.world := by
  cases stage with
  | gating gates => exact h.elim
  | listing started waiting errand => exact h.1
  | working jobs => exact h.2.sound
  | ended result => exact h.2.sound

theorem ledger_around {slots : Multiset (Slot Job)} {failure : Option Error} {tripped : Bool}
    (h : Ledger H.forgetful (pass.brief s) True (around + ↑(pass.idle s.containers))
      (pass.duties missing s.containers) slots failure ⟨tripped, site⟩)
    (hbefore : ((H.store site.world).containers : Multiset Container) = around + own)
    (hafter : ((H.store site'.world).containers : Multiset Container) = around' + own)
    (hsound : Sound H.forgetful (pass.brief s) True site'.world) :
    Ledger H.forgetful (pass.brief s) True (around' + ↑(pass.idle s.containers))
      (pass.duties missing s.containers) slots failure ⟨tripped, site'⟩ := by
  rcases h.books with ⟨live, closed, hbooks⟩
  have hown : own = ↑(pass.idle s.containers) + held (live.map (·.2) + closed) := by
    have hstock := hbooks.stock
    rw [add_assoc] at hstock
    exact add_left_cancel (hbefore.symm.trans hstock)
  refine ⟨hsound, fun t ht => absurd ht List.not_mem_nil, ⟨live, closed, ?_⟩, h.unhurt⟩
  refine ⟨hbooks.slots, hbooks.duties, hbooks.valid, hbooks.tells, ?_, hbooks.complete⟩
  rw [hown, ← add_assoc] at hafter
  exact hafter

/-- Other containers may come to be around a pass, as long as those in hand are the same. -/
theorem Amid.among (h : pass.Amid H s missing around stage site)
    (hbefore : ((H.store site.world).containers : Multiset Container) = around + own)
    (hafter : ((H.store site'.world).containers : Multiset Container) = around' + own)
    (hsound : Sound H.forgetful (pass.brief s) True site'.world) :
    pass.Amid H s missing around' stage site' := by
  cases stage with
  | gating gates => exact h.elim
  | listing started waiting errand =>
      refine ⟨hsound, ?_, h.2.2⟩
      rw [hafter, add_left_cancel (hbefore.symm.trans h.2.1)]
  | working jobs => exact ⟨h.1, ledger_around h.2 hbefore hafter hsound⟩
  | ended result => exact ⟨h.1, ledger_around h.2 hbefore hafter hsound⟩

/-! ### What is left to do -/

/-- The requests that a pass has still to make, where `opening` are the operations it will have when
    it has listed its containers. -/
def requestsLeft (E : Engine ρ) (opening : Group Job) : Stage → Nat
  | .listing _ _ errand => errand.owes + 1 + (Job.gauge E).groupLeft opening
  | .working jobs => (Job.gauge E).groupLeft jobs
  | _ => 0

/-- The turns that a pass has until its next request. -/
def turnsLeft (E : Engine ρ) (site : Site ρ) : Stage → Nat
  | .listing _ waiting errand => listingLag (E.pauses site.world) waiting errand
  | .working jobs => (Job.gauge E).groupLag (Job.conduct E) site jobs
  | _ => 0

/-- A pass has less to do than before: fewer requests, or fewer turns until the next one. In the
    latter case everybody gives up as many turns as before. -/
def Recedes (E : Engine ρ) (opening : Group Job) (stage stage' : Stage) (site site' : Site ρ) :
    Prop :=
  requestsLeft E opening stage' < requestsLeft E opening stage ∨
    (requestsLeft E opening stage' ≤ requestsLeft E opening stage ∧
      E.pauses site'.world = E.pauses site.world ∧
      turnsLeft E site' stage' < turnsLeft E site stage)

theorem turnsLeft_congr {E : Engine ρ} (h : E.pauses site'.world = E.pauses site.world)
    (stage : Stage) : turnsLeft E site' stage = turnsLeft E site stage := by
  cases stage with
  | listing started waiting errand => simp only [turnsLeft, h]
  | working jobs => simp only [turnsLeft, Gauge.groupLag, Job.gauge, h]
  | _ => rfl

theorem requestsLeft_afterJobs_le (E : Engine ρ) (opening jobs : Group Job) :
    requestsLeft E opening (afterJobs jobs) ≤ (Job.gauge E).groupLeft jobs := by
  unfold afterJobs
  split
  · exact Nat.zero_le _
  · exact Nat.le_refl _

theorem turnsLeft_afterJobs_le (E : Engine ρ) (site : Site ρ) (jobs : Group Job) :
    turnsLeft E site (afterJobs jobs) ≤ (Job.gauge E).groupLag (Job.conduct E) site jobs := by
  unfold afterJobs
  split
  · exact Nat.zero_le _
  · exact Nat.le_refl _

/-- While an operation gives up turns, everybody gives up as many as before. -/
theorem pauses_eq_of_lag {E : Engine ρ} (op : Operation)
    (h : (Job.gauge E).lag site' = (Job.gauge E).lag site) :
    E.pauses site'.world = E.pauses site.world :=
  Nat.succ.inj (congrFun h (.fresh op))

/-! ### Moves of its own -/

/-- The operations with which a pass begins to work. -/
def opening (pass : Pass) (s : Store) (missing : List Nat) : Group Job :=
  .ofTasks (((pass.duties missing s.containers).map (·.operation (pass.brief s))).map Job.fresh)

theorem amid_afterJobs {jobs : Group Job}
    (h : Ledger H.forgetful (pass.brief s) True (around + ↑(pass.idle s.containers))
      (pass.duties missing s.containers) jobs.slots jobs.failure ⟨jobs.tripped, site⟩) :
    pass.Amid H s missing around (afterJobs jobs) site := by
  cases hover : jobs.isOver with
  | false =>
      rw [afterJobs_of_going hover]
      exact ⟨hover, h⟩
  | true =>
      rcases h.unhurt trivial with ⟨hfailure, htripped⟩
      simp only at htripped
      rw [(Group.slots_eq_zero_iff jobs).mpr hover, hfailure, htripped] at h
      rw [afterJobs_of_over hover, Group.outcome, hfailure]
      exact ⟨rfl, h⟩

/-- What the listing leads to. -/
theorem amid_afterListing (hplan : pass.planFor s.containers = .ok plan)
    (hsound : Sound H.forgetful (pass.brief s) True site.world)
    (hstock : ((H.store site.world).containers : Multiset Container) =
      around + ↑(pass.listed s.containers)) :
    pass.Amid H s plan.missing around
      (pass.afterListing ((pass.listed s.containers).map (·.summary))) site := by
  rw [afterListing_eq, hplan]
  refine amid_afterJobs (Ledger.opening (Multiset.map_coe _ _).symm hsound
    (fun t ht => absurd ht List.not_mem_nil) ?_)
  rw [listed_eq pass plan.missing s.containers, ← add_assoc] at hstock
  exact hstock

theorem requestsLeft_afterListing_le (E : Engine ρ)
    (hplan : pass.planFor s.containers = .ok plan) (jobs : Group Job) :
    requestsLeft E jobs (pass.afterListing ((pass.listed s.containers).map (·.summary))) ≤
      (Job.gauge E).groupLeft (pass.opening s plan.missing) := by
  rw [afterListing_eq, hplan]
  exact requestsLeft_afterJobs_le E jobs _

/-- Containers around a pass that are none of its concern. -/
structure Spares (pass : Pass) (s : Store) (around : Multiset Container) : Prop where
  apart : ∀ c ∈ around, pass.filter.accepts c.labels = false
  clear : ∀ c ∈ around, c.name ∉ pass.takes s

/-- Operations that do not clash on their own do not clash among containers that are none of their
    concern. -/
theorem Spares.fit (h : pass.Spares s around) (hplan : pass.planFor s.containers = .ok plan)
    (hfit : Fit (pass.brief s) True (pass.untouched s.containers)
      (pass.duties plan.missing s.containers)) :
    Fit (pass.brief s) True (around + ↑(pass.idle s.containers))
      (pass.duties plan.missing s.containers) := by
  refine ⟨hfit.known, hfit.steps, fun _ duty rest hduties name hwanted => ?_⟩
  rcases hfit.clear trivial duty rest hduties name hwanted with ⟨hframe, hrest⟩
  refine ⟨fun c hc hname => ?_, hrest⟩
  rcases Multiset.mem_add.mp hc with hc | hc
  · refine h.clear c hc ((mem_takes hplan).mpr ⟨duty, ?_, hname ▸ hwanted⟩)
    rw [← Multiset.mem_coe, hduties]
    exact Multiset.mem_cons_self _ _
  · exact hframe c (Multiset.mem_coe.mpr (List.mem_append_right _ (Multiset.mem_coe.mp hc))) hname

/-- The containers that a pass lists are those of the beginning, and in their order. -/
theorem listed_eq_of_stock {t : Store} (hspares : pass.Spares s around)
    (horder : t.Descends (s.containers.map (·.id))) (hnodup : (s.containers.map (·.id)).Nodup)
    (hstock : (t.containers : Multiset Container) = around + ↑(pass.listed s.containers)) :
    pass.listed t.containers = pass.listed s.containers := by
  refine horder.eq_of_coe_eq hnodup List.filter_sublist List.filter_sublist ?_
  have haround : Multiset.filter (fun c => pass.filter.accepts c.labels = true) around = 0 :=
    Multiset.filter_eq_nil.mpr fun c hc => by
      rw [hspares.apart c hc]
      exact Bool.false_ne_true
  have hlisted : (pass.listed t.containers : Multiset Container) =
      Multiset.filter (fun c => pass.filter.accepts c.labels = true) ↑t.containers :=
    (filter_coe_bool _ _).symm
  rw [hlisted, hstock, Multiset.filter_add, haround, zero_add]
  exact Multiset.filter_eq_self.mpr fun c hc => (mem_listed.mp (Multiset.mem_coe.mp hc)).2

/-- A turn of the listing keeps what is known of a pass, and leaves it less to do. -/
theorem amid_takeListing (hplan : pass.planFor s.containers = .ok plan)
    (hspares : pass.Spares s around) (hnodup : (s.containers.map (·.id)).Nodup)
    {started : Bool} {errand : Errand (List Summary)}
    (horder : (H.store site.world).Descends (s.containers.map (·.id)))
    (h : pass.Amid H s plan.missing around (.listing started false errand) site) :
    let next := Pass.takeListing H.engine { pass with stage := .listing started false errand }
      started errand site.world
    pass.Amid H s plan.missing around next.1 { site with world := next.2 } ∧
      Recedes H.engine (pass.opening s plan.missing) (.listing started false errand) next.1 site
        { site with world := next.2 } := by
  rcases h with ⟨hsound, hstock, hbears⟩
  have hlisted := listed_eq_of_stock hspares horder hnodup hstock
  have hintact : Intact H.forgetful (pass.brief s) True (H.store site.world).containers
      site.world := ⟨hsound, rfl, fun t ht => absurd ht List.not_mem_nil⟩
  rw [← hlisted] at hbears
  intro next
  rcases takeListing_sees (intact_sees H.forgetful (pass.brief s) (H.store site.world).containers)
    { pass with stage := .listing started false errand } started hintact hbears with
    ⟨hkept, ⟨waiting, errand', heq, hbears'⟩ | heq⟩
  all_goals
    have hstock' : ((H.store next.2).containers : Multiset Container) =
        around + ↑(pass.listed s.containers) :=
      (congrArg _ hkept.containers).trans hstock
  · have hnext : next.1 = .listing true waiting errand' := heq
    refine ⟨?_, ?_⟩
    · rw [hnext]
      exact ⟨hkept.sound, hstock', hlisted ▸ hbears'⟩
    · rw [hnext]
      rcases takeListing_descends heq with hless | ⟨hle, hw, hless⟩
      · left
        simp only [requestsLeft]
        omega
      · have hworld : next.2 = site.world := hw
        refine Or.inr ⟨?_, by simp only [hworld], ?_⟩
        · simp only [requestsLeft]
          omega
        · simp only [turnsLeft, hworld]
          exact hless
  · have hnext : next.1 = pass.afterListing ((pass.listed s.containers).map (·.summary)) := by
      rw [← hlisted]
      exact heq
    rw [hnext]
    refine ⟨amid_afterListing hplan hkept.sound hstock', Or.inl ?_⟩
    refine Nat.lt_of_le_of_lt (requestsLeft_afterListing_le H.engine hplan _) ?_
    simp only [requestsLeft]
    omega

/-- A move of the operations keeps what is known of a pass, and leaves it less to do. -/
theorem amid_jobs (hfit : Fit (pass.brief s) True (around + ↑(pass.idle s.containers))
      (pass.duties missing s.containers)) {opening jobs : Group Job} {move : Move}
    (hmove : jobs.Enabled move) (h : pass.Amid H s missing around (.working jobs) site) :
    let next := jobs.step (Job.conduct H.engine) move site
    pass.Amid H s missing around (afterJobs next.1) next.2 ∧
      Recedes H.engine opening (.working jobs) (afterJobs next.1) site next.2 := by
  intro next
  have hcancel : move = .cancel → ¬True := fun heq => by
    rw [heq] at hmove
    exact hmove.elim
  refine ⟨amid_afterJobs (ledger_step hfit move hcancel h.2), ?_⟩
  have hleft := requestsLeft_afterJobs_le H.engine opening next.1
  rcases Group.step_recedes (Job.gauge H.engine) (C := Job.conduct H.engine)
    (Job.gauge_wake H.engine) (fun slot rest hslots turn scope => by
      have hledger := h.2
      rw [hslots] at hledger
      exact turn_descends (H := H.forgetful) hfit hledger) hmove with hless | ⟨hle, hsame, hless⟩
  · exact Or.inl (Nat.lt_of_le_of_lt hleft hless)
  · refine Or.inr ⟨hleft.trans hle, ?_, ?_⟩
    · rcases Multiset.exists_mem_of_ne_zero (s := jobs.slots) (fun hnone => by
        rw [Group.slots_eq_zero_iff, h.1] at hnone
        cases hnone) with ⟨slot, _⟩
      exact pauses_eq_of_lag slot.task.operation hsame
    · exact Nat.lt_of_le_of_lt (turnsLeft_afterJobs_le H.engine next.2 next.1) hless

/-- A pass gets on with its work whatever is around it, as long as it is none of its concern. -/
theorem amid_step (hplan : pass.planFor s.containers = .ok plan)
    (hfit : Fit (pass.brief s) True (pass.untouched s.containers)
      (pass.duties plan.missing s.containers))
    (hnodup : (s.containers.map (·.id)).Nodup) (hspares : pass.Spares s around)
    (horder : (H.store site.world).Descends (s.containers.map (·.id))) {move : Move}
    (hmove : Enabled { pass with stage } move)
    (h : pass.Amid H s plan.missing around stage site) :
    let next := Pass.step H.engine move { pass with stage } site
    pass.Amid H s plan.missing around next.1.stage next.2 ∧
      Recedes H.engine (pass.opening s plan.missing) stage next.1.stage site next.2 := by
  cases stage with
  | gating gates => exact h.elim
  | ended result => exact hmove.elim
  | working jobs => exact amid_jobs (hspares.fit hplan hfit) hmove h
  | listing started waiting errand =>
      cases move with
      | cancel => exact hmove.elim
      | poll place =>
          have hwaiting : waiting = false := hmove
          subst hwaiting
          exact amid_takeListing hplan hspares hnodup horder h
      | fire =>
          have hwaiting : waiting = true := hmove
          refine ⟨⟨h.1, h.2.1, Errand.bears_wake.mpr h.2.2⟩, Or.inr ⟨?_, rfl, ?_⟩⟩
          · cases errand <;> exact Nat.le_refl _
          · rw [hwaiting]
            exact Nat.lt_succ_self _

/-- As long as a pass is not at its end it can go on. -/
theorem Amid.exists_enabled (h : pass.Amid H s missing around stage site)
    (hgoing : Pass.result? { pass with stage } = none) :
    ∃ move, Enabled { pass with stage } move := by
  cases stage with
  | gating gates => exact h.elim
  | ended result => cases hgoing
  | working jobs => exact Group.exists_enabled h.1
  | listing started waiting errand =>
      cases waiting with
      | true => exact ⟨.fire, rfl⟩
      | false => exact ⟨.poll 0, rfl⟩

/-- A pass that is at its end has succeeded, and all its operations are done. -/
theorem Amid.ended (h : pass.Amid H s missing around stage site)
    (hended : Pass.result? { pass with stage } ≠ none) :
    Pass.result? { pass with stage } = some (.ok ()) ∧
      Ledger H.forgetful (pass.brief s) True (around + ↑(pass.idle s.containers))
        (pass.duties missing s.containers) 0 none ⟨false, site⟩ := by
  cases stage with
  | gating gates => exact h.elim
  | ended result => exact ⟨congrArg some h.1, h.2⟩
  | _ => exact absurd rfl hended

/-! ### Ends -/

/-- What a pass makes of the containers of its service, the ids of new containers left blank. -/
def share (pass : Pass) (missing : List Nat) (s : Store) : List Container :=
  pass.idle s.containers ++ (pass.duties missing s.containers).flatMap (·.left (pass.brief s) "")

/-- Where all operations are done, the containers of the service are the share of the pass, whatever
    is around them. -/
theorem share_of_ledger (hplan : pass.planFor s.containers = .ok plan)
    (hregular : ∀ c ∈ pass.listed s.containers, c.Regular pass.project.name pass.service.name)
    (hapart : ∀ c ∈ around, pass.filter.accepts c.labels = false)
    (h : Ledger H.forgetful (pass.brief s) True (around + ↑(pass.idle s.containers))
      (pass.duties plan.missing s.containers) 0 none ⟨false, site⟩) :
    ((ofService pass.project pass.service (H.store site.world).containers).map
      (·.veiled (s.containers.map (·.id)))).Perm (pass.share plan.missing s) := by
  rcases h.left with ⟨outcomes, hduties, houtcomes, hstock⟩
  have hown : (ofService pass.project pass.service (H.store site.world).containers :
      Multiset Container) = ↑(pass.idle s.containers) +
        outcomes.bind fun o => (o.1.left (pass.brief s) o.2 : Multiset Container) :=
    ofService_left_around hapart hduties (fun o ho => (houtcomes o ho).1) hstock
  have hidle : (pass.idle s.containers).map (·.veiled (s.containers.map (·.id))) =
      pass.idle s.containers := map_veiled_of_subset fun c hc =>
    (mem_listed.mp (mem_listed_of_kept (List.mem_filter.mp hc).1)).1
  rw [← Multiset.coe_eq_coe, ← Multiset.map_coe, hown, Multiset.map_add, Multiset.map_coe, hidle,
    veiled_outcomes hplan hduties houtcomes hregular, share, ← Multiset.coe_add]

end Pass

end Fleet
