import Fleet.Proofs.Bystanders
import Fleet.Proofs.Order
import Fleet.Proofs.Sample
import Fleet.Rollout

/-!
# Rollouts as passes in a row

A rollout has come to its end with success if and only if each of its passes has, one
after the other in the order of dependencies, and it is about these passes that there is
something to say. So a rollout is taken apart into them once (`passed_of_ok`), and on a
host each of them into what it leads to (`led_of_ok`). What is to be shown of rollouts
is then an induction along the services, one pass at a time.

Like a pass, a rollout is followed under every order of moves, and one that is bound to
end somewhere ends there whichever enabled moves are made.

## Main definitions

* `Rollout.play`: A rollout after a list of moves.
* `Rollout.Passed`: Passes in a row, all of which have succeeded.
* `Rollout.Led`: What passes in a row have led to.
* `Rollout.Inevitable`: Every order of moves comes to an end at which a fact holds.

## Theorems

* `passed_of_ok`: A rollout that succeeds consists of passes that do.
* `led_of_ok`: What a rollout that succeeds leads to.
* `Led.in_order`: What every pass keeps holds after passes in order.
* `inevitable_passing`: A pass that is bound to succeed leads to the next one.
-/

namespace Fleet

variable {ρ : Type}

/-- A pass does not end before its first move. -/
theorem Pass.result?_start (project : Project) (service : Service) (grace : Option Nat)
    (marks : Marks) : (start project service grace marks).result? = none := by
  rw [start, afterGates]
  cases service.healthDependencies with
  | nil => rfl
  | cons dependency rest => rfl

namespace Rollout

/-- A rollout after a list of moves, with its site. -/
def play (E : Engine ρ) (moves : List Move) (rollout : Rollout) (site : Site ρ) :
    Rollout × Site ρ :=
  moves.foldl (fun s move => s.1.step E move s.2) (rollout, site)

/-- What a rollout does by itself comes of a list of moves. -/
theorem exists_play_of_run {E : Engine ρ} {turns : Nat} {rollout : Rollout} {site site' : Site ρ}
    {result : Except Error Unit} (h : rollout.run E turns site = some (result, site')) :
    ∃ moves, (play E moves rollout { site with recreated := false }).1.result? = some result ∧
      (play E moves rollout { site with recreated := false }).2 = site' := by
  simp only [run, bind, Option.bind_eq_some_iff] at h
  rcases h with ⟨⟨rollout', site''⟩, hdrive, result', hresult, heq⟩
  rcases exists_moves_of_drive hdrive with ⟨moves, hmoves⟩
  simp only [pure, Option.some.injEq, Prod.mk.injEq] at heq
  rcases heq with ⟨rfl, rfl⟩
  refine ⟨moves, ?_, ?_⟩
  · rw [play, hmoves]
    exact hresult
  · rw [play, hmoves]

/-! ### Taking a rollout apart -/

/-- Passes in a row, all of which have succeeded: the services they were about, and the marks and
    the site they have led to. -/
inductive Passed (E : Engine ρ) (project : Project) (grace : Option Nat) (site : Site ρ) :
    List Service → Marks → Site ρ → Prop
  | start : Passed E project grace site [] .none site
  | pass {done : List Service} {marks : Marks} {before : Site ρ} (service : Service)
    (moves : List Move) : Passed E project grace site done marks before →
    (Pass.play E moves (.start project service grace marks) before).1.result? = some (.ok ()) →
    Passed E project grace site (done ++ [service])
      ((Pass.start project service grace marks).marksAfter
        (Pass.play E moves (.start project service grace marks) before).2)
      { (Pass.play E moves (.start project service grace marks) before).2 with
        recreated := false }

/-- Where a rollout stands: in a pass, with those before it behind, or at its end, after which the
    work may still be ended any number of times. -/
def Stands (E : Engine ρ) (project : Project) (grace : Option Nat) (site : Site ρ) :
    Rollout → Site ρ → Prop
  | passing pass rest, now => ∃ done service marks before moves,
    project.inDependencyOrder = .ok (done ++ service :: rest) ∧
    Passed E project grace site done marks before ∧ pass.result? = none ∧
    Pass.play E moves (.start project service grace marks) before = (pass, now)
  | ended (.ok ()), now => ∃ order marks before n, project.inDependencyOrder = .ok order ∧
    Passed E project grace site order marks before ∧
    now = { before with world := E.cancel^[n] before.world }
  | ended (.error _), _ => True

variable {E : Engine ρ} {project : Project} {grace : Option Nat} {site : Site ρ}

theorem stands_proceed {done rest : List Service} {marks : Marks} {before : Site ρ}
    (horder : project.inDependencyOrder = .ok (done ++ rest))
    (h : Passed E project grace site done marks before) :
    Stands E project grace site (proceed project grace marks rest) before := by
  cases rest with
  | nil =>
      rw [List.append_nil] at horder
      exact ⟨done, marks, before, 0, horder, h, rfl⟩
  | cons service rest =>
      exact ⟨done, service, marks, before, [], horder, h,
        Pass.result?_start project service grace marks, rfl⟩

/-- A move of the pass that a rollout has come to keeps what is known. -/
theorem stands_afterPass {done rest : List Service} {service : Service} {marks : Marks}
    {before now : Site ρ} {moves : List Move} {pass : Pass}
    (horder : project.inDependencyOrder = .ok (done ++ service :: rest))
    (hpassed : Passed E project grace site done marks before)
    (hplay : Pass.play E moves (.start project service grace marks) before = (pass, now)) :
    Stands E project grace site (afterPass pass rest now).1 (afterPass pass rest now).2 := by
  have hfields := Pass.play_fields E moves (.start project service grace marks) before
  rw [hplay] at hfields
  simp only at hfields
  simp only [afterPass]
  cases hresult : pass.result? with
  | none => exact ⟨done, service, marks, before, moves, horder, hpassed, hresult, hplay⟩
  | some result =>
      cases result with
      | error error => exact trivial
      | ok =>
          have hok : (Pass.play E moves (.start project service grace marks) before).1.result? =
              some (.ok ()) := by
            rw [hplay]
            exact hresult
          have hpassed' := hpassed.pass service moves hok
          rw [hplay] at hpassed'
          have hmarks : pass.marksAfter now =
              (Pass.start project service grace marks).marksAfter now := by
            rw [hfields]
            rfl
          have hproject : pass.project = project := congrArg Pass.project hfields
          have hgrace : pass.grace = grace := congrArg Pass.grace hfields
          simp only [hmarks, hproject, hgrace]
          refine stands_proceed ?_ hpassed'
          rw [List.append_assoc]
          exact horder

/-- Every move keeps what is known of where a rollout stands. -/
theorem stands_step (move : Move) {rollout : Rollout} {now : Site ρ}
    (h : Stands E project grace site rollout now) :
    let next := rollout.step E move now
    Stands E project grace site next.1 next.2 := by
  cases rollout with
  | passing pass rest =>
      rcases h with ⟨done, service, marks, before, moves, horder, hpassed, _, hplay⟩
      have hplay' : Pass.play E (moves ++ [move]) (.start project service grace marks) before =
          pass.step E move now := by
        rw [Pass.play_concat, hplay]
      simp only [step]
      rcases hnext : pass.step E move now with ⟨pass', now'⟩
      exact stands_afterPass horder hpassed (hplay'.trans hnext)
  | ended result =>
      cases result with
      | error error => cases move <;> exact trivial
      | ok =>
          rcases h with ⟨order, marks, before, n, horder, hpassed, rfl⟩
          cases move with
          | poll _ => exact ⟨order, marks, before, n, horder, hpassed, rfl⟩
          | fire => exact ⟨order, marks, before, n, horder, hpassed, rfl⟩
          | cancel =>
              refine ⟨order, marks, before, n + 1, horder, hpassed, ?_⟩
              rw [Function.iterate_succ_apply']
              rfl

/-- A rollout that succeeds consists of passes that do, after which the work may have been ended. -/
theorem passed_of_ok {moves : List Move}
    (hok : (play E moves (start project grace) site).1.result? = some (.ok ())) :
    ∃ order marks before n, project.inDependencyOrder = .ok order ∧
      Passed E project grace site order marks before ∧
      (play E moves (start project grace) site).2 =
        { before with world := E.cancel^[n] before.world } := by
  let Inv := fun next : Rollout × Site ρ => Stands E project grace site next.1 next.2
  have hstart : Inv (start project grace, site) := by
    simp only [Inv, start]
    cases horder : project.inDependencyOrder with
    | error cause => exact trivial
    | ok order =>
        have hnil : project.inDependencyOrder = .ok ([] ++ order) := horder
        exact stands_proceed hnil .start
  have hstands : Inv (play E moves (start project grace) site) :=
    foldl_invariant (?_ : ∀ move next, Inv next → Inv (next.1.step E move next.2)) moves hstart
  swap
  · exact fun move next hnext => stands_step move hnext
  rcases hplay : play E moves (start project grace) site with ⟨rollout, now⟩
  rw [hplay] at hok hstands
  cases rollout with
  | passing pass rest => cases hok
  | ended result =>
      cases Option.some.inj hok
      exact hstands

/-! ### On a host -/

/-- What passes in a row over services have led to, all of which have succeeded. -/
inductive Led (H : Host ρ) (project : Project) (grace : Option Nat) (site : Site ρ) :
    List Service → Marks → Site ρ → Prop
  | start : Led H project grace site [] .none site
  | pass {done : List Service} {marks : Marks} {before after : Site ρ} (service : Service) :
    Led H project grace site done marks before →
    Pass.Leads H (.start project service grace marks) before after →
    Led H project grace site (done ++ [service])
      ((Pass.start project service grace marks).marksAfter after)
      { after with recreated := false }

variable {H : Host ρ} {done : List Service} {marks : Marks} {now : Site ρ}

/-- What holds in the beginning and is kept by every pass over a service that comes after what it
    depends on holds after passes in order. -/
theorem Led.in_order {P : List Service → Marks → Site ρ → Prop}
    (hled : Led H project grace site done marks now) (hdistinct : (done.map (·.name)).Nodup)
    (hordered : Ordered [] done) (hstart : P [] .none site)
    (hpass : ∀ done marks before after last, Ordered [] done → last.name ∉ done.map (·.name) →
      (∀ name ∈ last.dependencies, name ∈ done.map (·.name)) →
      Pass.Leads H (.start project last grace marks) before after → P done marks before →
      P (done ++ [last]) ((Pass.start project last grace marks).marksAfter after)
        { after with recreated := false }) : P done marks now := by
  induction hled with
  | start => exact hstart
  | @pass done marks before after last _ hleads ih =>
      rcases hordered.concat with ⟨hordered, hdependencies⟩
      rw [List.map_append, List.map_singleton, ← List.concat_eq_append,
        List.nodup_concat] at hdistinct
      refine hpass done marks before after last hordered hdistinct.1 (fun name hname => ?_) hleads
        (ih hdistinct.2 hordered)
      exact (hdependencies name hname).resolve_left List.not_mem_nil

theorem led_of_passed (hcalm : H.calm site.world) (hdistinct : (H.store site.world).Distinct)
    (hlowered : site.recreated = false)
    (h : Passed H.engine project grace site done marks now) :
    Led H project grace site done marks now ∧ H.calm now.world ∧
      (H.store now.world).Distinct ∧ now.recreated = false := by
  induction h with
  | start => exact ⟨.start, hcalm, hdistinct, hlowered⟩
  | pass service moves _ hok ih =>
      rcases ih with ⟨hled, hcalm', hdistinct', hlowered'⟩
      have hleads := Pass.leads_of_ok H project service grace _ hlowered' hcalm' hdistinct' hok
      exact ⟨hled.pass service hleads, hleads.calm, hleads.distinct, rfl⟩

/-- Ending the work does nothing to the store. -/
theorem store_cancel_iterate (n : Nat) {w : ρ} (hcalm : H.calm w) :
    H.calm (H.engine.cancel^[n] w) ∧ H.store (H.engine.cancel^[n] w) = H.store w := by
  induction n with
  | zero => exact ⟨hcalm, rfl⟩
  | succ n ih =>
      rw [Function.iterate_succ_apply']
      rcases H.cancel_calm _ ih.1 with ⟨hcalm', hstore⟩
      exact ⟨hcalm', hstore.trans ih.2⟩

/-- What a rollout that succeeds leads to. -/
theorem led_of_ok (hcalm : H.calm site.world) (hdistinct : (H.store site.world).Distinct)
    (hlowered : site.recreated = false) {moves : List Move}
    (hok : (play H.engine moves (start project grace) site).1.result? = some (.ok ())) :
    ∃ order marks now, project.inDependencyOrder = .ok order ∧
      Led H project grace site order marks now ∧ (H.store now.world).Distinct ∧
      H.store (play H.engine moves (start project grace) site).2.world = H.store now.world := by
  rcases passed_of_ok hok with ⟨order, marks, now, n, horder, hpassed, hafter⟩
  rcases led_of_passed hcalm hdistinct hlowered hpassed with ⟨hled, hcalm', hdistinct', _⟩
  refine ⟨order, marks, now, horder, hled, hdistinct', ?_⟩
  rw [hafter]
  exact (store_cancel_iterate n hcalm').2

/-! ### What is bound to happen -/

/-- A move that can happen to a rollout while nobody ends the work. -/
def Enabled (rollout : Rollout) (move : Move) : Prop :=
  match rollout with
  | passing pass _ => pass.Enabled move
  | ended _ => False

/-- Whichever enabled moves are made, a rollout comes to its end, and a fact holds then. -/
inductive Inevitable (E : Engine ρ) (P : Except Error Unit → Site ρ → Prop) :
    Rollout → Site ρ → Prop
  -- The rollout is at its end.
  | ended {site : Site ρ} (result : Except Error Unit) : P result site →
    Inevitable E P (.ended result) site
  -- The rollout goes on, and every way it can go is bound to end.
  | later {rollout : Rollout} {site : Site ρ} : (∃ move, rollout.Enabled move) →
    (∀ move, rollout.Enabled move →
      Inevitable E P (rollout.step E move site).1 (rollout.step E move site).2) →
    Inevitable E P rollout site

theorem Inevitable.imp {P Q : Except Error Unit → Site ρ → Prop} {rollout : Rollout}
    (h : Inevitable E P rollout site) (hPQ : ∀ result after, P result after → Q result after) :
    Inevitable E Q rollout site := by
  induction h with
  | ended result hP => exact .ended result (hPQ result _ hP)
  | later hmove _ ih => exact .later hmove ih

/-- A pass that is bound to come to an end leads to what comes after it. -/
theorem inevitable_afterPass {P Q : Except Error Unit → Site ρ → Prop} {pass : Pass}
    (h : Pass.Inevitable E Q pass site) (rest : List Service)
    (hnext : ∀ pass' result after, pass' = { pass with stage := .ended result } →
      Q result after →
      Inevitable E P (afterPass pass' rest after).1 (afterPass pass' rest after).2) :
    Inevitable E P (afterPass pass rest site).1 (afterPass pass rest site).2 := by
  induction h with
  | @ended pass site result hresult hQ =>
      refine hnext pass result site ?_ hQ
      rcases pass with ⟨project, service, grace, marks, stage⟩
      cases stage with
      | ended result' => rw [Option.some.inj hresult]
      | _ => cases hresult
  | @later pass site hmove _ ih =>
      have hgoing : pass.result? = none := by
        cases hresult : pass.result? with
        | none => rfl
        | some result =>
            rcases hmove with ⟨move, henabled⟩
            exact absurd henabled (Pass.not_enabled_of_result hresult move)
      have hafter : afterPass pass rest site = (passing pass rest, site) := by
        rw [afterPass, hgoing]
      rw [hafter]
      refine .later hmove fun move henabled => ih move henabled fun pass' result after hpass' => ?_
      rw [Pass.step_fields] at hpass'
      exact hnext pass' result after hpass'

/-- A pass that is bound to succeed leads to the next one. -/
theorem inevitable_passing {P Q : Except Error Unit → Site ρ → Prop} {service : Service}
    {rest : List Service}
    (h : Pass.Inevitable E Q (.start project service grace marks) site)
    (hok : ∀ result after, Q result after → result = .ok ())
    (hnext : ∀ after, Q (.ok ()) after → Inevitable E P
      (proceed project grace ((Pass.start project service grace marks).marksAfter after) rest)
      { after with recreated := false }) :
    Inevitable E P (proceed project grace marks (service :: rest)) site := by
  have hstart : afterPass (.start project service grace marks) rest site =
      (proceed project grace marks (service :: rest), site) := by
    rw [afterPass, Pass.result?_start]
    rfl
  have hbound := inevitable_afterPass (P := P) h rest ?_
  · rw [hstart] at hbound
    exact hbound
  · rintro pass' result after rfl hQ
    cases hok result after hQ
    exact hnext after hQ

end Rollout

/-! ### A small rollout -/

namespace Sample

/-- A rollout of both services: the containers of the first are replaced since their description
    has changed, and those of the second since it depends on the first. -/
def rolled : Rollout × Site Drill :=
  Rollout.play Drill.host.engine [.poll 0, .poll 0, .poll 0, .poll 0] (.start tiers none) tiersSite

set_option maxRecDepth 100000 in
theorem rolled_ok : rolled.1.result? = some (.ok ()) := eq_ok_of_isOk (by decide +kernel)

end Sample

end Fleet
