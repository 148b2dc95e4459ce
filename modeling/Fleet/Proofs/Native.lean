import Fleet.Proofs.Duty
import Fleet.Proofs.Names
import Fleet.Proofs.Plan

/-!
# Containers of a service

What is known of a container that a pass has created, wherever it has got to since: it
has a number, its labels are the service's, and it has the name of its number or one that
it was put out of the way with. Stopping, starting and putting away keep this.

## Main definitions

* `Belongs`: A name that belongs to a number of a service.
* `Container.Regular`: A container with a number and a name that goes with it.
* `Container.Native`: A regular container with the labels of a service.

## Theorems

* `Belongs.unique`: No name belongs to two numbers.
* `Container.Native.of_same`: What becomes of a native container is native.
* `native_of_new`: A new container is native.
-/

namespace Fleet

/-- A name that belongs to a number of a service: the one that the container with the number has,
    or one that a container gets out of the way with. -/
def Belongs (project service : String) (number : Nat) (name : String) : Prop :=
  name = containerName project service number ∨
    ∃ id, name = parkedName id (containerName project service number)

/-- No name belongs to two numbers. -/
theorem Belongs.unique {project service name : String} {m n : Nat}
    (hm : Belongs project service m name) (hn : Belongs project service n name) : m = n := by
  rcases hm with hm | ⟨i, hm⟩
  · rcases hn with hn | ⟨j, hn⟩
    · exact containerName_injective (hm.symm.trans hn)
    · exact absurd (hn.symm.trans hm) (parkedName_ne_containerName j project service n m)
  · rcases hn with hn | ⟨j, hn⟩
    · exact absurd (hm.symm.trans hn) (parkedName_ne_containerName i project service m n)
    · exact parkedName_number (hm.symm.trans hn)

/-- A container with a number, under the name of the number or out of the way. -/
structure Container.Regular (project service : String) (c : Container) : Prop where
  numbered : Numbering.numberOf c.summary = .ok c.number
  named : c.name = containerName project service c.number ∨
    c.name = parkedName c.id (containerName project service c.number)

theorem Container.Regular.belongs {project service : String} {c : Container}
    (h : c.Regular project service) : Belongs project service c.number c.name := by
  rcases h.named with hname | hname
  · exact Or.inl hname
  · exact Or.inr ⟨c.id, hname⟩

/-- A container of a service, with a number and a name that goes with it. -/
structure Container.Native (project service : String) (c : Container) : Prop extends
    c.Regular project service where
  own : (Labels.serviceFilter project service).accepts c.labels = true

theorem numberOf_lt_bound {summary : Summary} {number : Nat}
    (h : Numbering.numberOf summary = .ok number) : number < Numbering.bound :=
  Summary.number_lt_bound (Numbering.numberOf_eq_ok_iff.mp h)

theorem numberOf_congr {c d : Container} (h : d.labels = c.labels) {number : Nat}
    (hnumber : Numbering.numberOf c.summary = .ok number) :
    Numbering.numberOf d.summary = .ok number := by
  rw [Numbering.numberOf_eq_ok_iff] at hnumber ⊢
  rw [← hnumber]
  simp only [Summary.number?, Numbering.labelOf, Container.summary, h]

/-- A container that has been stopped, started or put out of the way is as native as before. -/
theorem Container.Native.of_same {project service : String} {c d : Container}
    (h : c.Native project service) (hid : d.id = c.id) (hlabels : d.labels = c.labels)
    (hname : d.name = c.name ∨ d.name = parkedName c.id (containerName project service c.number)) :
    d.Native project service ∧ d.number = c.number := by
  have hread := numberOf_congr hlabels h.numbered
  have hnumber := Container.number_of_ok hread
  refine ⟨⟨⟨?_, ?_⟩, ?_⟩, hnumber⟩
  · rw [hread, hnumber]
  · rw [hnumber, hid]
    rcases hname with hname | hname
    · rw [hname]
      exact h.named
    · exact Or.inr hname
  · rw [hlabels]
    exact h.own

/-- A new container is native, and has the number it was created for. -/
theorem native_of_new (b : Brief) {number : Nat} (hnumber : number < Numbering.bound)
    {c : Container} (hlabels : c.labels = Labels.ofInstance b.project b.service.name number
      b.service.fingerprint)
    (hname : c.name = containerName b.project b.service.name number) :
    c.Native b.project b.service.name ∧ c.number = number := by
  have hread : Numbering.numberOf c.summary = .ok number :=
    Labels.numberOf_ofInstance hnumber hlabels
  have hsame := Container.number_of_ok hread
  refine ⟨⟨⟨?_, Or.inl ?_⟩, ?_⟩, hsame⟩
  · rw [hread, hsame]
  · rw [hsame]
    exact hname
  · rw [hlabels]
    exact Labels.accepts_ofInstance

end Fleet
