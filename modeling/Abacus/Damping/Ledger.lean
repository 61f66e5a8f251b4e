import Mathlib.Algebra.Order.Group.Defs
import Mathlib.Algebra.Order.Group.Unbundled.Basic
import Mathlib.Logic.Function.Basic

/-!
# Damping repeats by key

A damper lets an event through when its key had none within the last `quiet` units of time. It
remembers, for each key, the time of the latest event, and forgets those that damp nothing any more.
`Ledger` ties what it remembers to the whole history of events that went through: a remembered time
is the latest of its key, and a key that is not remembered had its last event at least `quiet` ago.
Time passing, an event that is let through and a pruning each keep it (`Ledger.later`,
`Ledger.record`, `Ledger.prune`), and after a pruning the memory is exactly the recent part of the
history (`Ledger.mem_prune_iff`).
-/

set_option autoImplicit false
set_option relaxedAutoImplicit false

namespace Abacus.Damping

variable {Key Time : Type*} [AddCommGroup Time] [LinearOrder Time] [IsOrderedAddMonoid Time]

/-- Whether an event of a key is damped. -/
def damps (quiet : Time) (recent : Key → Option Time) (now : Time) (key : Key) : Bool :=
  (recent key).any fun last ↦ decide (now - last < quiet)

/-- The memory without the times that damp nothing any more. -/
def prune (quiet : Time) (recent : Key → Option Time) (now : Time) (key : Key) : Option Time :=
  (recent key).filter fun last ↦ decide (now - last < quiet)

/-- The memory of a damper is faithful to the events that went through; `clock` is the latest time
that was read. -/
structure Ledger (quiet : Time) (recent : Key → Option Time) (history : List (Key × Time))
    (clock : Option Time) : Prop where
  spaced : history.Pairwise fun earlier later ↦
    earlier.1 = later.1 → quiet ≤ later.2 - earlier.2
  past : ∀ event ∈ history, ∃ now, clock = some now ∧ event.2 ≤ now
  latest : ∀ key last, recent key = some last →
    (key, last) ∈ history ∧ ∀ time, (key, time) ∈ history → time ≤ last
  forgotten : ∀ key time, (key, time) ∈ history → recent key = none →
    ∀ now, clock = some now → quiet ≤ now - time

namespace Ledger

variable {quiet : Time} {recent : Key → Option Time} {history : List (Key × Time)}
  {clock : Option Time} {now : Time}

omit [IsOrderedAddMonoid Time] in
theorem empty : Ledger quiet (fun _ : Key ↦ none) [] clock where
  spaced := .nil
  past := by simp
  latest := by simp
  forgotten := by simp

/-- Time passes. -/
theorem later (h : Ledger quiet recent history clock)
    (hnow : ∀ time, clock = some time → time ≤ now) :
    Ledger quiet recent history (some now) where
  spaced := h.spaced
  past := by
    intro event hevent
    obtain ⟨time, hclock, hpast⟩ := h.past event hevent
    exact ⟨now, rfl, hpast.trans (hnow time hclock)⟩
  latest := h.latest
  forgotten := by
    intro key time hmem hnone later hlater
    obtain rfl := Option.some.inj hlater
    obtain ⟨before, hclock, -⟩ := h.past _ hmem
    calc quiet ≤ before - time := h.forgotten key time hmem hnone before hclock
      _ ≤ now - time := sub_le_sub_right (hnow before hclock) time

/-- Every earlier event of a key that is not damped was at least `quiet` ago. -/
theorem quiet_le_of_free (h : Ledger quiet recent history (some now)) {key : Key}
    (hfree : damps quiet recent now key = false) {time : Time} (hmem : (key, time) ∈ history) :
    quiet ≤ now - time := by
  cases hrecent : recent key with
  | none => exact h.forgotten key time hmem hrecent now rfl
  | some last =>
    have hlast : quiet ≤ now - last := by simpa [damps, hrecent] using hfree
    exact hlast.trans (sub_le_sub_left ((h.latest key last hrecent).2 time hmem) now)

/-- An event that is not damped goes through and is remembered. -/
theorem record [DecidableEq Key] (h : Ledger quiet recent history (some now)) {key : Key}
    (hfree : damps quiet recent now key = false) :
    Ledger quiet (Function.update recent key (some now)) (history ++ [(key, now)]) (some now) where
  spaced := by
    rw [List.pairwise_append]
    refine ⟨h.spaced, List.pairwise_singleton _ _, ?_⟩
    rintro ⟨other, time⟩ hmem event hevent (hkey : other = event.1)
    obtain rfl := List.mem_singleton.mp hevent
    obtain rfl : other = key := hkey
    exact h.quiet_le_of_free hfree hmem
  past := by
    intro event hevent
    rcases List.mem_append.mp hevent with hmem | hmem
    · exact h.past event hmem
    · obtain rfl := List.mem_singleton.mp hmem
      exact ⟨now, rfl, le_rfl⟩
  latest := by
    intro other last hlast
    by_cases hkey : other = key
    · subst hkey
      rw [Function.update_self] at hlast
      obtain rfl := Option.some.inj hlast
      refine ⟨by simp, fun time hmem ↦ ?_⟩
      rcases List.mem_append.mp hmem with hmem | hmem
      · obtain ⟨clock, hclock, hpast⟩ := h.past _ hmem
        obtain rfl := Option.some.inj hclock
        exact hpast
      · exact (Prod.mk.inj (List.mem_singleton.mp hmem)).2.le
    · rw [Function.update_of_ne hkey] at hlast
      obtain ⟨hmem, hlatest⟩ := h.latest other last hlast
      refine ⟨List.mem_append_left _ hmem, fun time hmem' ↦ ?_⟩
      rcases List.mem_append.mp hmem' with hmem' | hmem'
      · exact hlatest time hmem'
      · exact absurd (Prod.mk.inj (List.mem_singleton.mp hmem')).1 hkey
  forgotten := by
    intro other time hmem hnone
    by_cases hkey : other = key
    · subst hkey
      simp at hnone
    · rw [Function.update_of_ne hkey] at hnone
      rcases List.mem_append.mp hmem with hmem | hmem
      · exact h.forgotten other time hmem hnone
      · exact absurd (Prod.mk.inj (List.mem_singleton.mp hmem)).1 hkey

omit [IsOrderedAddMonoid Time] in
/-- A key that a pruning leaves without a time is not damped. -/
theorem damps_eq_false_of_prune {key : Key} (hnone : Damping.prune quiet recent now key = none) :
    damps quiet recent now key = false := by
  cases hrecent : recent key with
  | none => simp [damps, hrecent]
  | some last => simpa [damps, Damping.prune, hrecent, Option.filter] using hnone

omit [IsOrderedAddMonoid Time] in
/-- Two events of one key at different times are `quiet` apart. -/
theorem apart (h : Ledger quiet recent history clock) {key : Key} {first second : Time}
    (hfirst : (key, first) ∈ history) (hsecond : (key, second) ∈ history) (hne : first ≠ second) :
    quiet ≤ second - first ∨ quiet ≤ first - second := by
  obtain ⟨i, hi, hgeti⟩ := List.getElem_of_mem hfirst
  obtain ⟨j, hj, hgetj⟩ := List.getElem_of_mem hsecond
  have hspaced := List.pairwise_iff_getElem.mp h.spaced
  rcases lt_trichotomy i j with hlt | rfl | hlt
  · have happart := hspaced i j hi hj hlt
    rw [hgeti, hgetj] at happart
    exact Or.inl (happart rfl)
  · exact absurd (Prod.mk.inj (hgeti.symm.trans hgetj)).2 hne
  · have happart := hspaced j i hj hi hlt
    rw [hgeti, hgetj] at happart
    exact Or.inr (happart rfl)

/-- A pruning forgets only times that damp nothing any more. -/
theorem prune (h : Ledger quiet recent history (some now)) :
    Ledger quiet (Damping.prune quiet recent now) history (some now) where
  spaced := h.spaced
  past := h.past
  latest := by
    intro key last hlast
    exact h.latest key last (Option.filter_eq_some_iff.mp hlast).1
  forgotten := by
    intro key time hmem hnone clock hclock
    obtain rfl := Option.some.inj hclock
    exact h.quiet_le_of_free (damps_eq_false_of_prune hnone) hmem

/-- What is remembered after a pruning is exactly what went through less than `quiet` ago. -/
theorem mem_prune_iff (h : Ledger quiet recent history (some now)) (key : Key) (time : Time) :
    Damping.prune quiet recent now key = some time ↔
      (key, time) ∈ history ∧ now - time < quiet := by
  rw [Damping.prune, Option.filter_eq_some_iff, decide_eq_true_iff]
  constructor
  · rintro ⟨hrecent, hquiet⟩
    exact ⟨(h.latest key time hrecent).1, hquiet⟩
  · rintro ⟨hmem, hquiet⟩
    refine ⟨?_, hquiet⟩
    cases hrecent : recent key with
    | none => exact absurd (h.forgotten key time hmem hrecent now rfl) (not_le.mpr hquiet)
    | some last =>
      obtain ⟨hlast, hlatest⟩ := h.latest key last hrecent
      obtain ⟨clock, hclock, hpast⟩ := h.past _ hlast
      obtain rfl := Option.some.inj hclock
      by_contra hne
      have hnow : last - time ≤ now - time := sub_le_sub_right hpast time
      rcases h.apart hmem hlast (fun heq ↦ hne (congrArg some heq).symm) with hlater | hearlier
      · exact absurd (hlater.trans hnow) (not_le.mpr hquiet)
      · have hback : time - last ≤ now - time := by
          have hfirst : time - last ≤ 0 := sub_nonpos.mpr (hlatest time hmem)
          exact hfirst.trans (sub_nonneg.mpr ((hlatest time hmem).trans hpast))
        exact absurd (hearlier.trans hback) (not_le.mpr hquiet)

end Ledger

end Abacus.Damping
