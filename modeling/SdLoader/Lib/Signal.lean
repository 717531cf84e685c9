import Mathlib.Data.Set.Subsingleton
import Mathlib.Order.Interval.Set.OrdConnected

/-!
# Signals that come on and go off

A signal is a predicate on the instants of a linear order.  Somebody who looks at it now and then
sees it come on: it is off at one look and on at a later one.

* `Signal.Rise p i j` — what is seen at `i` and at `j`;
* `Signal.Hold p H` — the signal is on throughout `H`, and `H` has no gaps;
* `Hold.below` — who sees a hold begin has looked before any of it;
* `Hold.subsingleton` — of observers who look one after the other, no two see the same hold begin.
-/

set_option autoImplicit false

namespace Signal

universe u v

variable {T : Type u} [LinearOrder T] {p : T → Prop}

/-- The signal is off at `i` and on later, at `j`. -/
structure Rise (p : T → Prop) (i j : T) : Prop where
  lt : i < j
  off : ¬ p i
  on : p j

/-- The signal is on all the time. -/
structure Hold (p : T → Prop) (H : Set T) : Prop where
  whole : H.OrdConnected
  on : ∀ t ∈ H, p t

/-- A rise into a hold starts before all of it. -/
theorem Hold.below {H : Set T} (h : Hold p H) {i j : T} (hrise : Rise p i j) (hj : j ∈ H) {t : T}
    (ht : t ∈ H) : i < t := by
  by_contra hle
  have hi : i ∈ H := h.whole.out ht hj ⟨le_of_not_gt hle, hrise.lt.le⟩
  exact hrise.off (h.on i hi)

/-- **One rise to a hold.**  The rises are seen by one observer after the other; then at most one of
the observers sees the signal rise into `H`. -/
theorem Hold.subsingleton {K : Type v} [LinearOrder K] {H : Set T} (h : Hold p H)
    {Sees : K → T → T → Prop} (hrise : ∀ k i j, Sees k i j → Rise p i j)
    (horder : ∀ k l i j i' j', Sees k i j → Sees l i' j' → k < l → j ≤ i') :
    {k | ∃ i j, Sees k i j ∧ j ∈ H}.Subsingleton := by
  -- the later of two rises would have to start before the earlier one has ended
  have hnot : ∀ k l i j i' j', Sees k i j → Sees l i' j' → j ∈ H → j' ∈ H → ¬ k < l := by
    intro k l i j i' j' hk hl hj hj' hlt
    have hbelow := h.below (hrise l i' j' hl) hj' hj
    exact absurd (horder k l i j i' j' hk hl hlt) (not_le_of_gt hbelow)
  rintro k ⟨i, j, hk, hj⟩ l ⟨i', j', hl, hj'⟩
  exact le_antisymm (le_of_not_gt (hnot l k i' j' i j hl hk hj' hj))
    (le_of_not_gt (hnot k l i j i' j' hk hl hj hj'))

end Signal
