import Mathlib.Data.Nat.Notation
import Mathlib.Data.List.Basic
import Mathlib.Tactic.Common

/-!
# Rings whose entries carry a bit for the lap

A producer writes entries to the `n` slots of a ring, one after the other, and a consumer takes them
in the same order.  They share no counters.  Each entry carries the bit of the lap it was written
in, and the consumer, who knows which lap it is in itself, tells by that bit whether the entry in
the slot before it is new.

* `Ring.bit` — the bit of the lap entry number `k` belongs to.
* `Ring.Holds` — the slots hold what has been written and not been taken, and no slot that is free
  looks as if it held the next entry.
* `Holds.push`, `Holds.pull` — writing and taking one entry keep this; `Holds.owned_iff` is why the
  bit is enough to tell.
-/

set_option autoImplicit false

namespace Ring

universe u

variable {α : Type u} {n k taken : ℕ} {mark : α → ℕ} {slots slots' : ℕ → α} {all : List α}

/-- The bit of the lap entry number `k` belongs to: one in the first lap. -/
def bit (n k : ℕ) : ℕ := (k / n + 1) % 2

theorem bit_lt (n k : ℕ) : bit n k < 2 := Nat.mod_lt _ (Nat.succ_pos 1)

theorem bit_add (hn : 0 < n) (k : ℕ) : bit n (k + n) = 1 - bit n k := by
  rw [bit, bit, Nat.add_div_right k hn]
  omega

theorem bit_of_lt (h : k < n) : bit n k = 1 := by
  rw [bit, Nat.div_eq_of_lt h]

/-- Where the next entry goes: to the next slot, or to the first one of the next lap. -/
theorem succ_cases (hn : 0 < n) (k : ℕ) :
    (k % n + 1 = n ∧ (k + 1) % n = 0 ∧ bit n (k + 1) = 1 - bit n k) ∨
      (k % n + 1 < n ∧ (k + 1) % n = k % n + 1 ∧ bit n (k + 1) = bit n k) := by
  have hk : k + 1 = n * (k / n) + (k % n + 1) := by
    rw [← Nat.add_assoc, Nat.div_add_mod]
  rcases Nat.lt_or_ge (k % n + 1) n with hlt | hge
  · refine .inr ⟨hlt, ?_, ?_⟩
    · rw [hk, Nat.mul_add_mod, Nat.mod_eq_of_lt hlt]
    · rw [bit, hk, Nat.mul_add_div hn, Nat.div_eq_of_lt hlt, Nat.add_zero, bit]
  · have hlast : k % n + 1 = n := Nat.le_antisymm (Nat.mod_lt k hn) hge
    rw [hlast] at hk
    refine .inl ⟨hlast, ?_, ?_⟩
    · rw [hk, Nat.mul_add_mod, Nat.mod_self]
    · rw [bit, hk, Nat.mul_add_div hn, Nat.div_self hn, bit]
      omega

/-- No two entries of one lap are in the same slot. -/
theorem mod_inj {a j : ℕ} (hk : a ≤ k) (hk' : k < a + n) (hj : a ≤ j) (hj' : j < a + n)
    (h : k % n = j % n) : k = j := by
  have hsub : ∀ {i l : ℕ}, a ≤ i → l < a + n → l % n = i % n → l ≤ i := fun {i l} hi hl hmod ↦ by
    have hzero := Nat.sub_mod_eq_zero_of_mod_eq hmod
    rw [Nat.mod_eq_of_lt (by omega)] at hzero
    omega
  exact Nat.le_antisymm (hsub hj hk' h) (hsub hk hj' h.symm)

/-- The slots hold the entries of `all` from number `taken` on. -/
structure Holds (n : ℕ) (mark : α → ℕ) (slots : ℕ → α) (all : List α) (taken : ℕ) : Prop where
  le : taken ≤ all.length
  room : all.length ≤ taken + n
  full : ∀ k, taken ≤ k → k < all.length → all[k]? = some (slots (k % n)) ∧
    mark (slots (k % n)) = bit n k
  empty : ∀ k, all.length ≤ k → k < taken + n → mark (slots (k % n)) ≠ bit n k

/-- Nothing has been written. -/
theorem holds_nil (h : ∀ i < n, mark (slots i) ≠ 1) : Holds n mark slots [] 0 where
  le := Nat.le_refl _
  room := Nat.zero_le _
  full := fun k _ hk ↦ absurd hk (Nat.not_lt_zero k)
  empty := fun k _ hk ↦ by
    rw [Nat.zero_add] at hk
    rw [bit_of_lt hk, Nat.mod_eq_of_lt hk]
    exact h k hk

/-- **The bit tells whether there is a new entry.** -/
theorem Holds.owned_iff (h : Holds n mark slots all taken) (hn : 0 < n) :
    mark (slots (taken % n)) = bit n taken ↔ taken < all.length := by
  constructor
  · intro hmark
    by_contra hge
    exact h.empty taken (Nat.le_of_not_lt hge) (by omega) hmark
  · exact fun hlt ↦ (h.full taken (Nat.le_refl _) hlt).2

/-- An entry is written to the next slot. -/
theorem Holds.push (h : Holds n mark slots all taken) (hroom : all.length < taken + n) {x : α}
    (hmark : mark x = bit n all.length) (hx : slots' (all.length % n) = x)
    (hsame : ∀ i < n, i ≠ all.length % n → slots' i = slots i) :
    Holds n mark slots' (all ++ [x]) taken := by
  have hlow : ∀ k, k % n < n := fun k ↦ Nat.mod_lt k (by have := h.le; omega)
  have hlen : (all ++ [x]).length = all.length + 1 := by
    rw [List.length_append, List.length_singleton]
  refine ⟨by have := h.le; omega, by omega, fun k hk hk' ↦ ?_, fun k hk hk' ↦ ?_⟩
  · rcases Nat.lt_succ_iff_lt_or_eq.mp (hlen ▸ hk') with hlt | rfl
    · have hne : k % n ≠ all.length % n := fun heq ↦ by
        have := mod_inj hk (by omega) h.le hroom heq
        omega
      rw [List.getElem?_append_left hlt, hsame _ (hlow k) hne]
      exact h.full k hk hlt
    · rw [hx, List.getElem?_append_right (Nat.le_refl _), Nat.sub_self]
      exact ⟨rfl, hmark⟩
  · have hne : k % n ≠ all.length % n := fun heq ↦ by
      have := mod_inj (by have := h.le; omega) hk' h.le hroom heq
      omega
    rw [hsame _ (hlow k) hne]
    exact h.empty k (by omega) hk'

/-- An entry is taken from its slot, which is free then. -/
theorem Holds.pull (h : Holds n mark slots all taken) (hn : 0 < n) (hlt : taken < all.length) :
    Holds n mark slots all (taken + 1) := by
  refine ⟨hlt, by have := h.room; omega, fun k hk hk' ↦ h.full k (by omega) hk', fun k hk hk' ↦ ?_⟩
  by_cases hlast : k = taken + n
  · subst hlast
    have hown := (h.full taken (Nat.le_refl _) hlt).2
    have hbit := bit_lt n taken
    rw [Nat.add_mod_right, hown, bit_add hn]
    omega
  · exact h.empty k hk (by omega)

/-- What is taken is the next entry. -/
theorem Holds.entry (h : Holds n mark slots all taken) (hlt : taken < all.length) :
    all[taken]? = some (slots (taken % n)) :=
  (h.full taken (Nat.le_refl _) hlt).1

/-- What has been taken grows by the next entry. -/
theorem Holds.take_succ (h : Holds n mark slots all taken) (hlt : taken < all.length) :
    all.take (taken + 1) = all.take taken ++ [slots (taken % n)] := by
  rw [List.take_add_one, h.entry hlt]
  rfl

/-- The slots of the entries that are there stay as they are. -/
theorem Holds.congr (h : Holds n mark slots all taken) (hsame : ∀ i < n, slots' i = slots i)
    (hn : 0 < n) : Holds n mark slots' all taken := by
  have hmod : ∀ k, slots' (k % n) = slots (k % n) := fun k ↦ hsame _ (Nat.mod_lt k hn)
  refine ⟨h.le, h.room, fun k hk hk' ↦ ?_, fun k hk hk' ↦ ?_⟩ <;> rw [hmod]
  · exact h.full k hk hk'
  · exact h.empty k hk hk'

end Ring
