import Mathlib.Data.List.Nodup
import SdLoader.Lib.Loop

/-!
# Linked lists

The nodes of a singly linked list are pointers of a type `P`, and `next` is the link of each; a list
ends with a link that is `none`.

* `Links next p ps` — the nodes from the link `p` on are `ps`.  Such a list has no node twice:
  `Links.nodup`.
* `Links.firstPass` — the loop that goes through the nodes and stops at the first that satisfies a
  predicate; `run_first` is what it finds.
* `Links.lastPass` — the loop that goes through the nodes as far as a given one and remembers the
  last of them that satisfies a predicate; `run_last` is what it has remembered in the end.
-/

set_option autoImplicit false

universe u

variable {P : Type u}

/-- The nodes from the link `p` on are `ps`. -/
def Links (next : P → Option P) : Option P → List P → Prop
  | p, [] => p = none
  | p, q :: ps => p = some q ∧ Links next (next q) ps

namespace Links

open Loop (Pass)

variable {next : P → Option P} {p : Option P} {ps qs : List P}

theorem unique (h : Links next p ps) (h' : Links next p qs) : ps = qs := by
  induction ps generalizing p qs with
  | nil =>
    cases qs with
    | nil => rfl
    | cons q qs => exact absurd (h.symm.trans h'.1) (by simp)
  | cons a ps ih =>
    cases qs with
    | nil => exact absurd (h'.symm.trans h.1) (by simp)
    | cons q qs =>
      obtain rfl : a = q := Option.some.inj (h.1.symm.trans h'.1)
      rw [ih h.2 h'.2]

theorem tail_of_append {q : P} (h : Links next p (ps ++ q :: qs)) : Links next (next q) qs := by
  induction ps generalizing p with
  | nil => exact h.2
  | cons a ps ih => exact ih h.2

/-- A list that ends does not come by the same node twice. -/
theorem nodup (h : Links next p ps) : ps.Nodup := by
  induction ps generalizing p with
  | nil => exact List.nodup_nil
  | cons q ps ih =>
    refine List.nodup_cons.mpr ⟨fun hmem ↦ ?_, ih h.2⟩
    -- what follows the node where it comes up again is what follows it here
    obtain ⟨l, r, rfl⟩ := List.append_of_mem hmem
    have hsame := congrArg List.length (h.2.unique (tail_of_append h.2))
    simp only [List.length_append, List.length_cons] at hsame
    omega

/-! ## Loops over the nodes -/

/-- `for(current = p; current != NULL; current = current->next) if(sel(current)) break;` -/
def firstPass (next : P → Option P) (sel : P → Bool) : Option P → Pass (Option P) (Option P)
  | none => .leave none
  | some q => if sel q then .leave (some q) else .again (next q)

/-- It finds the first node that satisfies the predicate. -/
theorem run_first (sel : P → Bool) (h : Links next p ps) :
    Loop.run (firstPass next sel) (ps.length + 1) p = .leave (ps.find? sel) := by
  induction ps generalizing p with
  | nil =>
    obtain rfl : p = none := h
    rfl
  | cons q ps ih =>
    obtain ⟨rfl, hrest⟩ := h
    rw [List.find?_cons]
    cases hq : sel q with
    | true =>
      have hpass : firstPass next sel (some q) = .leave (some q) := if_pos hq
      exact Loop.run_succ_leave hpass
    | false =>
      have hpass : firstPass next sel (some q) = .again (next q) := if_neg (by simp [hq])
      rw [List.length_cons, Loop.run_succ_again hpass]
      exact ih hrest

variable [DecidableEq P]

/-- `for(current = p; current != stop; current = current->next) if(sel(current)) found = current;`,
which leaves with `none` where it reads through a null pointer. -/
def lastPass (next : P → Option P) (sel : P → Bool) (stop : P) :
    Option P × P → Pass (Option P × P) (Option P)
  | (current, found) =>
    if current = some stop then .leave (some found)
    else
      match current with
      | none => .leave none
      | some q => .again (next q, if sel q then q else found)

/-- It finds the last node before `stop` that satisfies the predicate. -/
theorem run_last (sel : P → Bool) {stop : P} (found : P) (h : Links next p (ps ++ stop :: qs)) :
    Loop.run (lastPass next sel stop) (ps.length + 1) (p, found) =
      .leave (some ((ps.reverse.find? sel).getD found)) := by
  induction ps generalizing p found with
  | nil => exact Loop.run_succ_leave (if_pos h.1)
  | cons q ps ih =>
    have hnodup := h.nodup
    obtain ⟨rfl, hrest⟩ := h
    have hne : q ≠ stop := by
      rintro rfl
      exact (List.nodup_cons.mp hnodup).1 (List.mem_append_right ps List.mem_cons_self)
    have hpass : lastPass next sel stop (some q, found) =
        .again (next q, if sel q then q else found) := if_neg fun heq ↦ hne (Option.some.inj heq)
    rw [List.length_cons, Loop.run_succ_again hpass, ih _ hrest, List.reverse_cons,
      List.find?_append]
    cases ps.reverse.find? sel with
    | some r => rfl
    | none => cases hq : sel q <;> simp [hq]

end Links
