import Mathlib.Data.Nat.Notation
import Mathlib.Tactic.Common

/-!
# Reading a device through a cache of one block

A `Scan` is a program that reads a device block by block, and decides from what it has seen which
block to look at next and what its result is.  That a block cannot be read is one more answer it
goes on from.

* `Scan.run fetch` — the scan carried out on a device, of which `fetch` reads a block, through a
  cache that holds the block read last;
* `Scan.eval table` — what the scan comes to where the blocks are those of `table`, without any
  cache; there is no such result if it looks at a block the table does not have;
* `Scan.Along` — every block that is fetched is fetched in a state that satisfies a condition.

The rules relate the two.  `Coherent` says that the cache holds what the table has:

* `run_inv`, `along_of_inv` — what every fetch keeps, the scan keeps;
* `run_coherent` — fetches that bring the blocks of the table or nothing keep it coherent;
* `run_eq_eval` — fetches that bring every block of the table make `run` agree with `eval`;
* `run_eq_eval_or_error` — fetches that may fail, but then go on failing: `run` agrees with `eval`
  or its result is an error, if the scan is `Honest`, that is, does not succeed once a block it has
  asked for has been refused.
-/

set_option autoImplicit false

universe u v w

/-- A program that reads blocks. -/
inductive Scan (β : Type u) (α : Type v)
  /-- It is done, with a result. -/
  | done (a : α)
  /-- It looks at the block `s`, and goes on from what it sees.  If `fresh` is set, what is in the
  cache is thrown away first. -/
  | look (fresh : Bool) (s : ℕ) (next : Option β → Scan β α)

namespace Scan

variable {β : Type u} {α : Type v} {σ : Type w}

/-- A block and its number, or nothing. -/
abbrev Cache (β : Type u) := Option (ℕ × β)

/-- The block `s`, if it is the one in the cache. -/
def find (c : Cache β) (s : ℕ) : Option β :=
  match c with
  | some (s', b) => if s' = s then some b else none
  | none => none

/-- What is left of the cache before a look. -/
def kept (fresh : Bool) (c : Cache β) : Cache β := if fresh then none else c

/-! ## On a device -/

section
variable (fetch : ℕ → σ → Option β × σ)

/-- One look: the block in the cache, or one that is fetched. -/
def see (s : ℕ) (x : Cache β × σ) : Option β × Cache β × σ :=
  match find x.1 s with
  | some b => (some b, x)
  | none =>
    match fetch s x.2 with
    | (some b, d) => (some b, some (s, b), d)
    | (none, d) => (none, none, d)

/-- The scan, carried out on a device. -/
def run : Scan β α → Cache β × σ → α × Cache β × σ
  | done a, x => (a, x)
  | look fresh s next, x =>
    run (next (see fetch s (kept fresh x.1, x.2)).1) (see fetch s (kept fresh x.1, x.2)).2

/-- Every fetch of the scan is made in a state that satisfies `P`. -/
def Along (P : ℕ → σ → Prop) : Scan β α → Cache β × σ → Prop
  | done _, _ => True
  | look fresh s next, x =>
    (find (kept fresh x.1) s = none → P s x.2) ∧
      Along P (next (see fetch s (kept fresh x.1, x.2)).1) (see fetch s (kept fresh x.1, x.2)).2

end

/-! ## On a table -/

/-- What the scan comes to where the blocks are those of `table`. -/
def eval (table : ℕ → Option β) : Scan β α → Option α
  | done a => some a
  | look _ s next =>
    match table s with
    | some b => eval table (next (some b))
    | none => none

/-- What it comes to where there are none. -/
def lost : Scan β α → α
  | done a => a
  | look _ _ next => lost (next none)

/-- A scan that reports an error if some block was refused, and all that came after it. -/
def Honest {ε : Type v} {γ : Type v} : Scan β (Except ε γ) → Prop
  | done _ => True
  | look _ _ next => (∃ e, lost (next none) = .error e) ∧ ∀ b, Honest (next (some b))

/-- One scan, and then another one that depends on its result. -/
def bind {γ : Type v} : Scan β α → (α → Scan β γ) → Scan β γ
  | done a, f => f a
  | look fresh s next, f => look fresh s fun b ↦ (next b).bind f

/-- A scan whose result is bad if some block was refused, and all that came after it. -/
def HonestTo (bad : α → Prop) : Scan β α → Prop
  | done _ => True
  | look _ _ next => bad (lost (next none)) ∧ ∀ b, HonestTo bad (next (some b))

/-- Whatever it sees, its result satisfies `P`. -/
def Ends (P : α → Prop) : Scan β α → Prop
  | done a => P a
  | look _ _ next => ∀ b, Ends P (next b)

/-- A scan whose result is `a` as soon as a block is refused. -/
def FailsTo (a : α) : Scan β α → Prop
  | done _ => True
  | look _ _ next => next none = done a ∧ ∀ b, FailsTo a (next (some b))

/-- The block in the cache is the one of the table. -/
def Coherent (table : ℕ → Option β) (c : Cache β) : Prop :=
  ∀ s b b', find c s = some b → table s = some b' → b = b'

variable {fetch : ℕ → σ → Option β × σ} {table : ℕ → Option β} {P : ℕ → σ → Prop}

theorem coherent_none : Coherent table none := by
  intro s b b' h
  cases h

theorem Coherent.kept {c : Cache β} (h : Coherent table c) (fresh : Bool) :
    Coherent table (Scan.kept fresh c) := by
  rw [Scan.kept]
  split
  · exact coherent_none
  · exact h

theorem coherent_some {s : ℕ} {b : β} (h : ∀ b', table s = some b' → b = b') :
    Coherent table (some (s, b)) := by
  intro s' b₁ b' hfind htable
  simp only [find] at hfind
  split at hfind
  · next heq =>
    subst heq
    exact Option.some.inj hfind ▸ h b' htable
  · cases hfind

/-! ## One after another -/

theorem lost_bind {γ : Type v} (scan : Scan β α) (f : α → Scan β γ) :
    lost (scan.bind f) = lost (f (lost scan)) := by
  induction scan with
  | done a => rfl
  | look fresh s next ih => exact ih none

/-- **An honest scan of two parts**: the first never succeeds badly, and the second reports what is
bad as an error. -/
theorem HonestTo.bind {ε γ : Type v} {bad : α → Prop} {scan : Scan β α}
    {f : α → Scan β (Except ε γ)}
    (h : HonestTo bad scan) (hbad : ∀ a, bad a → ∃ e, lost (f a) = .error e)
    (hf : ∀ a, Honest (f a)) : Honest (scan.bind f) := by
  induction scan with
  | done a => exact hf a
  | look fresh s next ih =>
    refine ⟨?_, fun b ↦ ih (some b) (h.2 b)⟩
    rw [lost_bind]
    exact hbad _ h.1

theorem ends_true (scan : Scan β α) : Ends (fun _ ↦ True) scan := by
  induction scan with
  | done a => trivial
  | look fresh s next ih => exact ih

theorem Ends.bind {γ : Type v} {P : α → Prop} {Q : γ → Prop} {scan : Scan β α} {f : α → Scan β γ}
    (h : Ends P scan) (hf : ∀ a, P a → Ends Q (f a)) : Ends Q (scan.bind f) := by
  induction scan with
  | done a => exact hf a h
  | look fresh s next ih => exact fun b ↦ ih b (h b)

/-- The result of a run is one of those a scan can end with. -/
theorem Ends.run {P : α → Prop} {scan : Scan β α} (h : Ends P scan)
    (fetch : ℕ → σ → Option β × σ) (x : Cache β × σ) : P (run fetch scan x).1 := by
  induction scan generalizing x with
  | done a => exact h
  | look fresh s next ih => exact ih _ (h _) _

/-! ## One look -/

theorem see_of_find {s : ℕ} {x : Cache β × σ} {b : β} (h : find x.1 s = some b) :
    see fetch s x = (some b, x) := by
  rw [see, h]

/-- A block that is not in the cache is fetched. -/
theorem see_of_not_find {s : ℕ} {x : Cache β × σ} (h : find x.1 s = none) :
    see fetch s x =
      ((fetch s x.2).1, (fetch s x.2).1.map (Prod.mk s), (fetch s x.2).2) := by
  rw [see, h]
  rcases fetch s x.2 with ⟨_ | b, d⟩ <;> rfl

/-- A look leaves the device as it is, or as a fetch leaves it. -/
theorem see_inv {I : σ → Prop} {s : ℕ} {x : Cache β × σ} (hI : I x.2)
    (hfetch : find x.1 s = none → I (fetch s x.2).2) : I (see fetch s x).2.2 := by
  cases hfind : find x.1 s with
  | some b =>
    rw [see_of_find hfind]
    exact hI
  | none =>
    rw [see_of_not_find hfind]
    exact hfetch hfind

/-- After a look, no other block is in the cache. -/
theorem find_see_of_ne {s s' : ℕ} (h : s ≠ s') (x : Cache β × σ) :
    find (see fetch s x).2.1 s' = none := by
  cases hfind : find x.1 s with
  | some b =>
    rw [see_of_find hfind]
    rcases hx : x.1 with _ | ⟨s'', b'⟩ <;> rw [hx] at hfind
    · cases hfind
    · simp only [find] at hfind ⊢
      split at hfind
      · next heq => rw [if_neg (heq ▸ h)]
      · cases hfind
  | none =>
    rw [see_of_not_find hfind]
    cases (fetch s x.2).1 with
    | none => rfl
    | some b => exact if_neg h

/-- A look that throws the cache away does not depend on it. -/
theorem run_fresh (s : ℕ) (next : Option β → Scan β α) (c : Cache β) (d : σ) :
    run fetch (look true s next) (c, d) = run fetch (look true s next) (none, d) := rfl

theorem along_fresh (s : ℕ) (next : Option β → Scan β α) (c : Cache β) (d : σ) :
    Along fetch P (look true s next) (c, d) ↔ Along fetch P (look true s next) (none, d) := Iff.rfl

/-- After a look, the cache is coherent if it was and the block fetched was one of the table. -/
theorem see_coherent {s : ℕ} {x : Cache β × σ} (hc : Coherent table x.1)
    (hfetch : find x.1 s = none → ∀ b b', (fetch s x.2).1 = some b → table s = some b' → b = b') :
    Coherent table (see fetch s x).2.1 := by
  cases hfind : find x.1 s with
  | some b =>
    rw [see_of_find hfind]
    exact hc
  | none =>
    rw [see_of_not_find hfind]
    cases hres : (fetch s x.2).1 with
    | none => exact coherent_none
    | some b => exact coherent_some fun b' ↦ hfetch hfind b b' hres

/-! ## The whole scan -/

theorem Along.mono {P Q : ℕ → σ → Prop} (h : ∀ s d, P s d → Q s d) {scan : Scan β α}
    {x : Cache β × σ} (hP : Along fetch P scan x) : Along fetch Q scan x := by
  induction scan generalizing x with
  | done a => trivial
  | look fresh s next ih => exact ⟨fun hfind ↦ h s x.2 (hP.1 hfind), ih _ hP.2⟩

/-- A condition that holds wherever an invariant does, and that every fetch keeps, holds all
along. -/
theorem along_of_inv {I : σ → Prop} (hfetch : ∀ s d, I d → P s d ∧ I (fetch s d).2)
    (scan : Scan β α) {x : Cache β × σ} (hI : I x.2) : Along fetch P scan x := by
  induction scan generalizing x with
  | done a => trivial
  | look fresh s next ih =>
    exact ⟨fun _ ↦ (hfetch s x.2 hI).1, ih _ (see_inv hI fun _ ↦ (hfetch s x.2 hI).2)⟩

/-- **The cache stays coherent**, if each fetch brings the block of the table or nothing. -/
theorem run_coherent {I : σ → Prop}
    (hfetch : ∀ s d, I d → P s d → I (fetch s d).2 ∧
      ∀ b b', (fetch s d).1 = some b → table s = some b' → b = b')
    (scan : Scan β α) {x : Cache β × σ} (hI : I x.2) (hc : Coherent table x.1)
    (hP : Along fetch P scan x) :
    I (run fetch scan x).2.2 ∧ Coherent table (run fetch scan x).2.1 := by
  induction scan generalizing x with
  | done a => exact ⟨hI, hc⟩
  | look fresh s next ih =>
    obtain ⟨hnow, hP⟩ := hP
    have hI' : I (see fetch s (kept fresh x.1, x.2)).2.2 :=
      see_inv hI fun h ↦ (hfetch s x.2 hI (hnow h)).1
    exact ih _ hI' (see_coherent (hc.kept fresh) fun h ↦ (hfetch s x.2 hI (hnow h)).2) hP

/-- **A scan that stops at the first block that is refused**: its result is the one it should have,
or the block it has asked for last was refused, and its result says so. -/
theorem run_eq_eval_or_fail {I : σ → Prop} {a r : α}
    (hfetch : ∀ s d b, I d → P s d → (fetch s d).1 = some b → I (fetch s d).2 ∧
      ∀ b', table s = some b' → b = b')
    {scan : Scan β α} (hfails : FailsTo a scan) {x : Cache β × σ} (hI : I x.2)
    (hc : Coherent table x.1) (hP : Along fetch P scan x) (hr : eval table scan = some r) :
    Coherent table (run fetch scan x).2.1 ∧
      (I (run fetch scan x).2.2 ∧ (run fetch scan x).1 = r ∨
        (run fetch scan x).1 = a ∧
          ∃ s d, I d ∧ P s d ∧ fetch s d = (none, (run fetch scan x).2.2)) := by
  induction scan generalizing x with
  | done b => exact ⟨hc, .inl ⟨hI, Option.some.inj hr⟩⟩
  | look fresh s next ih =>
    obtain ⟨hnow, hP⟩ := hP
    rw [eval] at hr
    split at hr
    · next b' htable =>
      rw [run]
      cases hfind : find (kept fresh x.1) s with
      | some b =>
        rw [see_of_find hfind] at hP ⊢
        obtain rfl := hc.kept fresh s b b' hfind htable
        exact ih (some b) (hfails.2 b) (x := (kept fresh x.1, x.2)) hI (hc.kept fresh) hP hr
      | none =>
        have hb := hfetch s x.2
        rw [see_of_not_find hfind] at hP ⊢
        rcases hres : fetch s x.2 with ⟨_ | b, d⟩
        · rw [hfails.1]
          exact ⟨coherent_none, .inr ⟨rfl, s, x.2, hI, hnow hfind, hres⟩⟩
        · rw [hres] at hb hP
          obtain ⟨hI', hb⟩ := hb b hI (hnow hfind) rfl
          obtain rfl := hb b' htable
          exact ih (some b) (hfails.2 b) hI' (coherent_some hb) hP hr
    · cases hr

/-- What every fetch keeps, the scan keeps. -/
theorem run_inv {I : σ → Prop} (hfetch : ∀ s d, I d → P s d → I (fetch s d).2) (scan : Scan β α)
    {x : Cache β × σ} (hI : I x.2) (hP : Along fetch P scan x) : I (run fetch scan x).2.2 := by
  have hc : Coherent (fun _ ↦ none) x.1 := by
    intro s b b' _ h
    cases h
  refine (run_coherent (fun s d hI hP ↦ ⟨hfetch s d hI hP, fun b b' _ h ↦ ?_⟩) scan hI hc hP).1
  cases h

/-- **A scan means what it does**, where every block of the table can be fetched. -/
theorem run_eq_eval {I : σ → Prop}
    (hfetch : ∀ s d b, I d → table s = some b → (fetch s d).1 = some b ∧ I (fetch s d).2)
    (scan : Scan β α) {x : Cache β × σ} (hI : I x.2) (hc : Coherent table x.1) {a : α}
    (ha : eval table scan = some a) :
    (run fetch scan x).1 = a ∧ I (run fetch scan x).2.2 ∧
      Coherent table (run fetch scan x).2.1 := by
  induction scan generalizing x with
  | done a' =>
    cases ha
    exact ⟨rfl, hI, hc⟩
  | look fresh s next ih =>
    rw [eval] at ha
    cases hs : table s with
    | none =>
      rw [hs] at ha
      cases ha
    | some b =>
      rw [hs] at ha
      obtain ⟨hres, hI'⟩ := hfetch s x.2 b hI hs
      have hsee : (see fetch s (kept fresh x.1, x.2)).1 = some b ∧
          I (see fetch s (kept fresh x.1, x.2)).2.2 := by
        cases hfind : find (kept fresh x.1) s with
        | some b' =>
          rw [see_of_find hfind, hc.kept fresh s b' b hfind hs]
          exact ⟨rfl, hI⟩
        | none =>
          rw [see_of_not_find hfind]
          exact ⟨hres, hI'⟩
      have hnext := ih (see fetch s (kept fresh x.1, x.2)).1
        (x := (see fetch s (kept fresh x.1, x.2)).2)
        hsee.2 (see_coherent (hc.kept fresh) fun _ b₁ b' h h' ↦ by
          rw [hres] at h
          rw [hs] at h'
          cases h
          cases h'
          rfl) (hsee.1 ▸ ha)
      exact hnext

/-- A scan that is refused every block from now on. -/
theorem run_lost {D : σ → Prop}
    (hdead : ∀ s d, D d → (fetch s d).1 = none ∧ D (fetch s d).2) (scan : Scan β α) {d : σ}
    (hD : D d) : (run fetch scan (none, d)).1 = lost scan := by
  induction scan generalizing d with
  | done a => rfl
  | look fresh s next ih =>
    have hkept : kept fresh (none : Cache β) = none := ite_self none
    have hfind : find (none : Cache β) s = none := rfl
    obtain ⟨hres, hD'⟩ := hdead s d hD
    have hsee : see fetch s (none, d) = (none, none, (fetch s d).2) := by
      rw [see_of_not_find hfind, hres]
      rfl
    rw [run, lost, hkept, hsee]
    exact ih none hD'

/-- **A scan means what it does, or fails**, where a fetch that fails is followed by no other that
succeeds. -/
theorem run_eq_eval_or_error {ε γ : Type v} {I D : σ → Prop}
    (hfetch : ∀ s d, I d → P s d → ((fetch s d).1 = none ∧ D (fetch s d).2) ∨
      ∃ b, (fetch s d).1 = some b ∧ I (fetch s d).2 ∧ ∀ b', table s = some b' → b = b')
    (hdead : ∀ s d, D d → (fetch s d).1 = none ∧ D (fetch s d).2)
    {scan : Scan β (Except ε γ)} (hhonest : Honest scan) {x : Cache β × σ} (hI : I x.2)
    (hc : Coherent table x.1) (hP : Along fetch P scan x) :
    (I (run fetch scan x).2.2 ∧ Coherent table (run fetch scan x).2.1 ∧
        ∀ r, eval table scan = some r → (run fetch scan x).1 = r) ∨
      ∃ e, (run fetch scan x).1 = .error e := by
  induction scan generalizing x with
  | done a => exact .inl ⟨hI, hc, fun r hr ↦ Option.some.inj hr⟩
  | look fresh s next ih =>
    obtain ⟨⟨e, he⟩, hhonest⟩ := hhonest
    obtain ⟨hnow, hP⟩ := hP
    cases hfind : find (kept fresh x.1) s with
    | some b =>
      rw [see_of_find hfind] at hP
      rw [run, see_of_find hfind]
      rcases ih (some b) (hhonest b) (x := (kept fresh x.1, x.2)) hI (hc.kept fresh) hP with
        ⟨hI', hc', heval⟩ | herror
      · refine .inl ⟨hI', hc', fun r hr ↦ heval r ?_⟩
        rw [eval] at hr
        split at hr
        · next b' hs =>
          rw [hc.kept fresh s b b' hfind hs]
          exact hr
        · cases hr
      · exact .inr herror
    | none =>
      rw [run, see_of_not_find hfind]
      rw [see_of_not_find hfind] at hP
      rcases hfetch s x.2 hI (hnow hfind) with ⟨hres, hD⟩ | ⟨b, hres, hI', htable⟩
      · refine .inr ⟨e, ?_⟩
        rw [hres, ← he]
        exact run_lost hdead (next none) hD
      · rw [hres] at hP ⊢
        rcases ih (some b) (hhonest b) (x := (some (s, b), (fetch s x.2).2)) hI'
          (coherent_some htable) hP with ⟨hI', hc', heval⟩ | herror
        · refine .inl ⟨hI', hc', fun r hr ↦ heval r ?_⟩
          rw [eval] at hr
          split at hr
          · next b' hs =>
            rw [htable b' hs]
            exact hr
          · cases hr
        · exact .inr herror

end Scan
