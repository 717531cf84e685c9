import Mathlib.Data.List.Chain
import Mathlib.Data.List.Nodup
import Mathlib.Data.Nat.Notation
import Mathlib.Tactic.Common

/-!
# Blocks that tile a range

An allocator that puts a header in front of every block and never leaves a gap between two blocks is
a list of blocks: the addresses follow from the sizes.

* `Blocks.layout` — the blocks with the addresses of their headers, and `Blocks.live` the used ones.
* `Blocks.place` — first fit: the first free block that is large enough is used, and cut in two if
  enough is left of it; otherwise a new block goes to the end.  `place_cases` says all it can do.
* `Blocks.release` — one block is marked as free.
* `Blocks.melt` — free neighbours are joined, from the left to the right.

The used blocks that are there stay where they are under all three, except for the one that is
released: `live_place`, `live_release`, `live_melt`.  Joining leaves no two free neighbours, and the
other two do not need more than one round of it: `melted_melt`, `Melted.place`.
-/

set_option autoImplicit false

namespace Blocks

/-- A block: whether it is in use, and the bytes behind its header. -/
structure Block where
  used : Bool
  size : ℕ
  deriving DecidableEq, Repr

/-- The bytes the blocks take, with their headers. -/
def span (hdr : ℕ) : List Block → ℕ
  | [] => 0
  | b :: bs => hdr + b.size + span hdr bs

/-- The blocks with the addresses of their headers, the first of which is `a`. -/
def layout (hdr : ℕ) : ℕ → List Block → List (ℕ × Block)
  | _, [] => []
  | a, b :: bs => (a, b) :: layout hdr (a + (hdr + b.size)) bs

/-- The blocks that are in use. -/
def live (hdr a : ℕ) (bs : List Block) : List (ℕ × Block) :=
  (layout hdr a bs).filter fun e ↦ e.2.used

/-- A free block of at least `size` bytes. -/
def Fits (size : ℕ) (b : Block) : Prop := b.used = false ∧ size ≤ b.size

instance (size : ℕ) (b : Block) : Decidable (Fits size b) := inferInstanceAs (Decidable (_ ∧ _))

/-- A block is taken into use for `size` bytes.  What is left becomes a block of its own if it is
`min` bytes or more, header included. -/
def carve (hdr min size : ℕ) (b : Block) : List Block :=
  if min ≤ b.size - size then [⟨true, size⟩, ⟨false, b.size - size - hdr⟩] else [⟨true, b.size⟩]

/-- First fit. -/
def place (hdr min size : ℕ) : List Block → List Block
  | [] => [⟨true, size⟩]
  | b :: bs =>
    if Fits size b then carve hdr min size b ++ bs else b :: place hdr min size bs

/-- The address of the header of the block that `place` takes into use. -/
def placed (hdr size : ℕ) : ℕ → List Block → ℕ
  | a, [] => a
  | a, b :: bs => if Fits size b then a else placed hdr size (a + (hdr + b.size)) bs

/-- The block whose header is at `p` marked as free. -/
def release (hdr p : ℕ) : ℕ → List Block → List Block
  | _, [] => []
  | a, b :: bs =>
    if p = a then ⟨false, b.size⟩ :: bs else b :: release hdr p (a + (hdr + b.size)) bs

/-- Free neighbours joined, where `b` is the block in front. -/
def meltFrom (hdr : ℕ) (b : Block) : List Block → List Block
  | [] => [b]
  | c :: cs =>
    if b.used = false ∧ c.used = false then meltFrom hdr ⟨false, b.size + (c.size + hdr)⟩ cs
    else b :: meltFrom hdr c cs

/-- Free neighbours joined. -/
def melt (hdr : ℕ) : List Block → List Block
  | [] => []
  | b :: bs => meltFrom hdr b bs

/-- No two neighbours are both free. -/
def Melted (bs : List Block) : Prop := bs.IsChain fun b c ↦ b.used = true ∨ c.used = true

variable {hdr min size a p : ℕ} {b : Block} {bs pre post : List Block}

/-! ## Where the blocks are -/

@[simp] theorem span_append (bs cs : List Block) :
    span hdr (bs ++ cs) = span hdr bs + span hdr cs := by
  induction bs with
  | nil => rw [List.nil_append, span, Nat.zero_add]
  | cons b bs ih => rw [List.cons_append, span, span, ih, ← Nat.add_assoc]

theorem add_span_cons (a : ℕ) (b : Block) (bs : List Block) :
    a + span hdr (b :: bs) = a + (hdr + b.size) + span hdr bs :=
  (Nat.add_assoc ..).symm

theorem layout_append (a : ℕ) (bs cs : List Block) :
    layout hdr a (bs ++ cs) = layout hdr a bs ++ layout hdr (a + span hdr bs) cs := by
  induction bs generalizing a with
  | nil => rfl
  | cons b bs ih =>
    rw [List.cons_append, layout, layout, ih, List.cons_append, span, Nat.add_assoc a]

@[simp] theorem length_layout (a : ℕ) (bs : List Block) : (layout hdr a bs).length = bs.length := by
  induction bs generalizing a with
  | nil => rfl
  | cons b bs ih => rw [layout, List.length_cons, List.length_cons, ih]

theorem layout_eq_nil : layout hdr a bs = [] ↔ bs = [] := by
  rw [← List.length_eq_zero_iff, length_layout, List.length_eq_zero_iff]

theorem live_cons (a : ℕ) (b : Block) (bs : List Block) :
    live hdr a (b :: bs) =
      (if b.used then [(a, b)] else []) ++ live hdr (a + (hdr + b.size)) bs := by
  rw [live, layout, List.filter_cons]
  cases b.used <;> rfl

theorem live_append (a : ℕ) (bs cs : List Block) :
    live hdr a (bs ++ cs) = live hdr a bs ++ live hdr (a + span hdr bs) cs := by
  rw [live, layout_append, List.filter_append]
  rfl

/-- A block is inside the range, and what is in front of it is the blocks that are listed first. -/
theorem exists_of_mem_layout (h : (p, b) ∈ layout hdr a bs) :
    ∃ pre post, bs = pre ++ b :: post ∧ p = a + span hdr pre := by
  induction bs generalizing a with
  | nil => exact absurd h List.not_mem_nil
  | cons c bs ih =>
    rw [layout, List.mem_cons] at h
    rcases h with h | h
    · obtain ⟨rfl, rfl⟩ := Prod.mk.inj h
      exact ⟨[], bs, rfl, rfl⟩
    · obtain ⟨pre, post, rfl, rfl⟩ := ih h
      exact ⟨c :: pre, post, rfl, by rw [span]; omega⟩

theorem mem_layout_append (hdr a : ℕ) (pre post : List Block) (b : Block) :
    (a + span hdr pre, b) ∈ layout hdr a (pre ++ b :: post) := by
  rw [layout_append]
  exact List.mem_append_right _ List.mem_cons_self

theorem mem_layout_bounds (h : (p, b) ∈ layout hdr a bs) :
    a ≤ p ∧ p + (hdr + b.size) ≤ a + span hdr bs := by
  obtain ⟨pre, post, rfl, rfl⟩ := exists_of_mem_layout h
  rw [span_append, span]
  omega

/-- **The blocks do not overlap.** -/
theorem pairwise_layout (hdr a : ℕ) (bs : List Block) :
    (layout hdr a bs).Pairwise fun x y ↦ x.1 + (hdr + x.2.size) ≤ y.1 := by
  induction bs generalizing a with
  | nil => exact List.Pairwise.nil
  | cons b bs ih => exact List.pairwise_cons.mpr ⟨fun e he ↦ (mem_layout_bounds he).1, ih _⟩

/-- Of two blocks one is in front of the other, or they are the same. -/
theorem separate {e f : ℕ × Block} (he : e ∈ layout hdr a bs) (hf : f ∈ layout hdr a bs) :
    e = f ∨ e.1 + (hdr + e.2.size) ≤ f.1 ∨ f.1 + (hdr + f.2.size) ≤ e.1 := by
  induction bs generalizing a with
  | nil => exact absurd he List.not_mem_nil
  | cons b bs ih =>
    rw [layout, List.mem_cons] at he hf
    rcases he with rfl | he <;> rcases hf with rfl | hf
    · exact .inl rfl
    · exact .inr (.inl (mem_layout_bounds hf).1)
    · exact .inr (.inr (mem_layout_bounds he).1)
    · exact ih he hf

theorem pairwise_live (hdr a : ℕ) (bs : List Block) :
    (live hdr a bs).Pairwise fun x y ↦ x.1 + (hdr + x.2.size) ≤ y.1 :=
  (pairwise_layout hdr a bs).filter _

theorem mem_live : (p, b) ∈ live hdr a bs ↔ (p, b) ∈ layout hdr a bs ∧ b.used = true :=
  List.mem_filter

@[simp] theorem map_snd_layout (hdr a : ℕ) (bs : List Block) :
    (layout hdr a bs).map Prod.snd = bs := by
  induction bs generalizing a with
  | nil => rfl
  | cons b bs ih => rw [layout, List.map_cons, ih]

theorem map_snd_live (hdr a : ℕ) (bs : List Block) :
    (live hdr a bs).map Prod.snd = bs.filter Block.used := by
  induction bs generalizing a with
  | nil => rfl
  | cons b bs ih =>
    rw [live_cons, List.map_append, ih, List.filter_cons]
    cases b.used <;> rfl

theorem nodup_live (h : 0 < hdr) (a : ℕ) (bs : List Block) :
    ((live hdr a bs).map Prod.fst).Nodup := by
  rw [List.nodup_iff_pairwise_ne, List.pairwise_map]
  exact (pairwise_live hdr a bs).imp fun hxy heq ↦ by omega

/-! ## First fit -/

theorem span_carve (hmin : hdr ≤ min) (hb : size ≤ b.size) :
    span hdr (carve hdr min size b) = hdr + b.size := by
  rw [carve]
  split
  · simp only [span]
    omega
  · rfl

/-- **First fit.**  The first block that fits is carved, or there is none and one is added. -/
theorem place_cases (hdr min size a : ℕ) (bs : List Block) :
    (∃ pre b post, bs = pre ++ b :: post ∧ (∀ c ∈ pre, ¬ Fits size c) ∧ Fits size b ∧
      place hdr min size bs = pre ++ (carve hdr min size b ++ post) ∧
        placed hdr size a bs = a + span hdr pre) ∨
    ((∀ c ∈ bs, ¬ Fits size c) ∧ place hdr min size bs = bs ++ [⟨true, size⟩] ∧
      placed hdr size a bs = a + span hdr bs) := by
  induction bs generalizing a with
  | nil => exact .inr ⟨fun c hc ↦ absurd hc List.not_mem_nil, rfl, rfl⟩
  | cons c bs ih =>
    rw [place, placed]
    by_cases hc : Fits size c
    · rw [if_pos hc, if_pos hc]
      exact .inl ⟨[], c, bs, rfl, fun c hc ↦ absurd hc List.not_mem_nil, hc, rfl, rfl⟩
    · rw [if_neg hc, if_neg hc]
      obtain ⟨pre, b, post, rfl, hpre, hb, hplace, hat⟩ | ⟨hbs, hplace, hat⟩ :=
        ih (a + (hdr + c.size))
      · refine .inl ⟨c :: pre, b, post, rfl, List.forall_mem_cons.mpr ⟨hc, hpre⟩, hb, ?_, ?_⟩
        · rw [hplace, List.cons_append]
        · rw [hat, span, Nat.add_assoc]
      · refine .inr ⟨List.forall_mem_cons.mpr ⟨hc, hbs⟩, ?_, ?_⟩
        · rw [hplace, List.cons_append]
        · rw [hat, span, Nat.add_assoc]

theorem place_ne_nil (hdr min size : ℕ) (bs : List Block) : place hdr min size bs ≠ [] := by
  obtain ⟨pre, b, post, -, -, -, hplace, -⟩ | ⟨-, hplace, -⟩ := place_cases hdr min size 0 bs
  · rw [hplace, carve]
    split <;> simp
  · rw [hplace]
    simp

theorem live_carve (hdr min size a : ℕ) (b : Block) :
    ∃ s, (size ≤ b.size → size ≤ s) ∧ live hdr a (carve hdr min size b) = [(a, ⟨true, s⟩)] := by
  rw [carve]
  split
  · exact ⟨size, fun _ ↦ Nat.le_refl _, rfl⟩
  · exact ⟨b.size, id, rfl⟩

/-- **First fit adds one block to those in use**, which is as large as it was asked for. -/
theorem live_place (hmin : hdr ≤ min) (size a : ℕ) (bs : List Block) :
    ∃ l r s, size ≤ s ∧ live hdr a bs = l ++ r ∧
      live hdr a (place hdr min size bs) = l ++ (placed hdr size a bs, ⟨true, s⟩) :: r := by
  obtain ⟨pre, b, post, rfl, -, hb, hplace, hat⟩ | ⟨-, hplace, hat⟩ :=
    place_cases hdr min size a bs
  · obtain ⟨s, hs, hcarve⟩ := live_carve hdr min size (a + span hdr pre) b
    refine ⟨live hdr a pre, live hdr (a + span hdr pre + (hdr + b.size)) post, s, hs hb.2, ?_, ?_⟩
    · rw [live_append, live_cons, hb.1]
      rfl
    · rw [hplace, hat, live_append, live_append, hcarve, span_carve hmin hb.2]
      rfl
  · refine ⟨live hdr a bs, [], size, Nat.le_refl _, (List.append_nil _).symm, ?_⟩
    rw [hplace, hat, live_append]
    rfl

theorem Melted.append_used {c : Block} (h : Melted bs) (hc : c.used = true) : Melted (bs ++ [c]) :=
  List.isChain_append.mpr ⟨h, List.isChain_singleton c, fun _ _ y hy ↦ by
    rw [List.head?_cons, Option.mem_some_iff] at hy
    exact .inr (hy ▸ hc)⟩

theorem Melted.place (h : Melted bs) : Melted (place hdr min size bs) := by
  obtain ⟨pre, b, post, rfl, -, hb, hplace, -⟩ | ⟨-, hplace, -⟩ :=
    place_cases hdr min size 0 bs
  · rw [hplace]
    obtain ⟨hpre, hrest, -⟩ := List.isChain_append.mp h
    have hpost : ∀ y ∈ post.head?, y.used = true := fun y hy ↦
      ((List.isChain_cons.mp hrest).1 y hy).resolve_left (by rw [hb.1]; simp)
    have htail := (List.isChain_cons.mp hrest).2
    refine List.isChain_append.mpr ⟨hpre, ?_, fun x _ y hy ↦ .inr ?_⟩
    · rw [carve]
      split
      · refine List.isChain_cons.mpr ⟨fun y _ ↦ .inl rfl, ?_⟩
        exact List.isChain_cons.mpr ⟨fun y hy ↦ .inr (hpost y hy), htail⟩
      · exact List.isChain_cons.mpr ⟨fun y _ ↦ .inl rfl, htail⟩
    · rw [carve] at hy
      split at hy <;> obtain rfl := Option.some.inj hy <;> rfl
  · rw [hplace]
    exact h.append_used rfl

/-! ## Releasing a block -/

theorem release_append (h : 0 < hdr) (a : ℕ) (pre post : List Block) (b : Block) :
    release hdr (a + span hdr pre) a (pre ++ b :: post) = pre ++ ⟨false, b.size⟩ :: post := by
  induction pre generalizing a with
  | nil => exact if_pos rfl
  | cons c pre ih =>
    have hne : a + span hdr (c :: pre) ≠ a := by
      rw [span]
      omega
    rw [List.cons_append, release, if_neg hne, span, ← Nat.add_assoc, ih, List.cons_append]

theorem release_eq_nil : release hdr p a bs = [] ↔ bs = [] := by
  cases bs with
  | nil => exact Iff.rfl
  | cons b bs =>
    rw [release]
    split <;> exact iff_of_false (List.cons_ne_nil _ _) (List.cons_ne_nil _ _)

/-- **Releasing a block takes one from those in use.** -/
theorem live_release (h : 0 < hdr) (hp : (p, b) ∈ live hdr a bs) :
    ∃ l r, live hdr a bs = l ++ (p, b) :: r ∧ live hdr a (release hdr p a bs) = l ++ r := by
  obtain ⟨hmem, hused⟩ := mem_live.mp hp
  obtain ⟨pre, post, rfl, rfl⟩ := exists_of_mem_layout hmem
  refine ⟨live hdr a pre, live hdr (a + span hdr pre + (hdr + b.size)) post, ?_, ?_⟩
  · rw [live_append, live_cons, hused]
    rfl
  · rw [release_append h, live_append, live_cons]
    rfl

/-! ## Joining free neighbours -/

theorem span_meltFrom (b : Block) (bs : List Block) :
    span hdr (meltFrom hdr b bs) = span hdr (b :: bs) := by
  induction bs generalizing b with
  | nil => rfl
  | cons c cs ih =>
    rw [meltFrom]
    split
    · rw [ih]
      simp only [span]
      omega
    · rw [span, ih]
      rfl

theorem span_melt (bs : List Block) : span hdr (melt hdr bs) = span hdr bs := by
  cases bs with
  | nil => rfl
  | cons b bs => exact span_meltFrom b bs

theorem live_meltFrom (a : ℕ) (b : Block) (bs : List Block) :
    live hdr a (meltFrom hdr b bs) = live hdr a (b :: bs) := by
  induction bs generalizing a b with
  | nil => rfl
  | cons c cs ih =>
    rw [meltFrom]
    split
    · rename_i hfree
      rw [ih, live_cons, live_cons, live_cons, hfree.1, hfree.2]
      have haddr : a + (hdr + b.size) + (hdr + c.size) = a + (hdr + (b.size + (c.size + hdr))) := by
        omega
      rw [haddr]
      rfl
    · rw [live_cons, ih, live_cons _ b]

/-- **Joining leaves the blocks in use where they are.** -/
theorem live_melt (a : ℕ) (bs : List Block) : live hdr a (melt hdr bs) = live hdr a bs := by
  cases bs with
  | nil => rfl
  | cons b bs => exact live_meltFrom a b bs

theorem head?_meltFrom (hdr : ℕ) (b : Block) (bs : List Block) :
    ∃ c, (meltFrom hdr b bs).head? = some c ∧ c.used = b.used := by
  induction bs generalizing b with
  | nil => exact ⟨b, rfl, rfl⟩
  | cons c cs ih =>
    rw [meltFrom]
    split
    · rename_i hfree
      obtain ⟨d, hd, hused⟩ := ih ⟨false, b.size + (c.size + hdr)⟩
      exact ⟨d, hd, hused.trans hfree.1.symm⟩
    · exact ⟨b, rfl, rfl⟩

theorem meltFrom_ne_nil (hdr : ℕ) (b : Block) (bs : List Block) : meltFrom hdr b bs ≠ [] := by
  obtain ⟨c, hc, -⟩ := head?_meltFrom hdr b bs
  rintro hnil
  rw [hnil] at hc
  exact absurd hc (by simp)

theorem melt_eq_nil : melt hdr bs = [] ↔ bs = [] := by
  cases bs with
  | nil => exact Iff.rfl
  | cons b bs => exact iff_of_false (meltFrom_ne_nil hdr b bs) (List.cons_ne_nil _ _)

theorem melted_meltFrom (b : Block) (bs : List Block) : Melted (meltFrom hdr b bs) := by
  induction bs generalizing b with
  | nil => exact List.isChain_singleton b
  | cons c cs ih =>
    rw [meltFrom]
    split
    · exact ih _
    · rename_i hnot
      refine List.isChain_cons.mpr ⟨fun d hd ↦ ?_, ih c⟩
      obtain ⟨e, he, hused⟩ := head?_meltFrom hdr c cs
      obtain rfl : e = d := Option.some.inj (he.symm.trans hd)
      rw [hused]
      cases hb : b.used with
      | true => exact .inl rfl
      | false =>
        cases hc : c.used with
        | true => exact .inr rfl
        | false => exact absurd ⟨hb, hc⟩ hnot

/-- **Joining leaves no two free neighbours.** -/
theorem melted_melt (bs : List Block) : Melted (melt hdr bs) := by
  cases bs with
  | nil => exact List.isChain_nil
  | cons b bs => exact melted_meltFrom b bs

/-- Where no block is in use and no two neighbours are free there is one block, or none. -/
theorem Melted.length_le_one (h : Melted bs) (hlive : live hdr a bs = []) : bs.length ≤ 1 := by
  match bs, h with
  | [], _ => exact Nat.zero_le _
  | [b], _ => exact Nat.le_refl _
  | b :: c :: bs, h =>
    have hused := (List.isChain_cons_cons.mp h).1
    rw [live_cons, live_cons] at hlive
    rcases hused with hused | hused <;> simp [hused] at hlive

/-! ## Alignment -/

/-- The sizes are multiples of `d`. -/
def Aligned (d : ℕ) (bs : List Block) : Prop := ∀ b ∈ bs, d ∣ b.size

variable {d : ℕ}

theorem Aligned.dvd_span (h : Aligned d bs) (hhdr : d ∣ hdr) : d ∣ span hdr bs := by
  induction bs with
  | nil => exact Nat.dvd_zero d
  | cons b bs ih =>
    obtain ⟨hb, hbs⟩ := List.forall_mem_cons.mp h
    exact Nat.dvd_add (Nat.dvd_add hhdr hb) (ih hbs)

/-- **The headers are where they should be.** -/
theorem Aligned.dvd_of_mem (h : Aligned d bs) (hhdr : d ∣ hdr) (ha : d ∣ a)
    (hmem : (p, b) ∈ layout hdr a bs) : d ∣ p := by
  obtain ⟨pre, post, rfl, rfl⟩ := exists_of_mem_layout hmem
  exact Nat.dvd_add ha (Aligned.dvd_span (fun c hc ↦ h c (List.mem_append_left _ hc)) hhdr)

theorem Aligned.place (h : Aligned d bs) (hhdr : d ∣ hdr) (hsize : d ∣ size) :
    Aligned d (place hdr min size bs) := by
  obtain ⟨pre, b, post, rfl, -, -, hplace, -⟩ | ⟨-, hplace, -⟩ := place_cases hdr min size 0 bs
  · obtain ⟨hpre, hrest⟩ := List.forall_mem_append.mp h
    obtain ⟨hb, hpost⟩ := List.forall_mem_cons.mp hrest
    rw [hplace, carve]
    refine List.forall_mem_append.mpr ⟨hpre, List.forall_mem_append.mpr ⟨?_, hpost⟩⟩
    split
    · refine List.forall_mem_cons.mpr ⟨hsize, List.forall_mem_singleton.mpr ?_⟩
      exact Nat.dvd_sub (Nat.dvd_sub hb hsize) hhdr
    · exact List.forall_mem_singleton.mpr hb
  · rw [hplace]
    exact List.forall_mem_append.mpr ⟨h, List.forall_mem_singleton.mpr hsize⟩

theorem Aligned.release (h : Aligned d bs) (p a : ℕ) : Aligned d (release hdr p a bs) := by
  induction bs generalizing a with
  | nil => exact h
  | cons b bs ih =>
    obtain ⟨hb, hbs⟩ := List.forall_mem_cons.mp h
    rw [Blocks.release]
    split
    · exact List.forall_mem_cons.mpr ⟨hb, hbs⟩
    · exact List.forall_mem_cons.mpr ⟨hb, ih hbs _⟩

theorem Aligned.meltFrom (h : Aligned d (b :: bs)) (hhdr : d ∣ hdr) :
    Aligned d (meltFrom hdr b bs) := by
  induction bs generalizing b with
  | nil => exact h
  | cons c cs ih =>
    obtain ⟨hb, hc⟩ := List.forall_mem_cons.mp h
    rw [Blocks.meltFrom]
    split
    · have hjoined : d ∣ b.size + (c.size + hdr) :=
        Nat.dvd_add hb (Nat.dvd_add (hc c List.mem_cons_self) hhdr)
      exact ih (List.forall_mem_cons.mpr ⟨hjoined, (List.forall_mem_cons.mp hc).2⟩)
    · exact List.forall_mem_cons.mpr ⟨hb, ih hc⟩

theorem Aligned.melt (h : Aligned d bs) (hhdr : d ∣ hdr) : Aligned d (melt hdr bs) := by
  cases bs with
  | nil => exact h
  | cons b bs => exact h.meltFrom hhdr

end Blocks
