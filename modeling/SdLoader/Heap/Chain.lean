import SdLoader.Heap.Defs

/-!
# The nodes in memory

What the headers say is a list of blocks, and `_heap_alloc` and `_heap_free` do to it what first fit
and joining do to such a list.

* `Seg` — the headers of some blocks that follow one another are in memory, and are linked.
* `run_seek`, `takeNode_spec`, `appendNode_spec` — `_heap_alloc`.
* `run_defrag` — the loop of `_heap_free`.

Each of them says what else it changes: `takeNode` nothing in front of the node, and nothing behind
the header of the one after it; the loop of `_heap_free` nothing but headers.
-/

set_option autoImplicit false

namespace SdLoader
namespace Heap

open Blocks (Block Fits span layout live place placed carve melt meltFrom)

variable {m m' : Mem} {a b k node prev last size v x : ℕ} {blk : Block} {bs pre post : List Block}

/-! ## Words -/

theorem setWord_of_not_mem (h : x < a ∨ a + 4 ≤ x) : setWord m a v x = m x :=
  Store.blit_of_not_mem h

theorem word_setWord (h : v < 2 ^ 32) : Store.word (setWord m a v) a = v :=
  Store.word_eq_of_wordByte h fun _ hk ↦ Store.blit_add hk

theorem word_setWord_of_disjoint (h : b + 4 ≤ a ∨ a + 4 ≤ b) :
    Store.word (setWord m a v) b = Store.word m b :=
  Store.word_congr fun _ _ ↦ setWord_of_not_mem (by omega)

/-! ## Headers -/

/-- A header is in memory. -/
structure NodeAt (m : Mem) (node prev : ℕ) (b : Block) (next : ℕ) : Prop where
  used : usedAt m node = b.used.toNat
  size : sizeAt m node = b.size
  prev : prevAt m node = prev
  next : nextAt m node = next

/-- The link to the blocks `bs`, the first of which is at `a`; `last` if there are none. -/
def linkTo (a last : ℕ) : List Block → ℕ
  | [] => last
  | _ :: _ => a

/-- The headers of the blocks `bs`, from `a` on, are in memory and linked.  `prev` is what the first
links back to and `last` what the last links on to. -/
def Seg (m : Mem) : ℕ → ℕ → List Block → ℕ → Prop
  | _, _, [], _ => True
  | prev, a, b :: bs, last =>
    NodeAt m a prev b (linkTo (a + (32 + b.size)) last bs) ∧
      Seg m a (a + (32 + b.size)) bs last

/-- The header of the last of the blocks `bs`, from `a` on; `prev` if there are none. -/
def tip : ℕ → ℕ → List Block → ℕ
  | prev, _, [] => prev
  | _, a, b :: bs => tip a (a + (32 + b.size)) bs

theorem NodeAt.congr {next : ℕ} (h : NodeAt m node prev blk next)
    (hsame : ∀ k < 16, m' (node + k) = m (node + k)) : NodeAt m' node prev blk next where
  used := (Store.word_congr fun k hk ↦ hsame k (by omega)).trans h.used
  size := by
    refine (Store.word_congr fun k hk ↦ ?_).trans h.size
    rw [Nat.add_assoc]
    exact hsame _ (by omega)
  prev := by
    refine (Store.word_congr fun k hk ↦ ?_).trans h.prev
    rw [Nat.add_assoc]
    exact hsame _ (by omega)
  next := by
    refine (Store.word_congr fun k hk ↦ ?_).trans h.next
    rw [Nat.add_assoc]
    exact hsame _ (by omega)

/-- A segment is there as long as its headers are. -/
theorem Seg.congr (h : Seg m prev a bs last)
    (hsame : ∀ e ∈ layout 32 a bs, ∀ k < 16, m' (e.1 + k) = m (e.1 + k)) :
    Seg m' prev a bs last := by
  induction bs generalizing prev a with
  | nil => trivial
  | cons b bs ih =>
    refine ⟨h.1.congr (hsame _ List.mem_cons_self), ih h.2 fun e he ↦ ?_⟩
    exact hsame e (List.mem_cons_of_mem _ he)

theorem Seg.congr_of_inside (h : Seg m prev a bs last)
    (hsame : ∀ x, a ≤ x → x < a + span 32 bs → m' x = m x) : Seg m' prev a bs last := by
  refine h.congr fun e he k hk ↦ ?_
  have hbounds := Blocks.mem_layout_bounds he
  exact hsame _ (by omega) (by omega)

theorem seg_append :
    Seg m prev a (pre ++ post) last ↔
      Seg m prev a pre (linkTo (a + span 32 pre) last post) ∧
        Seg m (tip prev a pre) (a + span 32 pre) post last := by
  induction pre generalizing prev a with
  | nil => exact (and_iff_right trivial).symm
  | cons b pre ih =>
    have hlink : linkTo (a + (32 + b.size)) last (pre ++ post) =
        linkTo (a + (32 + b.size)) (linkTo (a + span 32 (b :: pre)) last post) pre := by
      cases pre with
      | nil => rfl
      | cons c pre => rfl
    rw [List.cons_append, Seg, Seg, hlink, ih, tip, Blocks.add_span_cons, and_assoc]

theorem linkTo_of_ne_nil (h : bs ≠ []) : linkTo a last bs = a := by
  cases bs with
  | nil => exact absurd rfl h
  | cons b bs => rfl

theorem Seg.block (h : Seg m prev a (pre ++ blk :: post) last) :
    NodeAt m (a + span 32 pre) (tip prev a pre) blk
      (linkTo (a + span 32 pre + (32 + blk.size)) last post) :=
  (seg_append.mp h).2.1

theorem used_eq_zero {next : ℕ} (h : NodeAt m node prev blk next) :
    usedAt m node = 0 ↔ blk.used = false := by
  rw [h.used]
  cases blk.used <;> simp

theorem length_le_of_span (h : a + span 32 bs ≤ 2 ^ 32) : bs.length < nodeLimit := by
  have hlen : 32 * bs.length ≤ span 32 bs := by
    clear h
    induction bs with
    | nil => exact Nat.le_refl _
    | cons b bs ih =>
      rw [span, List.length_cons]
      omega
  rw [nodeLimit]
  omega

/-! ## The search for a node -/

/-- The condition of the search, on a node whose header is known. -/
theorem seek_iff {next : ℕ} (h : NodeAt m node prev blk next) :
    usedAt m node = 0 ∧ size ≤ sizeAt m node ↔ Fits size blk := by
  rw [h.size, used_eq_zero h]
  exact Iff.rfl

/-- **What the search ends at**: the first node that fits, or the last one. -/
theorem run_seek (ha : 0 < a) (h : Seg m prev a (blk :: bs) 0) {n : ℕ} (hn : bs.length < n) :
    Loop.run (seekPass m size) n a =
      .leave (if ∃ c ∈ blk :: bs, Fits size c then .unused (placed 32 size a (blk :: bs))
        else .last (tip prev a (blk :: bs))) := by
  obtain ⟨n, rfl⟩ : ∃ k, n = k + 1 := ⟨n - 1, by omega⟩
  by_cases hfit : Fits size blk
  · refine Loop.run_succ_leave ?_
    rw [seekPass, if_pos ((seek_iff h.1).mpr hfit), if_pos ⟨blk, List.mem_cons_self, hfit⟩, placed,
      if_pos hfit]
  · have hgo := mt (seek_iff h.1).mp hfit
    induction bs generalizing prev a blk n with
    | nil =>
      refine Loop.run_succ_leave ?_
      rw [seekPass, if_neg hgo, h.1.next, linkTo, if_neg (not_not_intro rfl),
        if_neg (by simpa using hfit)]
      rfl
    | cons c bs ih =>
      have hpass : seekPass m size a = .again (a + (32 + blk.size)) := by
        rw [seekPass, if_neg hgo, h.1.next, linkTo, if_pos (by omega)]
      rw [Loop.run_succ_again hpass, placed, if_neg hfit, tip]
      simp only [List.exists_mem_cons_iff (a := blk), or_iff_right hfit]
      obtain ⟨n, rfl⟩ : ∃ k, n = k + 1 := ⟨n - 1, by rw [List.length_cons] at hn; omega⟩
      by_cases hfit' : Fits size c
      · refine Loop.run_succ_leave ?_
        rw [seekPass, if_pos ((seek_iff h.2.1).mpr hfit'), if_pos ⟨c, List.mem_cons_self, hfit'⟩,
          placed, if_pos hfit']
      · exact ih (by omega) h.2 n (Nat.lt_of_succ_lt_succ hn) hfit' (mt (seek_iff h.2.1).mp hfit')

/-! ## Taking a node -/

/-- The header of the first of some blocks is changed: it links back to `node` now. -/
theorem Seg.setPrev (h : Seg m prev a (blk :: bs) last) (hnode : node < 2 ^ 32) :
    Seg (setPrev m a node) node a (blk :: bs) last := by
  refine ⟨⟨?_, ?_, ?_, ?_⟩, h.2.congr_of_inside fun x hx _ ↦ setWord_of_not_mem (by omega)⟩
  · exact (word_setWord_of_disjoint (by omega)).trans h.1.used
  · exact (word_setWord_of_disjoint (by omega)).trans h.1.size
  · exact word_setWord hnode
  · exact (word_setWord_of_disjoint (by omega)).trans h.1.next

/-- The node behind the one in hand, if there is one, links back to `node` now. -/
theorem relink_spec {l q : ℕ} (hlink : l = linkTo q 0 post) (hq : 0 < q) (h : Seg m prev q post 0)
    (hnode : node < 2 ^ 32) :
    Seg (if l ≠ 0 then setPrev m l node else m) node q post 0 ∧
      ∀ x, (post ≠ [] → x < q ∨ q + 16 ≤ x) → (if l ≠ 0 then setPrev m l node else m) x = m x := by
  cases post with
  | nil =>
    rw [hlink, linkTo, if_neg (not_not_intro rfl)]
    exact ⟨trivial, fun x _ ↦ rfl⟩
  | cons c cs =>
    rw [hlink, linkTo, if_pos (by omega)]
    refine ⟨h.setPrev hnode, fun x hx ↦ setWord_of_not_mem ?_⟩
    have hx' := hx (List.cons_ne_nil c cs)
    omega

theorem behind_eq (h : node + 32 + size < 2 ^ 32) : behind node size = node + 32 + size :=
  Nat.mod_eq_of_lt h

/-- A node cut in two. -/
theorem cutNode_spec {prev' q rest : ℕ} (hnode : NodeAt m node prev blk (linkTo q 0 post))
    (hpost : Seg m prev' q post 0) (hq : q = node + (32 + (size + (32 + rest))))
    (hroom : q + span 32 post ≤ 2 ^ 32) :
    Seg (cutNode m node size (32 + rest)) prev node (⟨true, size⟩ :: ⟨false, rest⟩ :: post) 0 ∧
      ∀ x, x < node ∨ q + 16 ≤ x → cutNode m node size (32 + rest) x = m x := by
  rw [cutNode]
  simp only [behind_eq (show node + 32 + size < 2 ^ 32 by omega)]
  set new := node + 32 + size with hnew
  set m₂ := setUsed (setSize m new (32 + rest - hnodeSize)) new 0 with hm₂
  set m₃ := setNext m₂ new (nextAt m₂ node) with hm₃
  have hlink : linkTo q 0 post < 2 ^ 32 := by
    cases post with
    | nil => exact Nat.two_pow_pos 32
    | cons c cs =>
      rw [span] at hroom
      rw [linkTo]
      omega
  -- the header of the new node, all of it but the link back
  have hsame₂ : ∀ x, x < new ∨ new + 8 ≤ x → m₂ x = m x := fun x hx ↦ by
    rw [hm₂, setUsed, setSize, setWord_of_not_mem (by omega), setWord_of_not_mem (by omega)]
  have hnext₂ : nextAt m₂ node = linkTo q 0 post :=
    (Store.word_congr fun k _ ↦ hsame₂ _ (by omega)).trans hnode.next
  have hsame₃ : ∀ x, x < new ∨ new + 16 ≤ x → m₃ x = m x := fun x hx ↦ by
    rw [hm₃, setNext, setWord_of_not_mem (by omega), hsame₂ x (by omega)]
  have hused₃ : usedAt m₃ new = 0 :=
    (word_setWord_of_disjoint (by omega)).trans (word_setWord (by omega))
  have hsize₃ : sizeAt m₃ new = rest := by
    refine (word_setWord_of_disjoint (by omega)).trans ?_
    refine (word_setWord_of_disjoint (by omega)).trans ?_
    refine (word_setWord (by omega)).trans ?_
    rw [hnodeSize, Nat.add_sub_cancel_left]
  have hnext₃ : nextAt m₃ new = linkTo q 0 post := by
    rw [hm₃, hnext₂]
    exact word_setWord hlink
  -- the link back of the node behind it
  obtain ⟨hpost₄, hsame₄⟩ := relink_spec hnext₃ (by omega)
    (hpost.congr_of_inside fun x hx _ ↦ hsame₃ x (by omega)) (show new < 2 ^ 32 by omega)
  generalize (if nextAt m₃ new ≠ 0 then setPrev m₃ (nextAt m₃ new) new else m₃) =
    m₄ at hpost₄ hsame₄ ⊢
  -- and what is left of the header of the node itself
  set m₈ := setUsed (setSize (setNext (setPrev m₄ new node) node new) node size) node 1 with hm₈
  have hsame₈ : ∀ x, (x < node ∨ node + 16 ≤ x) → (x < new + 8 ∨ new + 12 ≤ x) → m₈ x = m₄ x :=
    fun x hx hx' ↦ by
      rw [hm₈, setUsed, setSize, setNext, setPrev, setWord_of_not_mem (by omega),
        setWord_of_not_mem (by omega), setWord_of_not_mem (by omega), setWord_of_not_mem (by omega)]
  have hsame : ∀ x, (x < node ∨ q + 16 ≤ x) → m₈ x = m x := fun x hx ↦ by
    rw [hsame₈ x (by omega) (by omega), hsame₄ x fun _ ↦ by omega, hsame₃ x (by omega)]
  refine ⟨⟨⟨?_, ?_, ?_, ?_⟩, ?_⟩, hsame⟩
  · exact word_setWord (by omega)
  · simp (disch := omega) only [hm₈, sizeAt, setUsed, setSize, word_setWord,
      word_setWord_of_disjoint]
  · simp (disch := omega) only [hm₈, prevAt, setUsed, setSize, setNext, setPrev,
      word_setWord_of_disjoint]
    refine (Store.word_congr fun k hk ↦ ?_).trans hnode.prev
    rw [hsame₄ _ fun _ ↦ by omega, hsame₃ _ (by omega)]
  · simp (disch := omega) only [hm₈, nextAt, setUsed, setSize, setNext, word_setWord,
      word_setWord_of_disjoint, linkTo]
    omega
  · change Seg m₈ node (node + (32 + size)) (⟨false, rest⟩ :: post) 0
    rw [← Nat.add_assoc, ← hnew]
    have hq' : new + (32 + rest) = q := by omega
    refine ⟨⟨?_, ?_, ?_, ?_⟩, ?_⟩
    · refine (Store.word_congr fun k hk ↦ ?_).trans hused₃
      rw [hsame₈ _ (by omega) (by omega), hsame₄ _ fun _ ↦ by omega]
    · refine (Store.word_congr fun k hk ↦ ?_).trans hsize₃
      rw [hsame₈ _ (by omega) (by omega), hsame₄ _ fun _ ↦ by omega]
    · simp (disch := omega) only [hm₈, prevAt, setUsed, setSize, setNext, setPrev, word_setWord,
        word_setWord_of_disjoint]
    · refine (Store.word_congr fun k hk ↦ ?_).trans (hnext₃.trans (by rw [hq']))
      rw [hsame₈ _ (by omega) (by omega), hsame₄ _ fun _ ↦ by omega]
    · rw [hq']
      exact hpost₄.congr_of_inside fun x hx _ ↦ hsame₈ x (by omega) (by omega)

/-- **A free node is taken as a free block is carved.**  Nothing in front of it changes, and nothing
behind the header of the next one. -/
theorem takeNode_spec (hseg : Seg m prev a (pre ++ blk :: post) 0) (hfit : Fits size blk)
    (hroom : a + span 32 (pre ++ blk :: post) ≤ 2 ^ 32) :
    Seg (takeNode m (a + span 32 pre) size) prev a (pre ++ (carve 32 128 size blk ++ post)) 0 ∧
      ∀ x, x < a + span 32 pre ∨ a + span 32 pre + (32 + blk.size) + 16 ≤ x →
        takeNode m (a + span 32 pre) size x = m x := by
  obtain ⟨hpre, hblk, hpost⟩ := seg_append.mp hseg
  rw [Blocks.span_append, span] at hroom
  set node := a + span 32 pre with hnode
  have hle := hfit.2
  by_cases hcut : 128 ≤ blk.size - size
  · have htake : takeNode m node size = cutNode m node size (blk.size - size) := by
      rw [takeNode, hblk.size]
      exact if_pos hcut
    obtain ⟨rest, hrest⟩ : ∃ rest, blk.size - size = 32 + rest := ⟨blk.size - size - 32, by omega⟩
    obtain ⟨hnew, hsame⟩ := cutNode_spec hblk hpost (show _ = node + (32 + (size + (32 + rest))) by
      omega) (by omega)
    rw [htake, carve, if_pos hcut, hrest, Nat.add_sub_cancel_left]
    refine ⟨seg_append.mpr ⟨hpre.congr_of_inside fun x _ hx ↦ hsame x (.inl hx), hnew⟩, hsame⟩
  · have htake : takeNode m node size =
        setUsed (setSize m node (size + (blk.size - size))) node 1 := by
      rw [takeNode, hblk.size]
      exact if_neg hcut
    have hsame : ∀ x, x < node ∨ node + 8 ≤ x → takeNode m node size x = m x := fun x hx ↦ by
      rw [htake, setUsed, setSize, setWord_of_not_mem (by omega), setWord_of_not_mem (by omega)]
    rw [carve, if_neg hcut]
    refine ⟨seg_append.mpr ⟨hpre.congr_of_inside fun x _ hx ↦ hsame x (by omega), ⟨?_, ?_, ?_, ?_⟩,
      hpost.congr_of_inside fun x hx _ ↦ hsame x (by omega)⟩, fun x hx ↦ hsame x (by omega)⟩
    · rw [htake]
      exact word_setWord (by omega)
    · rw [htake]
      refine (word_setWord_of_disjoint (by omega)).trans ?_
      refine (word_setWord (by omega)).trans ?_
      exact Nat.add_sub_cancel' hle
    · refine (Store.word_congr fun k _ ↦ hsame _ (by omega)).trans hblk.prev
    · refine (Store.word_congr fun k _ ↦ hsame _ (by omega)).trans hblk.next

/-! ## A node at the end -/

theorem tip_concat (prev a : ℕ) (pre : List Block) (blk : Block) :
    tip prev a (pre ++ [blk]) = a + span 32 pre := by
  induction pre generalizing prev a with
  | nil => rfl
  | cons c pre ih => rw [List.cons_append, tip, ih, Blocks.add_span_cons]

/-- **A node is added as a block is.** -/
theorem appendNode_spec (hseg : Seg m prev a (pre ++ [blk]) 0)
    (hroom : a + span 32 (pre ++ [blk]) + (32 + size) ≤ 2 ^ 32) :
    Seg (appendNode m (a + span 32 pre) size) prev a (pre ++ [blk] ++ [⟨true, size⟩]) 0 ∧
      ∀ x, (x < a + span 32 pre + 12 ∨ a + span 32 pre + 16 ≤ x) →
        (x < a + span 32 (pre ++ [blk]) ∨ a + span 32 (pre ++ [blk]) + 16 ≤ x) →
          appendNode m (a + span 32 pre) size x = m x := by
  obtain ⟨hpre, hblk, -⟩ := seg_append.mp hseg
  rw [Blocks.span_append, span, span, Nat.add_zero, ← Nat.add_assoc] at hroom ⊢
  set node := a + span 32 pre with hnode
  set new := node + (32 + blk.size) with hnew
  have hbehind : behind node (sizeAt m node) = new := by
    rw [hblk.size, behind_eq (by omega), hnew, Nat.add_assoc]
  set m' := appendNode m node size with hm'
  rw [appendNode, hbehind] at hm'
  have hsame : ∀ x, (x < node + 12 ∨ node + 16 ≤ x) → (x < new ∨ new + 16 ≤ x) → m' x = m x :=
    fun x hx hx' ↦ by
      rw [hm', setNext, setNext, setPrev, setSize, setUsed, setWord_of_not_mem (by omega),
        setWord_of_not_mem (by omega), setWord_of_not_mem (by omega), setWord_of_not_mem (by omega),
        setWord_of_not_mem (by omega)]
  have hnewNode : NodeAt m' new node ⟨true, size⟩ 0 := by
    refine ⟨?_, ?_, ?_, ?_⟩
    · simp (disch := omega) only [hm', usedAt, setUsed, setSize, setNext, setPrev, word_setWord,
        word_setWord_of_disjoint]
      rfl
    · simp (disch := omega) only [hm', sizeAt, setSize, setNext, setPrev, word_setWord,
        word_setWord_of_disjoint]
    · simp (disch := omega) only [hm', prevAt, setNext, setPrev, word_setWord,
        word_setWord_of_disjoint]
    · simp (disch := omega) only [hm', nextAt, setNext, word_setWord, word_setWord_of_disjoint]
  refine ⟨?_, hsame⟩
  rw [List.append_assoc]
  refine seg_append.mpr ⟨hpre.congr_of_inside fun x _ hx ↦ hsame x (by omega) (by omega),
    ⟨?_, ?_, ?_, ?_⟩, hnewNode, trivial⟩
  · exact (Store.word_congr fun k _ ↦ hsame _ (by omega) (by omega)).trans hblk.used
  · exact (Store.word_congr fun k _ ↦ hsame _ (by omega) (by omega)).trans hblk.size
  · exact (Store.word_congr fun k _ ↦ hsame _ (by omega) (by omega)).trans hblk.prev
  · rw [hm']
    exact word_setWord (by omega)

/-- The first node of all. -/
theorem firstNode_spec (m : Mem) {a size : ℕ} (hroom : a + (32 + size) ≤ 2 ^ 32) :
    Seg (setNext (setPrev (setSize (setUsed m a 1) a size) a 0) a 0) 0 a [⟨true, size⟩] 0 ∧
      ∀ x, x < a ∨ a + 16 ≤ x →
        setNext (setPrev (setSize (setUsed m a 1) a size) a 0) a 0 x = m x := by
  refine ⟨⟨⟨?_, ?_, ?_, ?_⟩, trivial⟩, fun x hx ↦ ?_⟩
  · simp (disch := omega) only [usedAt, setUsed, setSize, setNext, setPrev, word_setWord,
      word_setWord_of_disjoint]
    rfl
  · simp (disch := omega) only [sizeAt, setUsed, setSize, setNext, setPrev, word_setWord,
      word_setWord_of_disjoint]
  · simp (disch := omega) only [prevAt, setUsed, setSize, setNext, setPrev, word_setWord,
      word_setWord_of_disjoint]
  · simp (disch := omega) only [nextAt, setNext, word_setWord]
    rfl
  · rw [setNext, setPrev, setSize, setUsed, setWord_of_not_mem (by omega),
      setWord_of_not_mem (by omega), setWord_of_not_mem (by omega), setWord_of_not_mem (by omega)]

/-! ## Marking a node as free, and joining free neighbours -/

theorem release_spec (hseg : Seg m prev a (pre ++ blk :: post) last) :
    Seg (setUsed m (a + span 32 pre) 0) prev a (pre ++ ⟨false, blk.size⟩ :: post) last := by
  obtain ⟨hpre, hblk, hpost⟩ := seg_append.mp hseg
  refine seg_append.mpr ⟨?_, ⟨?_, ?_, ?_, ?_⟩, ?_⟩
  · exact hpre.congr_of_inside fun x _ hx ↦ setWord_of_not_mem (by omega)
  · exact word_setWord (by omega)
  · exact (word_setWord_of_disjoint (by omega)).trans hblk.size
  · exact (word_setWord_of_disjoint (by omega)).trans hblk.prev
  · exact (word_setWord_of_disjoint (by omega)).trans hblk.next
  · exact hpost.congr_of_inside fun x hx _ ↦ setWord_of_not_mem (by omega)

/-- One pass of the loop, at a free node behind a free one. -/
theorem defragPass_join {q q' : ℕ} {done : List Block} {c : Block} (ha : 0 < a)
    (hseg : Seg m prev a (done ++ blk :: c :: post) 0)
    (hroom : a + span 32 (done ++ blk :: c :: post) ≤ 2 ^ 32) (hnode : node = a + span 32 done)
    (hq : q = node + (32 + blk.size)) (hq' : q' = q + (32 + c.size))
    (hfree : blk.used = false ∧ c.used = false) :
    ∃ M, defragPass (m, q) = .again (M, linkTo q' 0 post) ∧
      Seg M prev a (done ++ ⟨false, blk.size + (c.size + 32)⟩ :: post) 0 ∧
        ∀ x, (x < node ∨ node + 16 ≤ x) → (post ≠ [] → x < q' ∨ q' + 16 ≤ x) → M x = m x := by
  obtain ⟨hdone, hblk, hc, hpost⟩ := seg_append.mp hseg
  rw [Blocks.span_append, span, span] at hroom
  rw [← hnode] at hdone hblk hc hpost
  rw [← hq] at hblk hc hpost
  rw [← hq'] at hc hpost
  have hlink : linkTo q' 0 post < 2 ^ 32 := by
    cases post with
    | nil => exact Nat.two_pow_pos 32
    | cons d ds =>
      rw [span] at hroom
      rw [linkTo]
      omega
  set m₁ := setSize m node ((sizeAt m node + (sizeAt m q + hnodeSize)) % 2 ^ 32) with hm₁
  set m₂ := setNext m₁ node (nextAt m₁ q) with hm₂
  have hsame₂ : ∀ x, x < node ∨ node + 16 ≤ x → m₂ x = m x := fun x hx ↦ by
    rw [hm₂, setNext, hm₁, setSize, setWord_of_not_mem (by omega), setWord_of_not_mem (by omega)]
  have hnext₁ : nextAt m₁ q = linkTo q' 0 post :=
    (word_setWord_of_disjoint (by omega)).trans hc.next
  have hnext₂ : nextAt m₂ q = linkTo q' 0 post :=
    (word_setWord_of_disjoint (by omega)).trans hnext₁
  have hprev₂ : prevAt m₂ q = node :=
    (Store.word_congr fun k _ ↦ hsame₂ _ (by omega)).trans hc.prev
  obtain ⟨hpost₃, hsame₃⟩ := relink_spec hnext₂ (by omega)
    (hpost.congr_of_inside fun x hx _ ↦ hsame₂ x (by omega)) (show node < 2 ^ 32 by omega)
  have hpass : defragPass (m, q) =
      .again ((if nextAt m₂ q ≠ 0 then setPrev m₂ (nextAt m₂ q) node else m₂),
        linkTo q' 0 post) := by
    have hcond : usedAt m q = 0 ∧ prevAt m q ≠ 0 ∧ usedAt m (prevAt m q) = 0 := by
      rw [used_eq_zero hc, hc.prev, used_eq_zero hblk]
      exact ⟨hfree.2, by omega, hfree.1⟩
    have hprev : prevAt m q = node := hc.prev
    have hnext₃ : nextAt (if nextAt m₂ q ≠ 0 then setPrev m₂ (nextAt m₂ q) node else m₂) q =
        linkTo q' 0 post :=
      (Store.word_congr fun k _ ↦ hsame₃ _ fun _ ↦ by omega).trans hnext₂
    rw [defragPass, if_neg (by omega), if_pos hcond, hprev]
    simp only [← hm₁, ← hm₂, hprev₂, hnext₃]
  refine ⟨_, hpass, ?_, fun x hx hx' ↦ (hsame₃ x hx').trans (hsame₂ x hx)⟩
  have haddr : node + (32 + (blk.size + (c.size + 32))) = q' := by omega
  refine seg_append.mpr ⟨?_, ?_, ?_⟩ <;> rw [← hnode]
  · change Seg _ prev a done node
    exact hdone.congr_of_inside fun x _ hx ↦ by
      rw [hsame₃ x fun _ ↦ by omega, hsame₂ x (by omega)]
  · have hsize : (sizeAt m node + (sizeAt m q + hnodeSize)) % 2 ^ 32 =
        blk.size + (c.size + 32) := by
      rw [hblk.size, hc.size, hnodeSize]
      exact Nat.mod_eq_of_lt (by omega)
    have hjoined : NodeAt m₂ node (tip prev a done) ⟨false, blk.size + (c.size + 32)⟩
        (linkTo q' 0 post) := by
      refine ⟨?_, ?_, ?_, ?_⟩
      · rw [← hfree.1]
        simp (disch := omega) only [hm₂, hm₁, usedAt, setSize, setNext, word_setWord_of_disjoint]
        exact hblk.used
      · rw [hm₂, hm₁, hsize]
        simp (disch := omega) only [sizeAt, setSize, setNext, word_setWord,
          word_setWord_of_disjoint]
      · simp (disch := omega) only [hm₂, hm₁, prevAt, setSize, setNext, word_setWord_of_disjoint]
        exact hblk.prev
      · rw [hm₂, hnext₁]
        exact word_setWord hlink
    simp only [haddr]
    exact hjoined.congr fun k _ ↦ hsame₃ _ fun _ ↦ by omega
  · simp only [haddr]
    exact hpost₃

/-- One pass of the loop, at a node that stays as it is. -/
theorem defragPass_keep {q q' : ℕ} {done : List Block} {c : Block} (ha : 0 < a)
    (hseg : Seg m prev a (done ++ blk :: c :: post) 0) (hnode : node = a + span 32 done)
    (hq : q = node + (32 + blk.size)) (hq' : q' = q + (32 + c.size))
    (hkeep : ¬ (blk.used = false ∧ c.used = false)) :
    defragPass (m, q) = .again (m, linkTo q' 0 post) := by
  obtain ⟨-, hblk, hc, -⟩ := seg_append.mp hseg
  rw [← hnode] at hblk hc
  rw [← hq] at hblk hc
  rw [← hq'] at hc
  have hcond : ¬ (usedAt m q = 0 ∧ prevAt m q ≠ 0 ∧ usedAt m (prevAt m q) = 0) := by
    rw [used_eq_zero hc, hc.prev, used_eq_zero hblk]
    exact fun h ↦ hkeep ⟨h.2.2, h.1⟩
  rw [defragPass, if_neg (by omega), if_neg hcond, hc.next]

/-- An address in one of the headers of some blocks, in the part of it that is used. -/
def InHeader : ℕ → List Block → ℕ → Prop
  | _, [], _ => False
  | a, b :: bs, x => a ≤ x ∧ x < a + 16 ∨ InHeader (a + (32 + b.size)) bs x

theorem inHeader_append : InHeader a (pre ++ post) x ↔
    InHeader a pre x ∨ InHeader (a + span 32 pre) post x := by
  induction pre generalizing a with
  | nil => exact (or_iff_right id).symm
  | cons b pre ih => rw [List.cons_append, InHeader, InHeader, ih, Blocks.add_span_cons, or_assoc]

/-- **The loop of `_heap_free` joins free neighbours**, and changes nothing but headers. -/
theorem run_defrag {q : ℕ} {done rest : List Block} (ha : 0 < a)
    (hseg : Seg m prev a (done ++ blk :: rest) 0)
    (hroom : a + span 32 (done ++ blk :: rest) ≤ 2 ^ 32)
    (hq : q = a + span 32 done + (32 + blk.size)) {n : ℕ} (hn : rest.length < n) :
    ∃ M, Loop.run defragPass n (m, linkTo q 0 rest) = .leave M ∧
      Seg M prev a (done ++ meltFrom 32 blk rest) 0 ∧
        ∀ x, ¬ InHeader a (done ++ blk :: rest) x → M x = m x := by
  induction rest generalizing m done blk q n with
  | nil =>
    obtain ⟨n, rfl⟩ : ∃ k, n = k + 1 := ⟨n - 1, by omega⟩
    exact ⟨m, Loop.run_succ_leave rfl, hseg, fun x _ ↦ rfl⟩
  | cons c rest ih =>
    obtain ⟨n, rfl⟩ : ∃ k, n = k + 1 := ⟨n - 1, by omega⟩
    rw [List.length_cons] at hn
    rw [meltFrom]
    by_cases hfree : blk.used = false ∧ c.used = false
    · obtain ⟨M, hpass, hjoined, hsame⟩ := defragPass_join ha hseg hroom rfl hq rfl hfree
      have hroom' : a + span 32 (done ++ ⟨false, blk.size + (c.size + 32)⟩ :: rest) ≤ 2 ^ 32 := by
        simp only [Blocks.span_append, span] at hroom ⊢
        omega
      have haddr : q + (32 + c.size) = a + span 32 done + (32 + (blk.size + (c.size + 32))) := by
        omega
      obtain ⟨M', hrun, hmelted, hsame'⟩ := ih hjoined hroom' haddr (Nat.lt_of_succ_lt_succ hn)
      rw [if_pos hfree]
      refine ⟨M', (Loop.run_succ_again hpass).trans hrun, hmelted, fun x hx ↦ ?_⟩
      -- the headers that are left are some of those there were
      simp only [inHeader_append, InHeader, not_or, ← hq] at hx
      obtain ⟨hdone, hblk, -, hrest⟩ := hx
      have hnext : rest ≠ [] → x < q + (32 + c.size) ∨ q + (32 + c.size) + 16 ≤ x := fun hne ↦ by
        cases rest with
        | nil => exact absurd rfl hne
        | cons d ds =>
          rw [InHeader, not_or] at hrest
          omega
      rw [hsame' x, hsame x (by omega) hnext]
      simp only [inHeader_append, InHeader, not_or, ← haddr]
      exact ⟨hdone, hblk, hrest⟩
    · have hpass := defragPass_keep ha hseg rfl hq rfl hfree
      have haddr : q + (32 + c.size) = a + span 32 (done ++ [blk]) + (32 + c.size) := by
        rw [hq, Blocks.span_append, span, span]
        omega
      rw [List.append_cons] at hseg hroom ⊢
      obtain ⟨M', hrun, hmelted, hsame'⟩ := ih hseg hroom haddr (Nat.lt_of_succ_lt_succ hn)
      rw [if_neg hfree]
      rw [List.append_assoc] at hmelted
      exact ⟨M', (Loop.run_succ_again hpass).trans hrun, hmelted, hsame'⟩

theorem not_inHeader_of_lt (h : x < a) : ¬ InHeader a bs x := by
  induction bs generalizing a with
  | nil => exact id
  | cons b bs ih =>
    rw [InHeader, not_or]
    exact ⟨by omega, ih (by omega)⟩

/-- What is behind a header is in none. -/
theorem not_inHeader_of_mem (h : (node, blk) ∈ layout 32 a bs) (hx : node + 32 ≤ x)
    (hx' : x < node + (32 + blk.size)) : ¬ InHeader a bs x := by
  induction bs generalizing a with
  | nil => exact absurd h List.not_mem_nil
  | cons b bs ih =>
    rw [InHeader, not_or]
    rw [layout, List.mem_cons] at h
    rcases h with h | h
    · obtain ⟨rfl, rfl⟩ := Prod.mk.inj h
      exact ⟨by omega, not_inHeader_of_lt hx'⟩
    · have hbounds := Blocks.mem_layout_bounds h
      exact ⟨by omega, ih h⟩

end Heap
end SdLoader
