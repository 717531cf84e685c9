import SdLoader.Heap.Chain

/-!
# Allocating and freeing

What `_heap_alloc` and `_heap_free` do to memory, said of the blocks the list of nodes stands for:

* `heapAlloc_spec` — first fit, and what is in the buffers that are in use stays there;
* `heapFree_spec` — the block is marked as free and free neighbours are joined;
* `nodes_eq` and `heapMonitor_spec` — the list of nodes is read off memory, and counted.
-/

set_option autoImplicit false

namespace SdLoader
namespace Heap

open Blocks (Block Fits Melted Aligned span layout live place placed carve melt release)

/-- The nodes whose headers are in memory, from `node` on: at most `n` of them. -/
def nodesFrom (m : Mem) : ℕ → ℕ → List (ℕ × Block)
  | 0, _ => []
  | n + 1, node =>
    if node = 0 then []
    else (node, ⟨usedAt m node ≠ 0, sizeAt m node⟩) :: nodesFrom m n (nextAt m node)

/-- The list of nodes stands for the blocks `bs`. -/
structure Rep (m : Mem) (h : HeapT) (bs : List Block) : Prop where
  pos : 0 < h.start
  first : h.first = linkTo h.start 0 bs
  seg : Seg m 0 h.start bs 0
  room : h.start + span 32 bs < 2 ^ 32

/-- An address in the buffer behind the header of `e`. -/
def InBuffer (e : ℕ × Block) (x : ℕ) : Prop := e.1 + 32 ≤ x ∧ x < e.1 + (32 + e.2.size)

variable {m m' : Mem} {h : HeapT} {a node prev size : ℕ} {b : Block} {bs : List Block}

/-- What is stored in a buffer changes no header. -/
theorem Rep.store (hrep : Rep m h bs) {e : ℕ × Block} (he : e ∈ layout 32 h.start bs)
    (hsame : ∀ x, ¬ InBuffer e x → m' x = m x) : Rep m' h bs := by
  refine ⟨hrep.pos, hrep.first, hrep.seg.congr fun f hf k hk ↦ hsame _ fun hin ↦ ?_, hrep.room⟩
  rw [InBuffer] at hin
  rcases Blocks.separate he hf with rfl | hsep | hsep <;> omega

/-! ## The list of nodes -/

theorem nodesFrom_eq (ha : 0 < a) (hseg : Seg m prev a bs 0) {n : ℕ} (hn : bs.length < n) :
    nodesFrom m n (linkTo a 0 bs) = layout 32 a bs := by
  induction bs generalizing prev a n with
  | nil =>
    obtain ⟨n, rfl⟩ : ∃ k, n = k + 1 := ⟨n - 1, by omega⟩
    rfl
  | cons b bs ih =>
    obtain ⟨n, rfl⟩ : ∃ k, n = k + 1 := ⟨n - 1, by omega⟩
    have hused : decide (usedAt m a ≠ 0) = b.used := by
      rw [hseg.1.used]
      cases b.used <;> rfl
    rw [linkTo, nodesFrom, if_neg (by omega), hseg.1.next, hused, hseg.1.size, layout,
      ih (by omega) hseg.2 (Nat.lt_of_succ_lt_succ hn)]

/-- **The list of nodes, read off memory.** -/
theorem nodes_eq (hrep : Rep m h bs) : nodesFrom m nodeLimit h.first = layout 32 h.start bs := by
  rw [hrep.first]
  exact nodesFrom_eq hrep.pos hrep.seg (length_le_of_span hrep.room.le)

/-! ## Allocating -/

/-- There is a free block that is large enough, or there is room for another one. -/
def HasRoom (start size : ℕ) (bs : List Block) : Prop :=
  (∃ b ∈ bs, Fits size b) ∨ start + span 32 bs + (32 + size) < 2 ^ 32

theorem room_place (hroom : h.start + span 32 bs < 2 ^ 32) (hfits : HasRoom h.start size bs) :
    h.start + span 32 (place 32 128 size bs) < 2 ^ 32 := by
  obtain ⟨pre, b, post, rfl, -, hb, hplace, -⟩ | ⟨hnone, hplace, -⟩ :=
    Blocks.place_cases 32 128 size 0 bs
  · rw [hplace, Blocks.span_append, Blocks.span_append, Blocks.span_carve (by omega) hb.2]
    rw [Blocks.span_append, span] at hroom
    exact hroom
  · rcases hfits with ⟨b, hb, hfit⟩ | hfits
    · exact absurd hfit (hnone b hb)
    · rw [hplace, Blocks.span_append]
      simp only [span]
      omega

/-- **`_heap_alloc` is first fit.**  It returns, and what is in the buffers in use stays there. -/
theorem heapAlloc_spec (hrep : Rep m h bs) {s : ℕ} (hs : alignUp size = s)
    (hfits : HasRoom h.start s bs) :
    ∃ m' h', heapAlloc m h size = some (m', h', placed 32 s h.start bs + 32) ∧
      h'.start = h.start ∧ Rep m' h' (place 32 128 s bs) ∧
        ∀ e ∈ live 32 h.start bs, ∀ x, InBuffer e x → m' x = m x := by
  have hroom := room_place hrep.room hfits
  have hpos := hrep.pos
  rw [heapAlloc, hs]
  cases bs with
  | nil =>
    have hfirst : h.first = 0 := hrep.first
    simp only [place, span] at hroom
    have hseg := firstNode_spec m (show h.start + (32 + s) ≤ 2 ^ 32 by omega)
    have hbehind : behind h.start 0 = h.start + 32 := behind_eq (by omega)
    rw [if_pos hfirst, hbehind]
    refine ⟨_, _, rfl, rfl, ⟨hpos, rfl, hseg.1, ?_⟩, fun e he ↦ absurd he List.not_mem_nil⟩
    simp only [place, span]
    omega
  | cons c cs =>
    have hfirst : h.first = h.start := hrep.first
    rw [if_neg (by omega), hfirst,
      run_seek hpos hrep.seg (Nat.lt_of_succ_lt (length_le_of_span hrep.room.le))]
    have hlink : linkTo h.start 0 (place 32 128 s (c :: cs)) = h.start :=
      linkTo_of_ne_nil (Blocks.place_ne_nil 32 128 s _)
    have hne := List.cons_ne_nil c cs
    generalize c :: cs = bs at *
    obtain ⟨pre, b, post, rfl, hpre, hb, hplace, hat⟩ | ⟨hnone, hplace, hat⟩ :=
      Blocks.place_cases 32 128 s h.start bs
    · -- a free node is taken
      obtain ⟨hseg, hsame⟩ := takeNode_spec hrep.seg hb hrep.room.le
      have hmem := Blocks.mem_layout_append 32 h.start pre post b
      rw [← hplace, ← hat] at hseg
      rw [← hat] at hsame hmem
      have hbound := Blocks.mem_layout_bounds hmem
      have hin := hrep.room
      have hbehind : behind (placed 32 s h.start (pre ++ b :: post)) 0 =
          placed 32 s h.start (pre ++ b :: post) + 32 := behind_eq (by omega)
      rw [if_pos ⟨b, List.mem_append_right _ List.mem_cons_self, hb⟩]
      simp only [hbehind]
      refine ⟨_, _, rfl, rfl, ⟨hpos, hfirst.trans hlink.symm, hseg, hroom⟩, fun e he x hx ↦ ?_⟩
      obtain ⟨he, hused⟩ := List.mem_filter.mp he
      rw [InBuffer] at hx
      refine hsame x ?_
      rcases Blocks.separate he hmem with heq | hsep | hsep
      · rw [heq, hb.1] at hused
        exact absurd hused Bool.false_ne_true
      · exact .inl (by omega)
      · simp only at hsep
        exact .inr (by omega)
    · -- there is none, and one is added
      rcases hfits with ⟨c, hc, hfit⟩ | hfits
      · exact absurd hfit (hnone c hc)
      have hsearch : ¬ ∃ c ∈ bs, Fits s c := by
        rintro ⟨c, hc, hfit⟩
        exact hnone c hc hfit
      rw [if_neg hsearch]
      obtain ⟨pre, b, rfl⟩ := (List.eq_nil_or_concat bs).resolve_left hne
      rw [List.concat_eq_append] at *
      obtain ⟨hseg, hsame⟩ := appendNode_spec hrep.seg (show _ + (32 + s) ≤ 2 ^ 32 by omega)
      have hnode := hrep.seg.block
      rw [← hplace] at hseg
      rw [Blocks.span_append, span, span, Nat.add_zero, ← Nat.add_assoc] at hat hfits hsame
      have hnew : behind (h.start + span 32 pre) (sizeAt m (h.start + span 32 pre)) =
          placed 32 s h.start (pre ++ [b]) := by
        rw [hnode.size, hat, behind_eq (by omega), Nat.add_assoc]
      have hbehind : behind (placed 32 s h.start (pre ++ [b])) 0 =
          placed 32 s h.start (pre ++ [b]) + 32 := behind_eq (by omega)
      simp only [tip_concat, hnew, hbehind]
      refine ⟨_, _, rfl, rfl, ⟨hpos, hlink.symm, hseg, hroom⟩, fun e he x hx ↦ ?_⟩
      obtain ⟨he, -⟩ := List.mem_filter.mp he
      have hbound := Blocks.mem_layout_bounds he
      have hmem := Blocks.mem_layout_append 32 h.start pre [] b
      rw [InBuffer] at hx
      rw [Blocks.span_append, span, span, Nat.add_zero, ← Nat.add_assoc] at hbound
      refine hsame x ?_ (by omega)
      rcases Blocks.separate he hmem with heq | hsep | hsep
      · rw [heq] at hx
        simp only at hx
        omega
      · omega
      · simp only at hsep
        omega

/-! ## Freeing -/

theorem defragPass_first (ha : 0 < a) (hseg : Seg m 0 a (b :: bs) 0) :
    defragPass (m, a) = .again (m, linkTo (a + (32 + b.size)) 0 bs) := by
  rw [defragPass, if_neg (by omega), if_neg (fun h ↦ h.2.1 hseg.1.prev), hseg.1.next]

/-- **`_heap_free` marks the block as free and joins free neighbours.**  It returns, and what is in
the buffers stays there. -/
theorem heapFree_spec (hrep : Rep m h bs) (hlive : (node, b) ∈ live 32 h.start bs) :
    ∃ m', heapFree m h (node + 32) = some m' ∧
      Rep m' h (melt 32 (release 32 node h.start bs)) ∧
        ∀ e ∈ live 32 h.start bs, ∀ x, InBuffer e x → m' x = m x := by
  obtain ⟨hmem, -⟩ := Blocks.mem_live.mp hlive
  have hbound := Blocks.mem_layout_bounds hmem
  have hroom := hrep.room
  have haddr : (node + 32 + (2 ^ 32 - hnodeSize)) % 2 ^ 32 = node := by
    rw [hnodeSize]
    omega
  obtain ⟨pre, post, rfl, hnode⟩ := Blocks.exists_of_mem_layout hmem
  have hseg := release_spec hrep.seg
  rw [← hnode] at hseg
  have hrel : release 32 node h.start (pre ++ b :: post) = pre ++ ⟨false, b.size⟩ :: post := by
    rw [hnode]
    exact Blocks.release_append (by omega) ..
  have hout : ∀ e ∈ live 32 h.start (pre ++ b :: post), ∀ x, InBuffer e x →
      ¬ InHeader h.start (pre ++ ⟨false, b.size⟩ :: post) x := by
    intro e he x hx
    have hold := not_inHeader_of_mem (List.mem_filter.mp he).1 hx.1 hx.2
    simpa only [inHeader_append, InHeader] using hold
  have hkeep : ∀ e ∈ live 32 h.start (pre ++ b :: post), ∀ x, InBuffer e x →
      setUsed m node 0 x = m x := by
    intro e he x hx
    rw [InBuffer] at hx
    refine setWord_of_not_mem ?_
    rcases Blocks.separate (List.mem_filter.mp he).1 hmem with heq | hsep | hsep
    · rw [heq] at hx
      exact .inr (by omega)
    · exact .inl (by omega)
    · simp only at hsep
      exact .inr (by omega)
  have hlen : (pre ++ ⟨false, b.size⟩ :: post).length < nodeLimit := by
    refine length_le_of_span (a := h.start) ?_
    simpa only [Blocks.span_append, span] using hroom.le
  have hbound' : h.start + span 32 (pre ++ ⟨false, b.size⟩ :: post) < 2 ^ 32 := by
    simpa only [Blocks.span_append, span] using hroom
  have hfirst : h.first = h.start := hrep.first.trans (linkTo_of_ne_nil (by simp))
  have hne : pre ++ ⟨false, b.size⟩ :: post ≠ [] := by simp
  rw [hrel]
  generalize pre ++ ⟨false, b.size⟩ :: post = cs at *
  cases cs with
  | nil => exact absurd rfl hne
  | cons c cs =>
    obtain ⟨M, hrun, hmelted, hsame⟩ := run_defrag hrep.pos
      (show Seg _ 0 h.start ([] ++ c :: cs) 0 from hseg) hbound'.le rfl (Nat.lt_sub_of_add_lt hlen)
    have hfirstPass := defragPass_first hrep.pos hseg
    have hloop : Loop.run defragPass nodeLimit (setUsed m node 0, h.start) = .leave M :=
      (Loop.run_succ_again hfirstPass).trans hrun
    have hfree : heapFree m h (node + 32) = some M := by
      rw [heapFree, haddr, hfirst]
      simp only [hloop]
    refine ⟨M, hfree, ⟨hrep.pos, ?_, hmelted, ?_⟩, fun e he x hx ↦ ?_⟩
    · rw [hfirst]
      exact (linkTo_of_ne_nil (Blocks.meltFrom_ne_nil 32 c cs)).symm
    · rw [Blocks.span_melt]
      exact hbound'
    · rw [hsame x (hout e he x hx), hkeep e he x hx]

/-! ## Counting -/

/-- The bytes of the blocks that are in use, with their headers, or of those that are not. -/
def bytesOf (used : Bool) : List Block → ℕ
  | [] => 0
  | b :: bs => (if b.used = used then 32 + b.size else 0) + bytesOf used bs

theorem bytesOf_add (bs : List Block) : bytesOf false bs + bytesOf true bs = span 32 bs := by
  induction bs with
  | nil => rfl
  | cons b bs ih =>
    rw [bytesOf, bytesOf, span, ← ih]
    cases b.used
    · rw [if_pos rfl, if_neg Bool.false_ne_true]
      omega
    · rw [if_neg Bool.true_eq_false.mp, if_pos rfl]
      omega

/-- What the blocks add to the counts. -/
def Monitor.count (mon : Monitor) (bs : List Block) : Monitor where
  total := mon.total + bytesOf false bs
  used := mon.used + bytesOf true bs
  nodesTotal := mon.nodesTotal + bs.length
  nodesUsed := mon.nodesUsed + (bs.filter Block.used).length

theorem Monitor.count_cons (mon : Monitor) (b : Block) (bs : List Block) :
    mon.count (b :: bs) = (mon.count [b]).count bs := by
  simp only [Monitor.count, bytesOf, List.filter_cons, List.filter_nil, List.length_cons,
    List.length_nil, Monitor.mk.injEq]
  refine ⟨by omega, by omega, by omega, ?_⟩
  cases b.used
  · rfl
  · simp only [if_true, List.length_cons, List.length_nil]
    omega

theorem monitorPass_eq {next : ℕ} {mon : Monitor} (hb : NodeAt m node prev b next)
    (htotal : (mon.count [b]).total < 2 ^ 32) (hused : (mon.count [b]).used < 2 ^ 32) :
    monitorPass m (node, mon) =
      if next ≠ 0 then .again (next, mon.count [b]) else .leave (mon.count [b]) := by
  rw [monitorPass, hb.used, hb.size, hb.next]
  simp only [Monitor.count, bytesOf] at htotal hused ⊢
  cases hu : b.used
  · rw [hu, if_pos rfl] at htotal
    simp [hu, hnodeSize, Nat.add_comm 32]
    rw [Nat.mod_eq_of_lt (by omega)]
  · rw [hu, if_pos rfl] at hused
    simp [hu, hnodeSize, Nat.add_comm 32]
    rw [Nat.mod_eq_of_lt (by omega)]

theorem run_monitor (ha : 0 < a) (hseg : Seg m prev a (b :: bs) 0) {n : ℕ} (hn : bs.length < n)
    (mon : Monitor) (htotal : (mon.count (b :: bs)).total < 2 ^ 32)
    (hused : (mon.count (b :: bs)).used < 2 ^ 32) :
    Loop.run (monitorPass m) n (a, mon) = .leave (mon.count (b :: bs)) := by
  induction bs generalizing prev a b mon n with
  | nil =>
    obtain ⟨n, rfl⟩ : ∃ k, n = k + 1 := ⟨n - 1, by omega⟩
    refine Loop.run_succ_leave ?_
    rw [monitorPass_eq hseg.1 htotal hused, linkTo, if_neg (not_not_intro rfl)]
  | cons c bs ih =>
    obtain ⟨n, rfl⟩ : ∃ k, n = k + 1 := ⟨n - 1, by omega⟩
    rw [Monitor.count_cons] at htotal hused ⊢
    have hpass := monitorPass_eq hseg.1 (Nat.lt_of_le_of_lt (Nat.le_add_right ..) htotal)
      (Nat.lt_of_le_of_lt (Nat.le_add_right ..) hused)
    rw [linkTo, if_pos (by omega)] at hpass
    rw [Loop.run_succ_again hpass]
    exact ih (by omega) hseg.2 (Nat.lt_of_succ_lt_succ hn) _ htotal hused

/-- **`heap_monitor` counts the blocks**, and its total is all the heap takes. -/
theorem heapMonitor_spec (hrep : Rep m h bs) (hne : bs ≠ []) :
    heapMonitor m h = some {
      total := span 32 bs
      used := bytesOf true bs
      nodesTotal := bs.length
      nodesUsed := (bs.filter Block.used).length } := by
  have hlen := length_le_of_span hrep.room.le
  have hspan := bytesOf_add bs
  have hroom := hrep.room
  have hfirst : h.first = h.start := hrep.first.trans (linkTo_of_ne_nil hne)
  cases bs with
  | nil => exact absurd rfl hne
  | cons b bs =>
    have hrun := run_monitor hrep.pos hrep.seg (Nat.lt_of_succ_lt hlen) ⟨0, 0, 0, 0⟩
      (by simp only [Monitor.count]; omega) (by simp only [Monitor.count]; omega)
    rw [heapMonitor, hfirst, hrun]
    simp only [Monitor.count, Nat.zero_add, hspan]
    rw [Nat.mod_eq_of_lt (by omega)]

end Heap
end SdLoader
