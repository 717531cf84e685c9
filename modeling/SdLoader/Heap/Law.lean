import Mathlib.Data.List.Perm.Subperm
import SdLoader.Heap.Refine

/-!
# What the callers of the heap can rely on

* `Legit` — a call as the heap expects it: a request is not so large that its size wraps round, and
  there is room for it; what is given back was handed out; what is stored goes into a buffer.
* `Inv` — what every such call keeps, `Inv.call`: the nodes stand for blocks of which no two free
  ones are neighbours, and those in use are the buffers of the ledger, with what it says is in them.
* `Served` — runs put together call by call, with the blocks and the buffers they lead to;
* `heap_separates_buffers`, `heap_coalesces`, `heap_first_fit`, `heap_monitor_counts` — what follows
  for every run.
-/

set_option autoImplicit false

namespace SdLoader
namespace Heap

open Blocks (Block Fits Melted Aligned span layout live place placed melt release)

/-- The nodes of the heap. -/
def Sys.nodes (s : Sys) : List (ℕ × Block) := nodesFrom s.mem nodeLimit s.heap.first

/-- The address behind the last of them. -/
def Sys.brk (s : Sys) : ℕ := s.heap.start + span 32 (s.nodes.map Prod.snd)

/-- A request for `size` bytes can be met. -/
def Sys.Room (s : Sys) (size : ℕ) : Prop :=
  size + 31 < 2 ^ 32 ∧
    ((∃ e ∈ s.nodes, Fits (alignUp size) e.2) ∨ s.brk + (32 + alignUp size) < 2 ^ 32)

/-- A call as the heap expects it. -/
def Sys.Legit (s : Sys) : Call → Prop
  | .malloc size => s.Room size
  | .calloc num size => s.Room (num * size)
  | .zalloc size => s.Room size
  | .free buf => buf < s.heap.start ∨ buf ∈ s.ledger.map Prod.fst
  | .store buf off data => ∃ bytes, (buf, bytes) ∈ s.ledger ∧ off + data.length ≤ bytes.length

/-- How many bytes are asked for, if any are. -/
def Call.asks : Call → Option ℕ
  | .malloc size => some size
  | .calloc num size => some (num * size)
  | .zalloc size => some size
  | .free _ => none
  | .store _ _ _ => none

/-- After `heap_init`. -/
def Sys.init (mem : Mem) (start : ℕ) : Sys := ⟨mem, heapCreate start, []⟩

/-- One call after another, as long as they return. -/
def next (s : Option Sys) (c : Call) : Option Sys := s.bind fun s ↦ s.call c

/-- Every call of a run is as the heap expects it. -/
abbrev AllLegit (s : Sys) (calls : List Call) : Prop :=
  Machine.Along next (fun o c ↦ ∀ s ∈ o, s.Legit c) (some s) calls

/-- The buffer `e` of the ledger is the one behind the header of `f`, and in it is what the ledger
says. -/
structure Holds (m : Mem) (e : ℕ × List UInt8) (f : ℕ × Block) : Prop where
  addr : e.1 = f.1 + 32
  fits : e.2.length ≤ f.2.size
  contents : Store.slice m e.1 e.2.length = e.2

/-- What every call keeps. -/
structure Inv (start : ℕ) (s : Sys) (bs : List Block) : Prop where
  start_eq : s.heap.start = start
  rep : Rep s.mem s.heap bs
  melted : Melted bs
  aligned : Aligned 32 bs
  owners : (s.ledger.map Prod.fst).Perm ((live 32 start bs).map fun f ↦ f.1 + 32)
  holds : ∀ e ∈ s.ledger, ∃ f ∈ live 32 start bs, Holds s.mem e f

variable {m m' : Mem} {start : ℕ} {s : Sys} {bs : List Block} {size : ℕ}

theorem dvd_alignUp (size : ℕ) : 32 ∣ alignUp size := Nat.dvd_mul_left ..

theorem le_alignUp (h : size + 31 < 2 ^ 32) : size ≤ alignUp size := by
  rw [alignUp, hnodeSize, Nat.mod_eq_of_lt h]
  omega

theorem Inv.nodes (h : Inv start s bs) : s.nodes = layout 32 start bs := by
  rw [Sys.nodes, nodes_eq h.rep, h.start_eq]

theorem Inv.blocks (h : Inv start s bs) : s.nodes.map Prod.snd = bs := by
  rw [h.nodes, Blocks.map_snd_layout]

theorem Inv.brk (h : Inv start s bs) : s.brk = start + span 32 bs := by
  rw [Sys.brk, h.blocks, h.start_eq]

theorem Inv.hasRoom (h : Inv start s bs) (hroom : s.Room size) :
    HasRoom s.heap.start (alignUp size) bs := by
  obtain ⟨-, ⟨e, he, hfit⟩ | hroom⟩ := hroom
  · refine .inl ⟨e.2, ?_, hfit⟩
    rw [← h.blocks]
    exact List.mem_map_of_mem he
  · rw [h.brk, ← h.start_eq] at hroom
    exact .inr hroom

/-- No buffer is in the ledger twice. -/
theorem Inv.nodup (h : Inv start s bs) : (s.ledger.map Prod.fst).Nodup := by
  refine h.owners.nodup_iff.mpr ?_
  have hnodup := (Blocks.nodup_live (show 0 < 32 by omega) start bs).map (add_left_injective 32)
  rwa [List.map_map] at hnodup

/-- Where the buffers are. -/
theorem Inv.bounds (h : Inv start s bs) {e : ℕ × List UInt8} (he : e ∈ s.ledger) :
    start + 32 ≤ e.1 ∧ e.1 + e.2.length ≤ s.brk := by
  obtain ⟨f, hf, hholds⟩ := h.holds e he
  have hbounds := Blocks.mem_layout_bounds (List.mem_filter.mp hf).1
  have haddr := hholds.addr
  have hfits := hholds.fits
  rw [h.brk]
  omega

/-- One buffer ends before the header of the next one. -/
theorem Inv.apart (h : Inv start s bs) :
    s.ledger.Pairwise fun e f ↦ e.1 + e.2.length + 32 ≤ f.1 ∨ f.1 + f.2.length + 32 ≤ e.1 := by
  refine (List.pairwise_map.mp h.nodup).imp_of_mem fun {e f} he hf hne ↦ ?_
  obtain ⟨g, hg, hholds⟩ := h.holds e he
  obtain ⟨k, hk, hholds'⟩ := h.holds f hf
  have haddr := hholds.addr
  have haddr' := hholds'.addr
  have hfits := hholds.fits
  have hfits' := hholds'.fits
  rcases Blocks.separate (List.mem_filter.mp hg).1 (List.mem_filter.mp hk).1 with rfl | hsep | hsep
  · exact absurd (haddr.trans haddr'.symm) hne
  · exact .inl (by omega)
  · exact .inr (by omega)

/-- The blocks of the buffers, in the order of the ledger. -/
theorem Inv.exists_blocks (h : Inv start s bs) :
    ∃ fs, fs.Perm (live 32 start bs) ∧ List.Forall₂ (Holds s.mem) s.ledger fs := by
  have hall : ∀ l : List (ℕ × List UInt8), (∀ e ∈ l, ∃ f ∈ live 32 start bs, Holds s.mem e f) →
      ∃ fs, fs ⊆ live 32 start bs ∧ List.Forall₂ (Holds s.mem) l fs := by
    intro l hl
    induction l with
    | nil => exact ⟨[], List.nil_subset _, List.Forall₂.nil⟩
    | cons e l ih =>
      obtain ⟨⟨f, hf, hholds⟩, hl⟩ := List.forall_mem_cons.mp hl
      obtain ⟨fs, hfs, hforall⟩ := ih hl
      exact ⟨f :: fs, List.cons_subset.mpr ⟨hf, hfs⟩, hforall.cons hholds⟩
  obtain ⟨fs, hsub, hforall⟩ := hall s.ledger h.holds
  have hkeys : s.ledger.map Prod.fst = fs.map fun f ↦ f.1 + 32 := by
    generalize s.ledger = l at hforall
    clear hsub
    induction hforall with
    | nil => rfl
    | cons hholds _ ih => rw [List.map_cons, List.map_cons, ih, hholds.addr]
  have hnodup : fs.Nodup := List.Nodup.of_map _ (hkeys ▸ h.nodup)
  refine ⟨fs, (List.subperm_of_subset hnodup hsub).perm_of_length_le ?_, hforall⟩
  have howners := h.owners.length_eq
  rw [List.length_map, List.length_map] at howners
  rw [← howners, hforall.length_eq]

theorem sum_live (start : ℕ) (bs : List Block) :
    ((live 32 start bs).map fun f ↦ 32 + f.2.size).sum = bytesOf true bs := by
  induction bs generalizing start with
  | nil => rfl
  | cons b bs ih =>
    rw [Blocks.live_cons, List.map_append, List.sum_append, ih, bytesOf]
    cases b.used <;> rfl

/-- The buffers take at least what was asked for. -/
theorem Inv.asked_le (h : Inv start s bs) :
    (s.ledger.map fun e ↦ 32 + e.2.length).sum ≤ bytesOf true bs := by
  obtain ⟨fs, hperm, hforall⟩ := h.exists_blocks
  rw [← sum_live start, ← (hperm.map _).sum_nat]
  generalize s.ledger = l at hforall
  clear hperm
  induction hforall with
  | nil => exact Nat.le_refl _
  | cons hholds _ ih =>
    rw [List.map_cons, List.map_cons, List.sum_cons, List.sum_cons]
    exact Nat.add_le_add (Nat.add_le_add_left hholds.fits 32) ih

theorem inv_init (mem : Mem) (hstart : 0 < start) (hstart' : start < 2 ^ 32) :
    Inv start (Sys.init mem start) [] where
  start_eq := rfl
  rep := ⟨hstart, rfl, trivial, hstart'⟩
  melted := List.isChain_nil
  aligned := fun _ hb ↦ absurd hb List.not_mem_nil
  owners := List.Perm.nil
  holds := fun _ he ↦ absurd he List.not_mem_nil

/-- A buffer is as it was where the bytes of its block are. -/
theorem Holds.congr {e : ℕ × List UInt8} {f : ℕ × Block} (h : Holds m e f)
    (hsame : ∀ x, InBuffer f x → m' x = m x) : Holds m' e f := by
  refine ⟨h.addr, h.fits, (Store.slice_congr fun k hk ↦ hsame _ ?_).trans h.contents⟩
  have haddr := h.addr
  have hfits := h.fits
  constructor <;> omega

/-! ## Allocating -/

/-- A buffer is handed out.  `data` is what is in it, put there by `init` or not. -/
theorem Inv.alloc (h : Inv start s bs) (hroom : s.Room size) :
    ∃ m₁ heap f bs', heapAlloc s.mem s.heap size = some (m₁, heap, f.1 + 32) ∧
      f.1 = placed 32 (alignUp size) start bs ∧ bs' = place 32 128 (alignUp size) bs ∧
      alignUp size ≤ f.2.size ∧ f ∈ live 32 start bs' ∧
      ∀ m₂ data, (∀ x, ¬ InBuffer f x → m₂ x = m₁ x) → data.length = size →
        Store.slice m₂ (f.1 + 32) size = data →
          Inv start { mem := m₂, heap := heap, ledger := (f.1 + 32, data) :: s.ledger } bs' := by
  obtain ⟨m₁, heap, halloc, hstart, hrep, hsame⟩ := heapAlloc_spec h.rep rfl (h.hasRoom hroom)
  rw [h.start_eq] at halloc hstart hsame
  obtain ⟨l, r, sz, hsz, hlive, hlive'⟩ :=
    Blocks.live_place (show 32 ≤ 128 by omega) (alignUp size) start bs
  have hmem : (placed 32 (alignUp size) start bs, ⟨true, sz⟩) ∈
      live 32 start (place 32 128 (alignUp size) bs) := by
    rw [hlive']
    exact List.mem_append_right _ List.mem_cons_self
  refine ⟨m₁, heap, _, _, halloc, rfl, rfl, hsz, hmem, fun m₂ data hdata hlen hslice ↦ ?_⟩
  have hlayout := (Blocks.mem_live.mp hmem).1
  refine ⟨hstart, ?_, h.melted.place, h.aligned.place (Nat.dvd_refl 32) (dvd_alignUp size), ?_, ?_⟩
  · refine hrep.store ?_ hdata
    rw [hstart]
    exact hlayout
  · rw [hlive', List.map_append, List.map_cons, List.map_cons]
    refine List.Perm.trans (List.Perm.cons _ h.owners) ?_
    rw [hlive, List.map_append]
    exact List.perm_middle.symm
  · refine List.forall_mem_cons.mpr ⟨⟨_, hmem, rfl, ?_, ?_⟩, fun e he ↦ ?_⟩
    · rw [hlen]
      exact (le_alignUp hroom.1).trans hsz
    · rw [hlen]
      exact hslice
    · obtain ⟨f, hf, hholds⟩ := h.holds e he
      have hf' : f ∈ live 32 start (place 32 128 (alignUp size) bs) := by
        rw [hlive', List.mem_append, List.mem_cons]
        rw [hlive, List.mem_append] at hf
        exact hf.imp_right .inr
      -- the new block is none of those that were in use
      have hnodup := Blocks.nodup_live (show 0 < 32 by omega) start
        (place 32 128 (alignUp size) bs)
      rw [hlive', List.map_append, List.map_cons, List.nodup_middle, ← List.map_append, ← hlive]
        at hnodup
      have hfirst := List.mem_map_of_mem (f := Prod.fst) hf
      have hne : f.1 ≠ placed 32 (alignUp size) start bs := fun heq ↦
        (List.nodup_cons.mp hnodup).1 (heq ▸ hfirst)
      refine ⟨f, hf', hholds.congr fun x hx ↦ (hdata x fun hin ↦ ?_).trans (hsame f hf x hx)⟩
      rw [InBuffer] at hx hin
      rcases Blocks.separate (List.mem_filter.mp hf').1 hlayout with heq | hsep | hsep
      · exact hne (congrArg Prod.fst heq)
      · simp only at hsep hin
        omega
      · simp only at hsep hin
        omega

/-! ## Giving back and storing -/

theorem Inv.free (h : Inv start s bs) {f : ℕ × Block} (hf : f ∈ live 32 start bs) :
    ∃ m₁, heapFree s.mem s.heap (f.1 + 32) = some m₁ ∧
      Inv start { s with
        mem := m₁
        ledger := s.ledger.filter fun e ↦ e.1 ≠ f.1 + 32 } (melt 32 (release 32 f.1 start bs)) := by
  have hf' : (f.1, f.2) ∈ live 32 s.heap.start bs := h.start_eq ▸ hf
  obtain ⟨m₁, hfree, hrep, hsame⟩ := heapFree_spec h.rep hf'
  rw [h.start_eq] at hrep hsame
  obtain ⟨l, r, hlive, hlive'⟩ := Blocks.live_release (show 0 < 32 by omega) hf
  have hnodup := Blocks.nodup_live (show 0 < 32 by omega) start bs
  rw [hlive, List.map_append, List.map_cons, List.nodup_middle, ← List.map_append] at hnodup
  have hnew : live 32 start (melt 32 (release 32 f.1 start bs)) = l ++ r := by
    rw [Blocks.live_melt, hlive']
  have hother : ∀ g ∈ l ++ r, g.1 + 32 ≠ f.1 + 32 := fun g hg heq ↦ by
    have hfirst := List.mem_map_of_mem (f := Prod.fst) hg
    rw [Nat.add_right_cancel heq] at hfirst
    exact (List.nodup_cons.mp hnodup).1 hfirst
  refine ⟨m₁, hfree, h.start_eq, hrep, Blocks.melted_melt _,
    (h.aligned.release f.1 start).melt (Nat.dvd_refl 32), ?_, fun e he ↦ ?_⟩
  · have hperm := h.owners.filter fun p ↦ p ≠ f.1 + 32
    have hrest : (l ++ f :: r).filter (fun g ↦ g.1 + 32 ≠ f.1 + 32) = l ++ r := by
      rw [List.filter_append, List.filter_cons_of_neg (by simp), ← List.filter_append]
      exact List.filter_eq_self.mpr fun g hg ↦ by simpa using hother g hg
    rw [List.filter_map, List.filter_map, hlive] at hperm
    rw [hnew]
    exact hperm.trans (List.Perm.of_eq (congrArg _ hrest))
  · obtain ⟨he, hne⟩ := List.mem_filter.mp he
    obtain ⟨g, hg, hholds⟩ := h.holds e he
    have hg' : g ∈ l ++ r := by
      rw [hlive] at hg
      rcases List.mem_append.mp hg with hg | hg
      · exact List.mem_append_left r hg
      · rcases List.mem_cons.mp hg with rfl | hg
        · exact absurd hholds.addr (by simpa using hne)
        · exact List.mem_append_right l hg
    rw [hnew]
    exact ⟨g, hg', hholds.congr (hsame g hg)⟩

theorem Inv.store (h : Inv start s bs) {buf off : ℕ} {bytes data : List UInt8}
    (hbuf : (buf, bytes) ∈ s.ledger) (hfits : off + data.length ≤ bytes.length) :
    Inv start { s with
      mem := Store.blit s.mem (buf + off) data.length fun k ↦ data.getD k 0
      ledger := s.ledger.map fun e ↦ if e.1 = buf then (buf, overwrite e.2 off data) else e }
      bs := by
  obtain ⟨f, hf, hholds⟩ := h.holds _ hbuf
  have hlayout := (List.mem_filter.mp hf).1
  have haddr : buf = f.1 + 32 := hholds.addr
  have hlen : bytes.length ≤ f.2.size := hholds.fits
  have hsame : ∀ x, ¬ InBuffer f x →
      Store.blit s.mem (buf + off) data.length (fun k ↦ data.getD k 0) x = s.mem x := fun x hx ↦ by
    rw [InBuffer] at hx
    exact Store.blit_of_not_mem (by omega)
  refine ⟨h.start_eq, ?_, h.melted, h.aligned, ?_, ?_⟩
  · refine h.rep.store ?_ hsame
    rw [h.start_eq]
    exact hlayout
  · refine List.Perm.trans (List.Perm.of_eq ?_) h.owners
    rw [List.map_map]
    refine List.map_congr_left fun e _ ↦ ?_
    rw [Function.comp_apply]
    split
    · rename_i heq
      exact heq.symm
    · rfl
  · intro e' he'
    obtain ⟨e, he, rfl⟩ := List.mem_map.mp he'
    obtain ⟨g, hg, hheld⟩ := h.holds e he
    refine ⟨g, hg, ?_⟩
    by_cases heq : e.1 = buf
    · obtain rfl := List.inj_on_of_nodup_map h.nodup he hbuf heq
      rw [if_pos rfl]
      have hslice := Store.slice_blit_middle s.mem buf data 0 hfits
      rw [hheld.contents] at hslice
      have hover : (overwrite bytes off data).length = bytes.length := by
        rw [overwrite, ← hslice, Store.length_slice]
      refine ⟨hheld.addr, hover.trans_le hheld.fits, ?_⟩
      rw [hover]
      exact hslice
    · rw [if_neg heq]
      refine hheld.congr fun x hx ↦ hsame x fun hin ↦ ?_
      rw [InBuffer] at hx hin
      rcases Blocks.separate (List.mem_filter.mp hg).1 hlayout with rfl | hsep | hsep
      · exact heq (hheld.addr.trans haddr.symm)
      · omega
      · omega

/-! ## A call, and a run -/

theorem alignUp_lt (h : size + 31 < 2 ^ 32) : size < 2 ^ 32 := by omega

theorem Sys.legit_of_asks {c : Call} (hc : c.asks = some size) : s.Legit c ↔ s.Room size := by
  cases c with
  | malloc n => rw [Option.some.inj hc.symm]; rfl
  | calloc num n => rw [Option.some.inj hc.symm]; rfl
  | zalloc n => rw [Option.some.inj hc.symm]; rfl
  | free buf => cases hc
  | store buf off data => cases hc

/-- A buffer that is cleared after it was handed out. -/
theorem Inv.allocZero (h : Inv start s bs) (hroom : s.Room size) :
    ∃ s', (heapAlloc s.mem s.heap size).map (fun (m, heap, res) ↦
        ({ mem := Store.fill m res (alignUp size) 0, heap,
            ledger := (res, List.replicate size 0) :: s.ledger } : Sys)) = some s' ∧
      s'.ledger =
        (placed 32 (alignUp size) start bs + 32, List.replicate size 0) :: s.ledger ∧
      Inv start s' (place 32 128 (alignUp size) bs) := by
  obtain ⟨m₁, heap, f, bs', halloc, hf, rfl, hsz, -, hinv⟩ := h.alloc hroom
  rw [halloc, ← hf]
  refine ⟨_, rfl, rfl, hinv _ _ (fun x hx ↦ ?_) (List.length_replicate ..) ?_⟩
  · rw [InBuffer] at hx
    exact Store.fill_of_not_mem (by omega)
  · have hle := le_alignUp hroom.1
    rw [← Store.take_slice _ _ hle, Store.slice_fill, List.take_replicate, Nat.min_eq_left hle]

/-- **What a request does**, said of the blocks. -/
theorem Inv.request (h : Inv start s bs) {c : Call} (hc : c.asks = some size)
    (hroom : s.Room size) :
    ∃ s' bytes, s.call c = some s' ∧ bytes.length = size ∧
      s'.ledger = (placed 32 (alignUp size) start bs + 32, bytes) :: s.ledger ∧
      Inv start s' (place 32 128 (alignUp size) bs) := by
  cases c with
  | malloc n =>
    obtain rfl := Option.some.inj hc
    obtain ⟨m₁, heap, f, bs', halloc, hf, rfl, -, -, hinv⟩ := h.alloc hroom
    have hcall : s.call (.malloc n) =
        some ⟨m₁, heap, (f.1 + 32, Store.slice m₁ (f.1 + 32) n) :: s.ledger⟩ := by
      rw [Sys.call, Heap.malloc, halloc]
      rfl
    rw [← hf]
    exact ⟨_, _, hcall, Store.length_slice .., rfl,
      hinv _ _ (fun x _ ↦ rfl) (Store.length_slice ..) rfl⟩
  | calloc num n =>
    obtain rfl := Option.some.inj hc
    have hsmall := Nat.mod_eq_of_lt (alignUp_lt hroom.1)
    obtain ⟨s', hcall, hledger, hinv⟩ := h.allocZero hroom
    refine ⟨s', _, ?_, List.length_replicate .., hledger, hinv⟩
    rw [Sys.call, calloc, hsmall, Option.map_map]
    exact hcall
  | zalloc n =>
    obtain rfl := Option.some.inj hc
    obtain ⟨s', hcall, hledger, hinv⟩ := h.allocZero hroom
    refine ⟨s', _, ?_, List.length_replicate .., hledger, hinv⟩
    rw [Sys.call, zalloc, Option.map_map]
    exact hcall
  | free buf => cases hc
  | store buf off data => cases hc

theorem Inv.call_free (h : Inv start s bs) {f : ℕ × Block} (hf : f ∈ live 32 start bs) :
    ∃ s', s.call (.free (f.1 + 32)) = some s' ∧
      s'.ledger = s.ledger.filter (fun e ↦ e.1 ≠ f.1 + 32) ∧
      Inv start s' (melt 32 (release 32 f.1 start bs)) := by
  obtain ⟨m₁, hfree, hinv⟩ := h.free hf
  have hle := (Blocks.mem_layout_bounds (List.mem_filter.mp hf).1).1
  have hstart := h.start_eq
  refine ⟨_, ?_, rfl, hinv⟩
  rw [Sys.call, Heap.free, if_pos (by omega), hfree]
  rfl

/-- **What one call keeps.**  It returns, too; and there are no nodes until something is asked
for. -/
theorem Inv.call (h : Inv start s bs) (c : Call) (hlegit : s.Legit c) :
    ∃ s' bs', s.call c = some s' ∧ Inv start s' bs' ∧ (bs' = [] ↔ bs = [] ∧ c.asks = none) := by
  have hrequest : ∀ size, c.asks = some size →
      ∃ s' bs', s.call c = some s' ∧ Inv start s' bs' ∧ (bs' = [] ↔ bs = [] ∧ c.asks = none) := by
    intro size hc
    obtain ⟨s', bytes, hcall, -, -, hinv⟩ := h.request hc ((Sys.legit_of_asks hc).mp hlegit)
    refine ⟨s', _, hcall, hinv, fun hnil ↦ absurd hnil (Blocks.place_ne_nil 32 128 _ bs),
      fun hnone ↦ ?_⟩
    rw [hc] at hnone
    cases hnone.2
  cases c with
  | malloc size => exact hrequest size rfl
  | calloc num size => exact hrequest (num * size) rfl
  | zalloc size => exact hrequest size rfl
  | free buf =>
    rcases hlegit with hlow | hheld
    · -- nothing that was handed out is that low
      have hkeep : (s.ledger.filter fun e ↦ e.1 ≠ buf) = s.ledger := by
        refine List.filter_eq_self.mpr fun e he ↦ ?_
        have hle := (h.bounds he).1
        have hstart := h.start_eq
        simp only [ne_eq, decide_not, Bool.not_eq_true', decide_eq_false_iff_not]
        omega
      refine ⟨s, bs, ?_, h, (and_iff_left rfl).symm⟩
      rw [Sys.call, Heap.free, if_neg (by omega), Option.map_some, hkeep]
    · obtain ⟨f, hf, rfl⟩ := List.mem_map.mp (h.owners.mem_iff.mp hheld)
      obtain ⟨s', hcall, -, hinv⟩ := h.call_free hf
      refine ⟨s', _, hcall, hinv, ?_⟩
      rw [Blocks.melt_eq_nil, Blocks.release_eq_nil]
      exact (and_iff_left rfl).symm
  | store buf off data =>
    obtain ⟨bytes, hbuf, hfits⟩ := hlegit
    exact ⟨_, bs, rfl, h.store hbuf hfits, (and_iff_left rfl).symm⟩

/-- **What a run keeps.**  All its calls return. -/
theorem inv_run (mem : Mem) (hstart : 0 < start) (hstart' : start < 2 ^ 32) {calls : List Call}
    (hlegit : AllLegit (Sys.init mem start) calls) :
    ∃ s bs, Machine.run next (some (Sys.init mem start)) calls = some s ∧ Inv start s bs := by
  refine Machine.run_inv_along (I := fun o ↦ ∃ s bs, o = some s ∧ Inv start s bs)
    (fun o c hinv hc ↦ ?_) ⟨_, _, rfl, inv_init mem hstart hstart'⟩ hlegit
  · obtain ⟨s, bs, ho, hinv⟩ := hinv
    obtain ⟨s', bs', hcall, hinv', -⟩ := hinv.call c (hc s ho)
    exact ⟨s', bs', by rw [ho]; exact hcall, hinv'⟩

/-- **There are nodes once something has been asked for.** -/
theorem Inv.nodes_run (h : Inv start s bs) {calls : List Call} (hlegit : AllLegit s calls)
    {s' : Sys} (hrun : Machine.run next (some s) calls = some s') :
    s'.nodes ≠ [] ↔ bs ≠ [] ∨ ∃ c ∈ calls, c.asks ≠ none := by
  induction calls generalizing s bs with
  | nil =>
    obtain rfl := Option.some.inj hrun
    rw [h.nodes, Ne, Blocks.layout_eq_nil]
    simp
  | cons c calls ih =>
    obtain ⟨hnow, hlegit⟩ := hlegit
    obtain ⟨t, bs', hcall, hinv, hnil⟩ := h.call c (hnow s rfl)
    have hnext : next (some s) c = some t := hcall
    rw [Machine.run_cons, hnext] at hrun
    rw [hnext] at hlegit
    rw [ih hinv hlegit hrun, Ne, hnil, List.exists_mem_cons_iff, ← or_assoc, not_and_or]

/-! ### A run, call by call -/

/-- Calls that are as the heap expects them, with the blocks they lead to, and where the buffers are
and how many bytes they have. -/
def Served (mem : Mem) (start : ℕ) (calls : List Call) (bs : List Block) (bufs : List (ℕ × ℕ)) :
    Prop :=
  AllLegit (Sys.init mem start) calls ∧
    ∃ s, Machine.run next (some (Sys.init mem start)) calls = some s ∧
      s.ledger.map (fun e ↦ (e.1, e.2.length)) = bufs ∧ Inv start s bs

section
variable {mem : Mem} {calls : List Call} {bufs : List (ℕ × ℕ)}

theorem served_nil (mem : Mem) (hstart : 0 < start) (hstart' : start < 2 ^ 32) :
    Served mem start [] [] [] :=
  ⟨trivial, _, rfl, rfl, inv_init mem hstart hstart'⟩

/-- One more call. -/
theorem Served.call (h : Served mem start calls bs bufs) {c : Call} {bs' : List Block}
    {bufs' : List (ℕ × ℕ)}
    (hc : ∀ s, s.ledger.map (fun e ↦ (e.1, e.2.length)) = bufs → Inv start s bs →
      s.Legit c ∧ ∃ s', s.call c = some s' ∧
        s'.ledger.map (fun e ↦ (e.1, e.2.length)) = bufs' ∧ Inv start s' bs') :
    Served mem start (calls ++ [c]) bs' bufs' := by
  obtain ⟨hlegit, s, hrun, hbufs, hinv⟩ := h
  obtain ⟨hlegit', s', hcall, hbufs', hinv'⟩ := hc s hbufs hinv
  refine ⟨(Machine.along_append _ _ _).mpr ⟨hlegit, ?_, trivial⟩, s', ?_, hbufs', hinv'⟩
  · rw [hrun]
    exact fun t ht ↦ Option.some.inj ht ▸ hlegit'
  · rw [Machine.run_append, hrun]
    exact hcall

theorem Served.request (h : Served mem start calls bs bufs) {c : Call} (hc : c.asks = some size)
    (hsize : size + 31 < 2 ^ 32) (hroom : start + span 32 bs + (32 + alignUp size) < 2 ^ 32) :
    Served mem start (calls ++ [c]) (place 32 128 (alignUp size) bs)
      ((placed 32 (alignUp size) start bs + 32, size) :: bufs) := by
  refine h.call fun s hbufs hinv ↦ ?_
  have hroom' : s.Room size := ⟨hsize, .inr (by rw [hinv.brk]; exact hroom)⟩
  obtain ⟨s', bytes, hcall, hlen, hledger, hinv'⟩ := hinv.request hc hroom'
  refine ⟨(Sys.legit_of_asks hc).mpr hroom', s', hcall, ?_, hinv'⟩
  rw [hledger, List.map_cons, hbufs, hlen]

theorem Served.free (h : Served mem start calls bs bufs) {f : ℕ × Block}
    (hf : f ∈ live 32 start bs) :
    Served mem start (calls ++ [.free (f.1 + 32)]) (melt 32 (release 32 f.1 start bs))
      (bufs.filter fun e ↦ e.1 ≠ f.1 + 32) := by
  refine h.call fun s hbufs hinv ↦ ?_
  obtain ⟨s', hcall, hledger, hinv'⟩ := hinv.call_free hf
  refine ⟨.inr (hinv.owners.mem_iff.mpr (List.mem_map_of_mem hf)), s', hcall, ?_, hinv'⟩
  rw [hledger, ← hbufs, List.filter_map]
  rfl

theorem Served.store (h : Served mem start calls bs bufs) (buf off : ℕ) (data : List UInt8)
    {len : ℕ} (hbuf : (buf, len) ∈ bufs) (hfits : off + data.length ≤ len) :
    Served mem start (calls ++ [.store buf off data]) bs bufs := by
  refine h.call fun s hbufs hinv ↦ ?_
  rw [← hbufs] at hbuf
  obtain ⟨⟨buf', bytes⟩, he, heq⟩ := List.mem_map.mp hbuf
  obtain ⟨rfl, rfl⟩ := Prod.mk.inj heq
  refine ⟨⟨bytes, he, hfits⟩, _, rfl, ?_, hinv.store he hfits⟩
  rw [← hbufs, List.map_map]
  refine List.map_congr_left fun e he' ↦ ?_
  rw [Function.comp_apply]
  split
  · next hsame =>
    obtain rfl := List.inj_on_of_nodup_map hinv.nodup he' he hsame
    have hlen : off + data.length ≤ bytes.length := hfits
    rw [overwrite]
    simp only [List.length_append, List.length_take, List.length_drop, Prod.mk.injEq, true_and]
    omega
  · rfl

end

/-- Four buffers are handed out, something is stored in the third one, and the first two are given
back. -/
def sampleCalls : List Call :=
  [.malloc 100, .calloc 10 20, .zalloc 40, .malloc 8, .store 0x4003DDC0 4 [1, 2, 3],
    .free 0x4003DC20, .free 0x4003DCC0]

/-- Where the heap of the program starts: the two nodes that were given back are one. -/
theorem sample_served : Served (fun _ ↦ 0) 0x4003DC00 sampleCalls
    [⟨false, 384⟩, ⟨true, 64⟩, ⟨true, 32⟩] [(0x4003DE20, 8), (0x4003DDC0, 40)] := by
  have hnil := served_nil (fun _ ↦ 0) (show 0 < 0x4003DC00 by decide) (by decide)
  have hfour := (((hnil.request (c := .malloc 100) rfl (by decide) (by decide)).request
    (c := .calloc 10 20) rfl (by decide) (by decide)).request
    (c := .zalloc 40) rfl (by decide) (by decide)).request
    (c := .malloc 8) rfl (by decide) (by decide)
  have hbuf : (0x4003DDC0, 40) ∈ [(0x4003DE20, 8), (0x4003DDC0, 40), (0x4003DCC0, 200),
    (0x4003DC20, 100)] := by decide
  have hstored := hfour.store 0x4003DDC0 4 [1, 2, 3] hbuf (by decide)
  have hfirst := hstored.free (f := (0x4003DC00, ⟨true, 128⟩)) (by decide)
  exact hfirst.free (f := (0x4003DCA0, ⟨true, 224⟩)) (by decide)

/-- **The heap is as good as separate buffers.**  After any calls that are as it expects them, every
buffer that was handed out and not given back is aligned and in the heap, ends before the header of
the next one, and holds what its owner put there. -/
theorem heap_separates_buffers (mem : Mem) (hstart : 0 < start) (hstart' : start < 2 ^ 32)
    (haligned : 32 ∣ start) (calls : List Call) (hlegit : AllLegit (Sys.init mem start) calls) :
    ∃ s, Machine.run next (some (Sys.init mem start)) calls = some s ∧
      (∀ e ∈ s.ledger, 32 ∣ e.1 ∧ start + 32 ≤ e.1 ∧ e.1 + e.2.length ≤ s.brk ∧ s.brk < 2 ^ 32 ∧
        Store.slice s.mem e.1 e.2.length = e.2) ∧
      s.ledger.Pairwise fun e f ↦ e.1 + e.2.length + 32 ≤ f.1 ∨ f.1 + f.2.length + 32 ≤ e.1 := by
  obtain ⟨s, bs, hrun, hinv⟩ := inv_run mem hstart hstart' hlegit
  refine ⟨s, hrun, fun e he ↦ ?_, hinv.apart⟩
  obtain ⟨f, hf, hholds⟩ := hinv.holds e he
  have hdvd : 32 ∣ f.1 :=
    hinv.aligned.dvd_of_mem (Nat.dvd_refl 32) haligned (List.mem_filter.mp hf).1
  have hroom := hinv.rep.room
  rw [hinv.start_eq, ← hinv.brk] at hroom
  refine ⟨?_, (hinv.bounds he).1, (hinv.bounds he).2, hroom, hholds.contents⟩
  rw [hholds.addr]
  exact Nat.dvd_add hdvd (Nat.dvd_refl 32)

theorem heap_separates_buffers_released :
    ∃ s, Machine.run next (some (Sys.init (fun _ ↦ 0) 0x4003DC00)) sampleCalls = some s ∧
      (∀ e ∈ s.ledger, 32 ∣ e.1 ∧ 0x4003DC00 + 32 ≤ e.1 ∧ e.1 + e.2.length ≤ s.brk ∧
        s.brk < 2 ^ 32 ∧ Store.slice s.mem e.1 e.2.length = e.2) ∧
      s.ledger.Pairwise fun e f ↦ e.1 + e.2.length + 32 ≤ f.1 ∨ f.1 + f.2.length + 32 ≤ e.1 :=
  heap_separates_buffers _ (by decide) (by decide) (by decide) _ sample_served.1

/-- **First fit.**  A request that can be met, of `malloc`, `calloc` or `zalloc`, is answered with
the lowest free node that is large enough, and the heap grows only where there is none. -/
theorem heap_first_fit (mem : Mem) (hstart : 0 < start) (hstart' : start < 2 ^ 32)
    (calls : List Call) (c : Call) (hasks : c.asks = some size)
    (hlegit : AllLegit (Sys.init mem start) (calls ++ [c])) :
    ∃ s s' buf bytes, Machine.run next (some (Sys.init mem start)) calls = some s ∧
      s.call c = some s' ∧ s'.ledger = (buf, bytes) :: s.ledger ∧ bytes.length = size ∧
      ((∃ e ∈ s.nodes, Fits (alignUp size) e.2 ∧ buf = e.1 + 32 ∧
          (∀ f ∈ s.nodes, Fits (alignUp size) f.2 → e.1 ≤ f.1) ∧ s'.brk = s.brk) ∨
        ((∀ e ∈ s.nodes, ¬ Fits (alignUp size) e.2) ∧ buf = s.brk + 32 ∧
          s'.brk = s.brk + 32 + alignUp size)) := by
  obtain ⟨hlegit, hlast⟩ := (Machine.along_append _ _ _).mp hlegit
  obtain ⟨s, bs, hrun, hinv⟩ := inv_run mem hstart hstart' hlegit
  have hroom : s.Room size := (Sys.legit_of_asks hasks).mp (hlast.1 s hrun)
  obtain ⟨s', bytes, hcall, hlen, hledger, hinv'⟩ := hinv.request hasks hroom
  refine ⟨s, s', _, bytes, hrun, hcall, hledger, hlen, ?_⟩
  rw [hinv'.brk, hinv.brk, hinv.nodes]
  obtain ⟨pre, b, post, rfl, hpre, hb, hplace, hat⟩ | ⟨hnone, hplace, hat⟩ :=
    Blocks.place_cases 32 128 (alignUp size) start bs
  · refine .inl ⟨_, Blocks.mem_layout_append 32 start pre post b, hb, by rw [hat],
      fun f hf hfit ↦ ?_, ?_⟩
    · rw [Blocks.layout_append, List.mem_append] at hf
      rcases hf with hf | hf
      · have hmem := List.mem_map_of_mem (f := Prod.snd) hf
        rw [Blocks.map_snd_layout] at hmem
        exact absurd hfit (hpre _ hmem)
      · exact (Blocks.mem_layout_bounds hf).1
    · rw [hplace, Blocks.span_append, Blocks.span_append, Blocks.span_carve (by omega) hb.2,
        Blocks.span_append, span]
  · refine .inr ⟨fun e he ↦ hnone _ ?_, by rw [hat], ?_⟩
    · have hmem := List.mem_map_of_mem (f := Prod.snd) he
      rwa [Blocks.map_snd_layout] at hmem
    · rw [hplace, Blocks.span_append]
      simp only [span]
      omega

/-- The node that was given back is taken, and cut. -/
theorem sample_zalloc : Served (fun _ ↦ 0) 0x4003DC00 (sampleCalls ++ [.zalloc 100])
    [⟨true, 128⟩, ⟨false, 224⟩, ⟨true, 64⟩, ⟨true, 32⟩]
    [(0x4003DC20, 100), (0x4003DE20, 8), (0x4003DDC0, 40)] :=
  sample_served.request (c := .zalloc 100) rfl (by decide) (by decide)

theorem heap_first_fit_second :
    ∃ s s' buf bytes,
      Machine.run next (some (Sys.init (fun _ ↦ 0) 0x4003DC00)) sampleCalls = some s ∧
      s.call (.zalloc 100) = some s' ∧ s'.ledger = (buf, bytes) :: s.ledger ∧ bytes.length = 100 ∧
      ((∃ e ∈ s.nodes, Fits (alignUp 100) e.2 ∧ buf = e.1 + 32 ∧
          (∀ f ∈ s.nodes, Fits (alignUp 100) f.2 → e.1 ≤ f.1) ∧ s'.brk = s.brk) ∨
        ((∀ e ∈ s.nodes, ¬ Fits (alignUp 100) e.2) ∧ buf = s.brk + 32 ∧
          s'.brk = s.brk + 32 + alignUp 100)) ∧
      buf = 0x4003DC20 ∧ s.ledger.length = 2 := by
  obtain ⟨s, s', buf, bytes, hrun, hcall, hledger, hlen, hfit⟩ :=
    heap_first_fit (fun _ ↦ 0) (show 0 < 0x4003DC00 by decide) (by decide) sampleCalls
      (.zalloc 100) rfl sample_zalloc.1
  obtain ⟨-, t, hrun', hbufs, -⟩ := sample_zalloc
  rw [Machine.run_append, hrun] at hrun'
  obtain rfl : s' = t := Option.some.inj (hcall.symm.trans hrun')
  rw [hledger, List.map_cons, List.cons.injEq, Prod.mk.injEq] at hbufs
  refine ⟨s, s', buf, bytes, hrun, hcall, hledger, hlen, hfit, hbufs.1.1, ?_⟩
  rw [← List.length_map, hbufs.2]
  rfl

/-- **Nothing is lost to fragments.**  No two free nodes are neighbours, and when all buffers have
been given back there is at most one node.  What fits into all the heap has ever taken can then be
had from its start. -/
theorem heap_coalesces (mem : Mem) (hstart : 0 < start) (hstart' : start < 2 ^ 32)
    (calls : List Call) (hlegit : AllLegit (Sys.init mem start) calls) :
    ∃ s, Machine.run next (some (Sys.init mem start)) calls = some s ∧
      Melted (s.nodes.map Prod.snd) ∧
      (s.ledger = [] → s.nodes.length ≤ 1 ∧
        ∀ c size, c.asks = some size → size + 31 < 2 ^ 32 → start + 32 + alignUp size ≤ s.brk →
          ∃ s' bytes, s.call c = some s' ∧ s'.ledger = [(start + 32, bytes)] ∧ bytes.length = size ∧
            s'.brk = s.brk) := by
  obtain ⟨s, bs, hrun, hinv⟩ := inv_run mem hstart hstart' hlegit
  refine ⟨s, hrun, hinv.blocks ▸ hinv.melted, fun hnil ↦ ?_⟩
  have hlive : live 32 start bs = [] := by
    have hperm := hinv.owners
    rw [hnil, List.map_nil] at hperm
    exact List.map_eq_nil_iff.mp hperm.nil_eq.symm
  have hlen := hinv.melted.length_le_one hlive
  rw [hinv.nodes, Blocks.length_layout]
  refine ⟨hlen, fun c size hasks hsize hfits ↦ ?_⟩
  rw [hinv.brk] at hfits ⊢
  cases bs with
  | nil =>
    rw [span] at hfits
    omega
  | cons b bs =>
    obtain rfl : bs = [] :=
      List.length_eq_zero_iff.mp (Nat.le_zero.mp (Nat.le_of_succ_le_succ hlen))
    rw [span, span] at hfits
    have hfree : b.used = false := by
      rw [Blocks.live_cons] at hlive
      cases hb : b.used with
      | false => rfl
      | true => simp [hb] at hlive
    have hfit : Fits (alignUp size) b := ⟨hfree, by omega⟩
    have hroom : s.Room size := by
      refine ⟨hsize, .inl ⟨(start, b), ?_, hfit⟩⟩
      rw [hinv.nodes]
      exact List.mem_cons_self
    obtain ⟨s', bytes, hcall, hbytes, hledger, hinv'⟩ := hinv.request hasks hroom
    refine ⟨s', bytes, hcall, ?_, hbytes, ?_⟩
    · rw [hledger, hnil, placed, if_pos hfit]
    · rw [hinv'.brk, place, if_pos hfit, List.append_nil, Blocks.span_carve (by omega) hfit.2]
      rfl

/-- All buffers have been given back. -/
theorem sample_released : Served (fun _ ↦ 0) 0x4003DC00
    (sampleCalls ++ [.free 0x4003DDC0] ++ [.free 0x4003DE20]) [⟨false, 544⟩] [] :=
  (sample_served.free (f := (0x4003DDA0, ⟨true, 64⟩)) (by decide)).free
    (f := (0x4003DE00, ⟨true, 32⟩)) (by decide)

theorem heap_coalesces_released :
    (∃ s, Machine.run next (some (Sys.init (fun _ ↦ 0) 0x4003DC00)) sampleCalls = some s ∧
      s.nodes.map Prod.snd = [⟨false, 384⟩, ⟨true, 64⟩, ⟨true, 32⟩] ∧
      Melted (s.nodes.map Prod.snd)) ∧
    ∃ s, Machine.run next (some (Sys.init (fun _ ↦ 0) 0x4003DC00))
        (sampleCalls ++ [.free 0x4003DDC0] ++ [.free 0x4003DE20]) = some s ∧
      s.nodes.length ≤ 1 ∧
        ∀ c size, c.asks = some size → size + 31 < 2 ^ 32 →
          0x4003DC00 + 32 + alignUp size ≤ s.brk →
            ∃ s' bytes, s.call c = some s' ∧ s'.ledger = [(0x4003DC00 + 32, bytes)] ∧
              bytes.length = size ∧ s'.brk = s.brk := by
  have hstart : 0 < 0x4003DC00 := by decide
  have hstart' : 0x4003DC00 < 2 ^ 32 := by decide
  constructor
  · obtain ⟨s, hrun, hmelted, -⟩ := heap_coalesces (fun _ ↦ 0) hstart hstart' _ sample_served.1
    obtain ⟨-, t, hrun', -, hinv⟩ := sample_served
    obtain rfl : s = t := Option.some.inj (hrun.symm.trans hrun')
    exact ⟨s, hrun, hinv.blocks, hmelted⟩
  · obtain ⟨s, hrun, -, hnil⟩ := heap_coalesces (fun _ ↦ 0) hstart hstart' _ sample_released.1
    obtain ⟨-, t, hrun', hbufs, -⟩ := sample_released
    obtain rfl : s = t := Option.some.inj (hrun.symm.trans hrun')
    exact ⟨s, hrun, hnil (List.map_eq_nil_iff.mp hbufs)⟩

/-- **`heap_monitor` tells the truth**, once something has been asked for: its total is all the
bytes of the heap, the nodes it counts as used are the buffers that were handed out and not given
back, and their bytes are at least what was asked for.  Before, there is no first node for it to
look at. -/
theorem heap_monitor_counts (mem : Mem) (hstart : 0 < start) (hstart' : start < 2 ^ 32)
    (calls : List Call) (hlegit : AllLegit (Sys.init mem start) calls) :
    ∃ s, Machine.run next (some (Sys.init mem start)) calls = some s ∧
      (s.nodes ≠ [] ↔ ∃ c ∈ calls, c.asks ≠ none) ∧
      (s.nodes ≠ [] → ∃ mon, heapMonitor s.mem s.heap = some mon ∧ mon.total = s.brk - start ∧
        mon.nodesTotal = s.nodes.length ∧ mon.nodesUsed = s.ledger.length ∧
        (s.ledger.map fun e ↦ 32 + e.2.length).sum ≤ mon.used ∧ mon.used ≤ mon.total) := by
  obtain ⟨s, bs, hrun, hinv⟩ := inv_run mem hstart hstart' hlegit
  have hasked := (inv_init mem hstart hstart').nodes_run hlegit hrun
  refine ⟨s, hrun, hasked.trans (or_iff_right (not_not_intro rfl)), fun hne ↦ ?_⟩
  have hbs : bs ≠ [] := by
    rintro rfl
    exact hne hinv.nodes
  have hlive := congrArg List.length (Blocks.map_snd_live 32 start bs)
  have howners := hinv.owners.length_eq
  rw [List.length_map] at hlive
  rw [List.length_map, List.length_map] at howners
  refine ⟨_, heapMonitor_spec hinv.rep hbs, ?_, ?_, ?_, hinv.asked_le, ?_⟩
  · rw [hinv.brk, Nat.add_sub_cancel_left]
  · rw [hinv.nodes, Blocks.length_layout]
  · rw [← hlive, howners]
  · rw [← bytesOf_add bs]
    exact Nat.le_add_left ..

theorem heap_monitor_counts_released :
    ∃ s, Machine.run next (some (Sys.init (fun _ ↦ 0) 0x4003DC00)) sampleCalls = some s ∧
      s.ledger.map (fun e ↦ (e.1, e.2.length)) = [(0x4003DE20, 8), (0x4003DDC0, 40)] ∧
      ∃ mon, heapMonitor s.mem s.heap = some mon ∧
        mon.total = s.brk - 0x4003DC00 ∧ mon.nodesTotal = s.nodes.length ∧
        mon.nodesUsed = s.ledger.length ∧
        (s.ledger.map fun e ↦ 32 + e.2.length).sum ≤ mon.used ∧ mon.used ≤ mon.total := by
  obtain ⟨s, hrun, hasked, hcounts⟩ :=
    heap_monitor_counts (fun _ ↦ 0) (show 0 < 0x4003DC00 by decide) (by decide) _ sample_served.1
  obtain ⟨-, t, hrun', hbufs, -⟩ := sample_served
  obtain rfl : s = t := Option.some.inj (hrun.symm.trans hrun')
  have hrequest : Call.malloc 100 ∈ sampleCalls := List.mem_cons_self
  exact ⟨s, hrun, hbufs, hcounts (hasked.mpr ⟨_, hrequest, Option.some_ne_none _⟩)⟩

end Heap
end SdLoader
