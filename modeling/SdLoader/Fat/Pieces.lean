import SdLoader.Fat.Read
import SdLoader.Payload.Launch

/-!
# A file as a list of pieces

To what reads a payload, a file is a list of `Piece`s, whatever its clusters are.  This is where
such a list comes from: it is what `f_read` asks the drive for, when it reads a file whose chain is
in order.

* `recorded` — a drive that brings what is there, and keeps a record of what it is asked for;
* `readRound_pieces` — a round asks for sectors of the FAT and, last, for the bytes it brings;
* `readLoop_pieces` — so the whole file is read in pieces that are `Ordered`, and are its bytes.
-/

set_option autoImplicit false

namespace SdLoader
namespace Fat

open Files (Block)
open Payload (Piece Ordered sizeOf bytesOf)
open Storage (blockSize_eq)

variable {v : Volume} {vol : ℕ → UInt8} {obj : Obj} {fp : Fil} {c : Scan.Cache Block}

/-- A drive that never fails, with a record. -/
def recorded (vol : ℕ → UInt8) (p : Piece) (log : List Piece) : Option Block × List Piece :=
  (some (Store.slice vol (512 * p.sector) (512 * p.count)), log ++ [p])

theorem recorded_serves (v : Volume) (vol : ℕ → UInt8) :
    Serves v vol (recorded vol) fun _ ↦ True := by
  exact fun p log b _ _ h ↦ ⟨trivial, (Option.some.inj h).symm⟩

theorem not_recorded_refuses (v : Volume) (vol : ℕ → UInt8) :
    ¬ Refuses v (recorded vol) fun _ ↦ True := by
  rintro ⟨p, log, -, -, h⟩
  cases h

/-- All clusters of the chain that the file needs are good. -/
def InOrder (v : Volume) (vol : ℕ → UInt8) (obj : Obj) : Prop :=
  ∀ k, k * v.bcs < obj.objsize → Good v (cluster v vol obj k)

/-- On a drive that does not fail, there is no reason for an error within such a file. -/
theorem InOrder.not_faulty {σ : Type} {read : Piece → σ → Option Block × σ} {I : σ → Prop}
    (h : InOrder v vol obj) (hnever : ¬ Refuses v read I) {d' : σ} {p : ℕ} {e : Abort}
    (hp : p < obj.objsize) : ¬ Faulty v vol obj read I d' p e := by
  rintro (⟨-, hstart, hbad, -⟩ | ⟨-, piece, d, -, hallowed, hd, hread⟩)
  · refine hbad (h _ ?_)
    have hdiv := Nat.mod_add_div p v.bcs
    rw [Nat.mul_comm]
    omega
  · exact hnever ⟨piece, d, hallowed, hd, congrArg Prod.fst hread⟩

/-- `get_fat` asks for sectors of the FAT. -/
theorem followChain_log (v : Volume) (vol : ℕ → UInt8) (fp : Fil) (c : Scan.Cache Block)
    (log : List Piece) :
    ∃ ss : List ℕ, (followChain (recorded vol) v fp (c, log)).2.2 = log ++ ss.map .fat := by
  rw [followChain]
  split
  · exact ⟨[], (List.append_nil log).symm⟩
  · have hstep : ∀ s d, (∃ ss : List ℕ, d = log ++ ss.map .fat) → InFat v s →
        ∃ ss : List ℕ, (recorded vol (.fat s) d).2 = log ++ ss.map .fat := by
      rintro s d ⟨ss, rfl⟩ -
      refine ⟨ss ++ [s], ?_⟩
      rw [recorded, List.map_append, List.append_assoc]
      rfl
    exact Scan.run_inv hstep (getFat v fp.obj fp.clust) ⟨[], (List.append_nil log).symm⟩
      (getFat_along _ v fp.obj fp.clust (c, log))

theorem enterCluster_log (v : Volume) (vol : ℕ → UInt8) (fp : Fil) (c : Scan.Cache Block)
    (log : List Piece) :
    ∃ ss : List ℕ, (enterCluster (recorded vol) v fp (c, log)).2.2.2 = log ++ ss.map .fat := by
  obtain ⟨ss, hlog⟩ := followChain_log v vol fp c log
  rw [enterCluster]
  split
  · refine ⟨ss, ?_⟩
    rcases hf : followChain (recorded vol) v fp (c, log) with ⟨clst, x⟩
    rw [hf] at hlog
    dsimp only at hlog ⊢
    split
    · exact hlog
    · split <;> exact hlog
  · exact ⟨[], (List.append_nil log).symm⟩

/-- **A round asks for sectors of the FAT, and then for the bytes it brings**, if `buf` is not in
use. -/
theorem readRound_pieces (hshape : Shape v) (haddr : Addressable v) (horder : InOrder v vol obj)
    (ht : Tracks v vol obj fp) (hc : Scan.Coherent (table vol) c) (hsector : fp.fptr % 512 = 0)
    (hsect : fp.sect = 0) {btr : ℕ} (hbtr : 0 < btr) (hle : btr ≤ obj.objsize - fp.fptr)
    (log : List Piece) :
    ∃ (ss : List ℕ) (p : Piece),
      (readRound (recorded vol) v btr fp (c, log)).1 = .ok (p.bytes vol) ∧
      (readRound (recorded vol) v btr fp (c, log)).2.2.2 = log ++ (ss.map .fat ++ [p]) ∧
      ((∃ s cc, p = .run s cc ∧ cc ≠ 0 ∧
          (readRound (recorded vol) v btr fp (c, log)).2.1.sect = 0) ∨
        ∃ s, p = .part s btr ∧ btr < 512) := by
  obtain ⟨ss, hlog⟩ := enterCluster_log v vol fp c log
  have henter := enterCluster_spec haddr hshape (recorded_serves v vol) ⟨trivial, hc⟩ ht
    (x := (c, log)) hsector
  have hgood : Good v (cluster v vol obj (fp.fptr / v.bcs)) := by
    refine horder _ ?_
    have hdiv := Nat.mod_add_div fp.fptr v.bcs
    rw [Nat.mul_comm]
    omega
  obtain ⟨hne, hsectnum, hsectpos, -⟩ := sector_spec hshape haddr hsector hgood
  rw [readRound, if_pos hsector]
  rcases he : enterCluster (recorded vol) v fp (c, log) with ⟨_ | e, fp', c', log'⟩
  · rw [he] at hlog henter
    obtain ⟨-, rfl, -⟩ := henter
    dsimp only at hlog ⊢
    have hcs : Fil.csect v { fp with clust := cluster v vol obj (fp.fptr / v.bcs) } = fp.csect v :=
      rfl
    rw [readSectors]
    dsimp only
    rw [if_neg hne, hcs, hsectnum]
    split
    · next hcc =>
      set cc := clip v { fp with clust := cluster v vol obj (fp.fptr / v.bcs) } (btr / 512)
        with hccdef
      have hpos : 0 < cc := (clip_spec hshape _ hcc).1
      refine ⟨ss, .run (fileSector v vol obj fp.fptr) cc, ?_, ?_, .inl ⟨_, _, rfl, by omega, hsect⟩⟩
      · exact congrArg Except.ok (cut_slice vol _ (Nat.le_of_eq (Nat.zero_add _)))
      · rw [← List.append_assoc, ← hlog]
        rfl
    · next hcc =>
      rw [if_pos (by rw [hsect]; omega)]
      refine ⟨ss, .part (fileSector v vol obj fp.fptr) btr, ?_, ?_, .inr ⟨_, rfl, by omega⟩⟩
      · have hfit : 0 + btr ≤ 512 * Piece.count (.part (fileSector v vol obj fp.fptr) btr) := by
          rw [Piece.count]
          omega
        exact congrArg Except.ok (cut_slice vol _ hfit)
      · rw [← List.append_assoc, ← hlog]
        rfl
  · rw [he] at henter
    exact absurd henter.2 (horder.not_faulty (not_recorded_refuses v vol) (by omega))

theorem ordered_fats (ss : List ℕ) {ps : List Piece} (h : Ordered ps) :
    Ordered (ss.map .fat ++ ps) := by
  induction ss with
  | nil => exact h
  | cons s ss ih => exact ih

theorem bytesOf_fats (vol : ℕ → UInt8) (ss : List ℕ) : bytesOf vol (ss.map .fat) = [] := by
  induction ss with
  | nil => rfl
  | cons s ss ih => exact ih

/-- **A file that is in order is read in pieces**: they are ordered, and the bytes of the file. -/
theorem readLoop_pieces (hshape : Shape v) (haddr : Addressable v) (horder : InOrder v vol obj)
    {n btr : ℕ} (hn : btr ≤ n) (ht : Tracks v vol obj fp) (hc : Scan.Coherent (table vol) c)
    (hsector : fp.fptr % 512 = 0) (hsect : fp.sect = 0) (hle : btr ≤ obj.objsize - fp.fptr)
    (log : List Piece) :
    ∃ ps, (readLoop (recorded vol) v n btr fp (c, log)).2.2.2.2 = log ++ ps ∧ Ordered ps ∧
      (readLoop (recorded vol) v n btr fp (c, log)).2.1 = bytesOf vol ps := by
  induction n generalizing btr fp c log with
  | zero => exact ⟨[], (List.append_nil log).symm, trivial, rfl⟩
  | succ n ih =>
    rw [readLoop]
    split
    · exact ⟨[], (List.append_nil log).symm, trivial, rfl⟩
    · next hpos =>
      have hround := readRound_spec ht hshape haddr (recorded_serves v vol) ⟨trivial, hc⟩
        (x := (c, log)) (Nat.pos_of_ne_zero hpos) hle
      obtain ⟨ss, p, hbytes, hlog, hp⟩ := readRound_pieces hshape haddr horder ht hc hsector
        hsect (Nat.pos_of_ne_zero hpos) hle log
      rcases hr : readRound (recorded vol) v btr fp (c, log) with ⟨res, fp', c', log'⟩
      rw [hr] at hround hbytes hlog hp
      dsimp only at hbytes hlog hp
      subst hbytes hlog
      obtain ⟨hkept, hsome, hbtr, -, ht', -, hc'⟩ := hround
      dsimp only at hkept hsome hbtr ht' hc' ⊢
      rw [Payload.length_bytes] at hsome hbtr ht' ⊢
      rw [hkept.fptr]
      rcases hp with ⟨s, cc, rfl, hcc, hsect'⟩ | ⟨s, rfl, hlt⟩
      · -- whole sectors: the next round begins at a sector again
        have hwhole : (fp.fptr + Piece.size (.run s cc)) % 512 = 0 := by
          rw [Piece.size, blockSize_eq]
          omega
        obtain ⟨ps, hlog, hordered, hrest⟩ := ih
          (show btr - Piece.size (.run s cc) ≤ n by omega) ht' hc' hwhole hsect'
          (by dsimp only; omega) (log ++ (ss.map .fat ++ [.run s cc]))
        have hps : Ordered (.run s cc :: ps) := ⟨hcc, hordered⟩
        refine ⟨ss.map .fat ++ .run s cc :: ps, ?_, ordered_fats ss hps, ?_⟩
        · rw [hlog, List.append_assoc, List.append_assoc]
          rfl
        · rw [Payload.bytesOf_append, bytesOf_fats, List.nil_append, Payload.bytesOf_cons, hrest]
      · -- a part of a sector: this is the last round
        have hdone : btr - Piece.size (.part s btr) = 0 := Nat.sub_self btr
        have hlast : ∀ fp x, readLoop (recorded vol) v n 0 fp x = (.ok, [], fp, x) := by
          intro fp x
          cases n with
          | zero => rfl
          | succ n => rfl
        rw [hdone, hlast]
        have hps : Ordered [.part s btr] := by
          refine ⟨?_, rfl⟩
          rw [blockSize_eq]
          omega
        refine ⟨ss.map .fat ++ [.part s btr], rfl, ordered_fats ss hps, ?_⟩
        · rw [Payload.bytesOf_append, bytesOf_fats, List.nil_append, Payload.bytesOf_cons,
            Payload.bytesOf_nil]

end Fat
end SdLoader
