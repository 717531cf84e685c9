import SdLoader.Fat.Chain

/-!
# Reading a file

The bytes of a file are those of the clusters of its chain, one behind the other: `fileByte`.

* `Tracks` — the invariant of an open file: `clust` is the cluster of the byte before `fptr`, all
  clusters up to it are good, and `buf` has what is in the sector `sect`;
* `followChain_spec`, `enterCluster_spec`, `readSectors_spec`, `readRound_spec` — what the parts of
  a round of `f_read` do, on a drive that may fail at any time;
* `readLoop_spec` — the loop;
* `fReads`, `fReads_spec` — any number of calls.

The drive is anything that `Serves` the sectors of a volume: what it brings is what is there, if it
brings anything, and it is asked for nothing but pieces that are `Allowed`.  A call that fails has
come to where the chain breaks off, or the drive has just refused what is `Wanted` next.
-/

set_option autoImplicit false

namespace SdLoader
namespace Fat

open Files (Block)
open Payload (Piece)

/-! ## The bytes of a file -/

section
variable (v : Volume) (vol : ℕ → UInt8) (obj : Obj)

/-- The bytes of a cluster. -/
def Volume.bcs : ℕ := 512 * v.csize

/-- A cluster of the volume. -/
def Good (clst : ℕ) : Prop := 2 ≤ clst ∧ clst < v.nFatent

instance (clst : ℕ) : Decidable (Good v clst) := inferInstanceAs (Decidable (_ ∧ _))

/-- The clusters of an object. -/
def cluster : ℕ → ℕ
  | 0 => obj.sclust
  | k + 1 => entry v vol obj (cluster k)

/-- The first sector of the cluster byte `p` is in. -/
def clusterSector (p : ℕ) : ℕ := v.database + v.csize * (cluster v vol obj (p / v.bcs) - 2)

/-- The sector byte `p` is in. -/
def fileSector (p : ℕ) : ℕ := clusterSector v vol obj p + p % v.bcs / 512

/-- Byte `p` of a file. -/
def fileByte (p : ℕ) : UInt8 := vol (512 * clusterSector v vol obj p + p % v.bcs)

/-- What `f_read` may ask the drive for: a sector of the FAT, or sectors of a cluster. -/
inductive Allowed : Piece → Prop
  | fat {s : ℕ} (h : InFat v s) : Allowed (.fat s)
  | run {clst o count : ℕ} (good : Good v clst) (pos : 0 < count) (h : o + count ≤ v.csize) :
      Allowed (.run ((v.database + v.csize * (clst - 2) + o) % 2 ^ 64) count)
  | part {clst o n : ℕ} (good : Good v clst) (pos : 0 < n) (le : n < 512) (h : o + 1 ≤ v.csize) :
      Allowed (.part ((v.database + v.csize * (clst - 2) + o) % 2 ^ 64) n)

/-- A drive that brings what is on `vol`, if it brings anything.  `I` holds of it until it brings
nothing. -/
def Serves {σ : Type} (read : Piece → σ → Option Block × σ) (I : σ → Prop) : Prop :=
  ∀ p d b, Allowed v p → I d → (read p d).1 = some b →
    I (read p d).2 ∧ b = Store.slice vol (512 * p.sector) (512 * p.count)

/-- It may bring nothing. -/
def Refuses {σ : Type} (read : Piece → σ → Option Block × σ) (I : σ → Prop) : Prop :=
  ∃ p d, Allowed v p ∧ I d ∧ (read p d).1 = none

/-- What `f_read` asks for when it has come to byte `p` of a file: the sector the byte is in and
those behind it, or, where a cluster begins, a sector of the FAT. -/
inductive Wanted (p : ℕ) : Piece → Prop
  | fat {s : ℕ} (start : p % v.bcs = 0) (later : p ≠ 0) (h : InFat v s) : Wanted p (.fat s)
  | run (count : ℕ) : Wanted p (.run (fileSector v vol obj p) count)
  | part (n : ℕ) : Wanted p (.part (fileSector v vol obj p) n)

/-- It has just been refused what is wanted at byte `p`, and so come to the state `d'`. -/
def Refused {σ : Type} (read : Piece → σ → Option Block × σ) (I : σ → Prop) (p : ℕ) (d' : σ) :
    Prop :=
  ∃ piece d, Wanted v vol obj p piece ∧ Allowed v piece ∧ I d ∧ read piece d = (none, d')

/-- Window and drive, as they should be. -/
def Sound {σ : Type} (I : σ → Prop) (x : Access σ) : Prop :=
  I x.2 ∧ Scan.Coherent (table vol) x.1

/-- The error a cluster that is not good leads to. -/
def abortOf (clst : ℕ) : Abort := if clst = 0xFFFFFFFF then .diskErr else .intErr

/-- The chain breaks off at byte `p`, where a cluster begins. -/
def Broken (p : ℕ) (e : Abort) : Prop :=
  p % v.bcs = 0 ∧ ¬ Good v (cluster v vol obj (p / v.bcs)) ∧
    e = abortOf (cluster v vol obj (p / v.bcs))

/-- The state of an open file. -/
structure Tracks (fp : Fil) : Prop where
  same : fp.obj = obj
  err : fp.err = none
  le : fp.fptr ≤ obj.objsize
  clust : 0 < fp.fptr → fp.clust = cluster v vol obj ((fp.fptr - 1) / v.bcs)
  good : ∀ k, k * v.bcs < fp.fptr → Good v (cluster v vol obj k)
  sect : fp.fptr % 512 ≠ 0 → fp.sect = fileSector v vol obj fp.fptr
  buf : fp.sect ≠ 0 → fp.buf = sectorOf vol fp.sect

end

variable {v : Volume} {vol : ℕ → UInt8} {obj : Obj} {fp : Fil}

/-! ## Positions -/

/-- A position in the same cluster. -/
theorem div_mod_add {b p i : ℕ} (h : p % b + i < b) :
    (p + i) / b = p / b ∧ (p + i) % b = p % b + i := by
  refine (Nat.div_mod_unique (by omega)).mpr ⟨?_, h⟩
  have hp := Nat.mod_add_div p b
  omega

theorem div_pred {b p : ℕ} (hb : 0 < b) (h : p % b ≠ 0) : (p - 1) / b = p / b := by
  have hp := Nat.mod_add_div p b
  have hlt := Nat.mod_lt p hb
  refine Nat.div_eq_of_lt_le ?_ ?_
  · rw [Nat.mul_comm]
    omega
  · rw [Nat.succ_mul, Nat.mul_comm]
    omega

theorem mod_bcs_mod (v : Volume) (p : ℕ) : p % v.bcs % 512 = p % 512 :=
  Nat.mod_mul_right_mod p 512 _

theorem Shape.csize_pos (h : Shape v) : 0 < v.csize := by
  obtain ⟨k, -, hk⟩ := h.csize
  rw [hk]
  exact Nat.pow_pos (by decide)

theorem Shape.bcs_pos (h : Shape v) : 0 < v.bcs := Nat.mul_pos (by decide) h.csize_pos

/-- `csect` counts the sectors of a cluster. -/
theorem Shape.csect_eq (h : Shape v) (fp : Fil) : fp.csect v = fp.fptr % v.bcs / 512 := by
  obtain ⟨k, -, hk⟩ := h.csize
  rw [Fil.csect, hk, Nat.and_two_pow_sub_one_eq_mod, Volume.bcs, hk, Nat.mod_mul_right_div_self]

theorem Shape.csect_lt (h : Shape v) (fp : Fil) : fp.csect v < v.csize := by
  have hlt := Nat.mod_lt fp.fptr h.bcs_pos
  rw [h.csect_eq, Nat.div_lt_iff_lt_mul (by decide), Nat.mul_comm]
  exact hlt

/-- Bytes of one cluster are one behind the other on the drive. -/
theorem slice_fileByte {p n : ℕ} (h : p % v.bcs + n ≤ v.bcs) :
    Store.slice (fileByte v vol obj) p n =
      Store.slice vol (512 * clusterSector v vol obj p + p % v.bcs) n := by
  refine List.map_congr_left fun i hi ↦ ?_
  rw [List.mem_range] at hi
  obtain ⟨hdiv, hmod⟩ := div_mod_add (b := v.bcs) (p := p) (i := i) (by omega)
  rw [fileByte, clusterSector, clusterSector, hdiv, hmod, Nat.add_assoc]

theorem good_le (haddr : Addressable v) {clst o : ℕ} (hgood : Good v clst) (ho : o < v.csize) :
    v.database + v.csize * (clst - 2) + o < 2 ^ 64 := by
  have hmul : v.csize * (clst - 2 + 1) ≤ v.csize * (v.nFatent - 2) :=
    Nat.mul_le_mul_left _ (by rcases hgood with ⟨h, h'⟩; omega)
  have hdata := haddr.data
  rw [Nat.mul_add, Nat.mul_one] at hmul
  omega

/-- **`clst2sect` of the clusters of the volume.** -/
theorem clst2sect_of_good (haddr : Addressable v) (hshape : Shape v) {clst : ℕ}
    (hgood : Good v clst) : clst2sect v clst = v.database + v.csize * (clst - 2) := by
  rw [clst2sect, if_neg (by rcases hgood with ⟨h, h'⟩; omega), Nat.mod_eq_of_lt]
  exact good_le haddr hgood hshape.csize_pos

theorem clst2sect_of_not_good {clst : ℕ} (h : ¬ Good v clst) : clst2sect v clst = 0 :=
  if_pos (by rw [Good] at h; omega)

/-! ## A round -/

section
variable {σ : Type} {read : Piece → σ → Option Block × σ} {I : σ → Prop} {x : Access σ}

/-- `get_fat`, through the window. -/
theorem getFat_run (haddr : Addressable v) (hserves : Serves v vol read I) (hx : Sound vol I x)
    (obj : Obj) (clst : ℕ) :
    Scan.Coherent (table vol) ((getFat v obj clst).run (fun s ↦ read (.fat s)) x).2.1 ∧
      (I ((getFat v obj clst).run (fun s ↦ read (.fat s)) x).2.2 ∧
          ((getFat v obj clst).run (fun s ↦ read (.fat s)) x).1 = entry v vol obj clst ∨
        ((getFat v obj clst).run (fun s ↦ read (.fat s)) x).1 = 0xFFFFFFFF ∧
          ∃ s d, I d ∧ InFat v s ∧
            read (.fat s) d = (none, ((getFat v obj clst).run (fun s ↦ read (.fat s)) x).2.2)) := by
  have hfetch : ∀ s d b, I d → InFat v s → (read (.fat s) d).1 = some b →
      I (read (.fat s) d).2 ∧ ∀ b', table vol s = some b' → b = b' := by
    intro s d b hd hs hb
    obtain ⟨hd', hbytes⟩ := hserves (.fat s) d b (.fat hs) hd hb
    exact ⟨hd', fun b' h ↦ hbytes.trans (Option.some.inj h)⟩
  exact Scan.run_eq_eval_or_fail hfetch (getFat_failsTo v obj clst) hx.1 hx.2
    (getFat_along (fun s ↦ read (.fat s)) v obj clst x) (getFat_eval haddr.fat vol obj clst)

theorem followChain_spec (haddr : Addressable v) (hserves : Serves v vol read I)
    (hx : Sound vol I x) (hpos : 0 < v.bcs) (ht : Tracks v vol obj fp)
    (hstart : fp.fptr % v.bcs = 0) :
    Sound vol I (followChain read v fp x).2 ∧
        (followChain read v fp x).1 = cluster v vol obj (fp.fptr / v.bcs) ∨
      (followChain read v fp x).1 = 0xFFFFFFFF ∧
        Refused v vol obj read I fp.fptr (followChain read v fp x).2.2 := by
  rw [followChain]
  split
  · next hzero =>
    refine .inl ⟨hx, ?_⟩
    rw [hzero, Nat.zero_div, ht.same]
    rfl
  · next hne =>
    obtain ⟨k, hk⟩ : ∃ k, fp.fptr = v.bcs * (k + 1) := by
      have hdiv := Nat.mod_add_div fp.fptr v.bcs
      rw [hstart, Nat.zero_add] at hdiv
      cases hq : fp.fptr / v.bcs with
      | zero =>
        rw [hq, Nat.mul_zero] at hdiv
        omega
      | succ k => exact ⟨k, by rw [← hq, hdiv]⟩
    have hprev : (fp.fptr - 1) / v.bcs = k := by
      rw [hk, Nat.mul_succ]
      refine Nat.div_eq_of_lt_le ?_ ?_
      · rw [Nat.mul_comm]
        omega
      · rw [Nat.succ_mul, Nat.mul_comm]
        omega
    have hnow : fp.fptr / v.bcs = k + 1 := by rw [hk, Nat.mul_div_cancel_left _ hpos]
    have hrun := getFat_run haddr hserves hx fp.obj fp.clust
    rw [ht.clust (Nat.pos_of_ne_zero hne), hprev, ht.same] at hrun
    rw [ht.clust (Nat.pos_of_ne_zero hne), hprev, ht.same, hnow]
    obtain ⟨hc, ⟨hI, hres⟩ | ⟨hres, s, d, hd, hs, hread⟩⟩ := hrun
    · exact .inl ⟨⟨hI, hc⟩, hres⟩
    · exact .inr ⟨hres, _, d, .fat hstart hne hs, .fat hs, hd, hread⟩

/-- A chain that breaks off at byte `p`, or a drive that has just failed, and so come to the state
`d'`. -/
def Faulty (v : Volume) (vol : ℕ → UInt8) (obj : Obj) (read : Piece → σ → Option Block × σ)
    (I : σ → Prop) (d' : σ) (p : ℕ) (e : Abort) : Prop :=
  I d' ∧ Broken v vol obj p e ∨ e = .diskErr ∧ Refused v vol obj read I p d'

/-- What entering a cluster may come to: `clust` is the cluster, or there is a reason why not. -/
def Enters (v : Volume) (vol : ℕ → UInt8) (obj : Obj) (read : Piece → σ → Option Block × σ)
    (I : σ → Prop) (fp : Fil) (r : Option Abort × Fil × Access σ) : Prop :=
  match r.1 with
  | none => Sound vol I r.2.2 ∧ r.2.1 = { fp with clust := cluster v vol obj (fp.fptr / v.bcs) } ∧
      (fp.fptr % v.bcs ≠ 0 ∨ 2 ≤ cluster v vol obj (fp.fptr / v.bcs) ∧
        cluster v vol obj (fp.fptr / v.bcs) ≠ 0xFFFFFFFF)
  | some e => r.2.1 = fp ∧ Faulty v vol obj read I r.2.2.2 fp.fptr e

/-- At the beginning of a sector, `clust` is the cluster of it, or there is none. -/
theorem enterCluster_spec (haddr : Addressable v) (hshape : Shape v) (hserves : Serves v vol read I)
    (hx : Sound vol I x) (ht : Tracks v vol obj fp) (hsector : fp.fptr % 512 = 0) :
    Enters v vol obj read I fp (enterCluster read v fp x) := by
  have hcsect := hshape.csect_eq fp
  have hrest := mod_bcs_mod v fp.fptr
  rw [enterCluster]
  split
  · next hzero =>
    have hstart : fp.fptr % v.bcs = 0 := by omega
    have hclst := followChain_spec haddr hserves hx hshape.bcs_pos ht hstart
    rcases hf : followChain read v fp x with ⟨clst, x'⟩
    rw [hf] at hclst
    dsimp only at hclst ⊢
    have hmax := hshape.nFatent_le
    split
    · next hlow =>
      obtain ⟨hx', rfl⟩ := hclst.resolve_right fun h ↦ by omega
      have hnot : ¬ Good v (cluster v vol obj (fp.fptr / v.bcs)) := fun h ↦ absurd h.1 (by omega)
      exact ⟨rfl, .inl ⟨hx'.1, hstart, hnot, (if_neg (by omega)).symm⟩⟩
    · split
      · next hlast =>
        refine ⟨rfl, ?_⟩
        rcases hclst with ⟨hx', rfl⟩ | ⟨-, hrefused⟩
        · have hnot : ¬ Good v (cluster v vol obj (fp.fptr / v.bcs)) :=
            fun h ↦ absurd h.2 (by omega)
          exact .inl ⟨hx'.1, hstart, hnot, (if_pos hlast).symm⟩
        · exact .inr ⟨rfl, hrefused⟩
      · next hlow hlast =>
        obtain ⟨hx', rfl⟩ := hclst.resolve_right fun h ↦ hlast h.1
        exact ⟨hx', rfl, .inr ⟨by omega, hlast⟩⟩
  · next hne =>
    refine ⟨hx, ?_, .inl (by omega)⟩
    have hinside : fp.fptr % v.bcs ≠ 0 := by omega
    have hclust := ht.clust (Nat.pos_of_ne_zero fun h ↦ hinside (by rw [h, Nat.zero_mod]))
    rw [div_pred hshape.bcs_pos hinside] at hclust
    rw [← hclust]

/-- What a round leaves alone. -/
structure Kept (fp fp' : Fil) : Prop where
  id : fp'.id = fp.id
  readable : fp'.readable = fp.readable
  obj : fp'.obj = fp.obj
  fptr : fp'.fptr = fp.fptr
  err : fp'.err = fp.err

/-- What a round may come to: bytes of the file, or an error for which there is a reason. -/
def Comes (v : Volume) (vol : ℕ → UInt8) (obj : Obj) (read : Piece → σ → Option Block × σ)
    (I : σ → Prop) (btr : ℕ) (fp : Fil) (r : Except Abort (List UInt8) × Fil × Access σ) : Prop :=
  Kept fp r.2.1 ∧
    match r.1 with
    | .ok bytes => 0 < bytes.length ∧ bytes.length ≤ btr ∧
        bytes = Store.slice (fileByte v vol obj) fp.fptr bytes.length ∧
        Tracks v vol obj { r.2.1 with fptr := fp.fptr + bytes.length } ∧ Sound vol I r.2.2
    | .error e => Faulty v vol obj read I r.2.2.2 fp.fptr e

/-- **The file pointer moves on** within a cluster. -/
theorem Tracks.advance (ht : Tracks v vol obj fp) (hshape : Shape v) (fp' : Fil) {n : ℕ}
    (hkept : Kept fp fp') (hpos : 0 < n) (hin : fp.fptr % v.bcs + n ≤ v.bcs)
    (hle : fp.fptr + n ≤ obj.objsize) (hclust : fp'.clust = cluster v vol obj (fp.fptr / v.bcs))
    (hgood : Good v (cluster v vol obj (fp.fptr / v.bcs)))
    (hsect : (fp.fptr + n) % 512 ≠ 0 → fp.fptr % 512 + n < 512 ∧
      fp'.sect = fileSector v vol obj fp.fptr)
    (hbuf : fp'.sect ≠ 0 → fp'.buf = sectorOf vol fp'.sect) :
    Tracks v vol obj { fp' with fptr := fp.fptr + n } := by
  have hdm := Nat.mod_add_div fp.fptr v.bcs
  refine ⟨hkept.obj.trans ht.same, hkept.err.trans ht.err, hle, fun _ ↦ ?_, fun k hk ↦ ?_,
    fun hmod ↦ ?_, hbuf⟩
  · have hlast := (div_mod_add (b := v.bcs) (p := fp.fptr) (i := n - 1) (by omega)).1
    dsimp only
    rw [show fp.fptr + n - 1 = fp.fptr + (n - 1) by omega, hlast, hclust]
  · dsimp only at hk
    rcases Nat.lt_or_ge (k * v.bcs) fp.fptr with hold | hnew
    · exact ht.good k hold
    · have hk' : k = fp.fptr / v.bcs := by
        refine Nat.le_antisymm ?_ ((Nat.div_le_iff_le_mul_add_pred hshape.bcs_pos).mpr ?_)
        · refine Nat.le_of_lt_succ (Nat.lt_of_mul_lt_mul_right (a := v.bcs) ?_)
          rw [Nat.succ_mul, Nat.mul_comm (fp.fptr / v.bcs)]
          omega
        · rw [Nat.mul_comm]
          omega
      rw [hk']
      exact hgood
  · obtain ⟨hsame, hsect⟩ := hsect hmod
    have hrest := mod_bcs_mod v fp.fptr
    have hwhole : v.bcs % 512 = 0 := Nat.mul_mod_right 512 _
    obtain ⟨hdiv, hmod'⟩ := div_mod_add (b := v.bcs) (p := fp.fptr) (i := n) (by omega)
    dsimp only
    rw [hsect, fileSector, fileSector, clusterSector, clusterSector, hdiv, hmod']
    omega

/-- A round that begins in the middle of a sector. -/
theorem buffered_spec (ht : Tracks v vol obj fp) (hshape : Shape v) (haddr : Addressable v)
    (hx : Sound vol I x) {btr : ℕ} (hbtr : 0 < btr) (hle : btr ≤ obj.objsize - fp.fptr)
    (hmid : fp.fptr % 512 ≠ 0) :
    Comes v vol obj read I btr fp
      (.ok (cut fp.buf (fp.fptr % 512) (min (512 - fp.fptr % 512) btr)), fp, x) := by
  have hrest := mod_bcs_mod v fp.fptr
  have hwhole : v.bcs % 512 = 0 := Nat.mul_mod_right 512 _
  have hlt := Nat.mod_lt fp.fptr hshape.bcs_pos
  have hinside : fp.fptr % v.bcs ≠ 0 := by omega
  have hp : 0 < fp.fptr := Nat.pos_of_ne_zero fun h ↦ hmid (by rw [h])
  have hclust := ht.clust hp
  rw [div_pred hshape.bcs_pos hinside] at hclust
  have hgood : Good v (cluster v vol obj (fp.fptr / v.bcs)) := by
    refine ht.good _ ?_
    have h := Nat.mod_add_div fp.fptr v.bcs
    rw [Nat.mul_comm]
    omega
  have hsect := ht.sect hmid
  have hdata := haddr.pos
  have hbuf := ht.buf (by rw [hsect, fileSector, clusterSector]; omega)
  set n := min (512 - fp.fptr % 512) btr with hn
  have hin : fp.fptr % v.bcs + n ≤ v.bcs := by omega
  have hplace : 512 * fp.sect + fp.fptr % 512 =
      512 * clusterSector v vol obj fp.fptr + fp.fptr % v.bcs := by
    rw [hsect, fileSector]
    omega
  refine ⟨⟨rfl, rfl, rfl, rfl, rfl⟩, ?_⟩
  dsimp only
  rw [length_cut]
  refine ⟨by omega, by omega, ?_, ?_, hx⟩
  · rw [slice_fileByte hin, hbuf, sectorOf, cut_slice vol _ (by omega), hplace]
  · exact ht.advance hshape fp ⟨rfl, rfl, rfl, rfl, rfl⟩ (by omega) hin (by omega) hclust hgood
      (fun _ ↦ ⟨by omega, hsect⟩) ht.buf

/-- The number of sectors that are read at once. -/
theorem clip_spec (hshape : Shape v) (fp : Fil) {cc : ℕ} (hcc : 0 < cc) :
    0 < clip v fp cc ∧ clip v fp cc ≤ cc ∧ fp.csect v + clip v fp cc ≤ v.csize := by
  have hlt := hshape.csect_lt fp
  rw [clip]
  split <;> omega

/-- The sector a round begins at, as `f_read` computes it. -/
theorem sector_spec (hshape : Shape v) (haddr : Addressable v) (hsector : fp.fptr % 512 = 0)
    (hgood : Good v (cluster v vol obj (fp.fptr / v.bcs))) :
    clst2sect v (cluster v vol obj (fp.fptr / v.bcs)) ≠ 0 ∧
      (clst2sect v (cluster v vol obj (fp.fptr / v.bcs)) + fp.csect v) % 2 ^ 64 =
        fileSector v vol obj fp.fptr ∧
      0 < fileSector v vol obj fp.fptr ∧
      512 * fileSector v vol obj fp.fptr =
        512 * clusterSector v vol obj fp.fptr + fp.fptr % v.bcs := by
  have hrest := mod_bcs_mod v fp.fptr
  have hdata := haddr.pos
  have hfit := good_le haddr hgood (hshape.csect_lt fp)
  rw [clst2sect_of_good haddr hshape hgood, Nat.mod_eq_of_lt hfit, fileSector, clusterSector,
    hshape.csect_eq fp]
  omega

/-- Whole sectors of a good cluster may be read. -/
theorem allowed_run (hshape : Shape v) (haddr : Addressable v) {cc : ℕ}
    (hgood : Good v (cluster v vol obj (fp.fptr / v.bcs))) (hpos : 0 < cc)
    (hend : fp.csect v + cc ≤ v.csize) : Allowed v (.run (fileSector v vol obj fp.fptr) cc) := by
  have h := Allowed.run (v := v) hgood hpos hend
  rwa [Nat.mod_eq_of_lt (good_le haddr hgood (hshape.csect_lt fp)), hshape.csect_eq] at h

/-- So may one of which a part is wanted. -/
theorem allowed_part (hshape : Shape v) (haddr : Addressable v) {n : ℕ}
    (hgood : Good v (cluster v vol obj (fp.fptr / v.bcs))) (hpos : 0 < n) (hlt : n < 512) :
    Allowed v (.part (fileSector v vol obj fp.fptr) n) := by
  have h := Allowed.part (v := v) hgood hpos hlt (hshape.csect_lt fp)
  rwa [Nat.mod_eq_of_lt (good_le haddr hgood (hshape.csect_lt fp)), hshape.csect_eq] at h

/-- A round that begins at a sector of a good cluster. -/
theorem readSectors_spec (ht : Tracks v vol obj fp) (hshape : Shape v) (haddr : Addressable v)
    (hserves : Serves v vol read I) (hx : Sound vol I x) {btr : ℕ} (hbtr : 0 < btr)
    (hle : btr ≤ obj.objsize - fp.fptr) (hsector : fp.fptr % 512 = 0)
    (hgood : Good v (cluster v vol obj (fp.fptr / v.bcs))) :
    Comes v vol obj read I btr fp
      (readSectors read v btr { fp with clust := cluster v vol obj (fp.fptr / v.bcs) } x) := by
  obtain ⟨hne, hsect, hsectpos, hplace⟩ := sector_spec hshape haddr hsector hgood
  have hcsect := hshape.csect_eq fp
  have hrest := mod_bcs_mod v fp.fptr
  have hlt := hshape.csect_lt fp
  have hbcs : v.bcs = 512 * v.csize := rfl
  have hend := ht.le
  set c := cluster v vol obj (fp.fptr / v.bcs) with hc
  set s := fileSector v vol obj fp.fptr with hs
  have hkept : ∀ sect buf, Kept fp { fp with clust := c, sect := sect, buf := buf } :=
    fun sect buf ↦ ⟨rfl, rfl, rfl, rfl, rfl⟩
  have hcs : Fil.csect v { fp with clust := c } = fp.csect v := rfl
  have hclip : ∀ cc, clip v { fp with clust := c } cc = clip v fp cc := fun cc ↦ rfl
  rw [readSectors]
  dsimp only
  rw [if_neg hne, hcs, hsect, hclip]
  split
  · next hcc =>
    obtain ⟨hpos, hcle, hclend⟩ := clip_spec hshape fp hcc
    set cc := clip v fp (btr / 512) with hccdef
    have hallowed := allowed_run hshape haddr hgood hpos hclend
    have hin : fp.fptr % v.bcs + 512 * cc ≤ v.bcs := by omega
    split
    · next d hread =>
      exact ⟨hkept _ _, .inr ⟨rfl, _, x.2, .run cc, hallowed, hx.1, hread⟩⟩
    · next b d hread =>
      have hbrought := hserves _ x.2 b hallowed hx.1 (by rw [hread])
      rw [hread] at hbrought
      obtain ⟨hI, hbytes⟩ := hbrought
      change b = Store.slice vol (512 * s) (512 * cc) at hbytes
      refine ⟨hkept _ _, ?_⟩
      dsimp only
      rw [length_cut]
      refine ⟨by omega, by omega, ?_, ?_, hI, hx.2⟩
      · rw [hbytes, cut_slice vol _ (by omega), slice_fileByte hin, hplace, Nat.add_zero]
      · exact ht.advance hshape _ (hkept _ _) (by omega) hin (by omega) rfl hgood
          (fun h ↦ absurd (by omega) h) ht.buf
  · next hcc =>
    have hin : fp.fptr % v.bcs + btr ≤ v.bcs := by omega
    -- the partial sector is in `buf`, whether it has been there before or not
    have hdone : ∀ d, I d → ∀ buf, buf = sectorOf vol s → Comes v vol obj read I btr fp
        (.ok (cut buf 0 btr), { fp with clust := c, sect := s, buf := buf }, x.1, d) := by
      intro d hd buf hbuf
      refine ⟨hkept _ _, ?_⟩
      dsimp only
      rw [length_cut]
      refine ⟨hbtr, Nat.le_refl _, ?_, ?_, hd, hx.2⟩
      · rw [hbuf, sectorOf, cut_slice vol _ (by omega), slice_fileByte hin, hplace, Nat.add_zero]
      · exact ht.advance hshape { fp with clust := c, sect := s, buf := buf } (hkept _ _) hbtr hin
          (by omega) rfl hgood (fun _ ↦ ⟨by omega, rfl⟩) fun _ ↦ hbuf
    split
    · have hallowed := allowed_part hshape haddr hgood hbtr (by omega)
      split
      · next d hread =>
        exact ⟨hkept _ _, .inr ⟨rfl, _, x.2, .part btr, hallowed, hx.1, hread⟩⟩
      · next b d hread =>
        have hbrought := hserves _ x.2 b hallowed hx.1 (by rw [hread])
        rw [hread] at hbrought
        exact hdone d hbrought.1 b hbrought.2
    · next hsame =>
      have hcached : fp.sect = s := not_not.mp hsame
      have hbuf := ht.buf (by omega)
      rw [hcached] at hbuf
      have h := hdone x.2 hx.1 fp.buf hbuf
      rw [← hcached] at h
      exact h

/-- **A round**: it brings bytes of the file, or there is a reason why it does not. -/
theorem readRound_spec (ht : Tracks v vol obj fp) (hshape : Shape v) (haddr : Addressable v)
    (hserves : Serves v vol read I) (hx : Sound vol I x) {btr : ℕ} (hbtr : 0 < btr)
    (hle : btr ≤ obj.objsize - fp.fptr) :
    Comes v vol obj read I btr fp (readRound read v btr fp x) := by
  rw [readRound]
  split
  · next hsector =>
    have henter := enterCluster_spec haddr hshape hserves hx ht hsector
    rcases he : enterCluster read v fp x with ⟨_ | e, fp', x'⟩
    · rw [he] at henter
      obtain ⟨hx', rfl, hwhere⟩ := henter
      dsimp only at hx' hwhere ⊢
      by_cases hgood : Good v (cluster v vol obj (fp.fptr / v.bcs))
      · exact readSectors_spec ht hshape haddr hserves hx' hbtr hle hsector hgood
      · have hstart : fp.fptr % v.bcs = 0 := by
          by_contra hne
          refine hgood (ht.good _ ?_)
          have h := Nat.mod_add_div fp.fptr v.bcs
          rw [Nat.mul_comm]
          omega
        have hclst := hwhere.resolve_left (not_not_intro hstart)
        rw [readSectors]
        dsimp only
        rw [if_pos (clst2sect_of_not_good hgood)]
        exact ⟨⟨rfl, rfl, rfl, rfl, rfl⟩, .inl ⟨hx'.1, hstart, hgood, (if_neg hclst.2).symm⟩⟩
    · rw [he] at henter
      obtain ⟨rfl, hfault⟩ := henter
      exact ⟨⟨rfl, rfl, rfl, rfl, rfl⟩, hfault⟩
  · next hmid => exact buffered_spec ht hshape haddr hx hbtr hle hmid

/-! ## All rounds -/

/-- What a call of `f_read` comes to: the bytes that were asked for, or those up to an error for
which there is a reason. -/
structure Delivers (v : Volume) (vol : ℕ → UInt8) (obj : Obj) (read : Piece → σ → Option Block × σ)
    (I : σ → Prop) (btr : ℕ) (fp : Fil) (r : ReadResult × List UInt8 × Fil × Access σ) : Prop where
  id : r.2.2.1.id = fp.id
  readable : r.2.2.1.readable = fp.readable
  bytes : r.2.1 = Store.slice (fileByte v vol obj) fp.fptr r.2.1.length
  fptr : r.2.2.1.fptr = fp.fptr + r.2.1.length
  outcome :
    (r.1 = .ok ∧ r.2.1.length = btr ∧ Tracks v vol obj r.2.2.1 ∧ Sound vol I r.2.2.2) ∨
      ∃ e, r.1 = .abort e ∧ r.2.1.length < btr ∧ r.2.2.1.err = some e ∧
        Faulty v vol obj read I r.2.2.2.2 r.2.2.1.fptr e

theorem readLoop_spec (hshape : Shape v) (haddr : Addressable v) (hserves : Serves v vol read I)
    {n btr : ℕ} (hn : btr ≤ n) (ht : Tracks v vol obj fp) (hx : Sound vol I x)
    (hle : btr ≤ obj.objsize - fp.fptr) :
    Delivers v vol obj read I btr fp (readLoop read v n btr fp x) := by
  induction n generalizing btr fp x with
  | zero =>
    obtain rfl : btr = 0 := Nat.le_zero.mp hn
    exact ⟨rfl, rfl, rfl, rfl, .inl ⟨rfl, rfl, ht, hx⟩⟩
  | succ n ih =>
    rw [readLoop]
    split
    · next hzero => exact ⟨rfl, rfl, rfl, rfl, .inl ⟨rfl, hzero.symm, ht, hx⟩⟩
    · next hpos =>
      obtain ⟨hkept, hround⟩ :=
        readRound_spec ht hshape haddr hserves hx (Nat.pos_of_ne_zero hpos) hle
      rcases hr : readRound read v btr fp x with ⟨e | bytes, fp', x'⟩
      · rw [hr] at hkept hround
        dsimp only at hkept hround ⊢
        refine ⟨hkept.id, hkept.readable, rfl, hkept.fptr, .inr ⟨e, rfl, Nat.pos_of_ne_zero hpos,
          rfl, ?_⟩⟩
        dsimp only
        rw [hkept.fptr]
        exact hround
      · rw [hr] at hkept hround
        obtain ⟨hsome, hbtr, hbytes, ht', hx'⟩ := hround
        dsimp only at hkept hsome hbtr hbytes ht' hx' ⊢
        rw [hkept.fptr]
        have h := ih (show btr - bytes.length ≤ n by omega) ht' hx' (by dsimp only; omega)
        rcases hq : readLoop read v n (btr - bytes.length)
          { fp' with fptr := fp.fptr + bytes.length } x' with ⟨res, rest, fp'', x''⟩
        rw [hq] at h
        obtain ⟨hid, hreadable, hrest, hfptr, hout⟩ := h
        dsimp only at hid hreadable hrest hfptr hout ⊢
        refine ⟨hid.trans hkept.id, hreadable.trans hkept.readable, ?_, ?_, ?_⟩
        · rw [List.length_append, Store.slice_add, ← hbytes, ← hrest]
        · rw [List.length_append, hfptr, Nat.add_assoc]
        · dsimp only
          rw [List.length_append]
          rcases hout with ⟨hres, hlen, ht'', hx''⟩ | ⟨e, hres, hlen, herr, hfault⟩
          · exact .inl ⟨hres, by omega, ht'', hx''⟩
          · exact .inr ⟨e, hres, by omega, herr, hfault⟩

/-! ## All calls -/

/-- `f_read`, again and again. -/
def fReads (read : Piece → σ → Option Block × σ) (fs : Option Mounted) :
    List ℕ → Fil → Access σ → List (ReadResult × List UInt8) × Fil × Access σ
  | [], fp, x => ([], fp, x)
  | btr :: btrs, fp, x =>
    match fRead read fs btr fp x with
    | (res, bytes, fp, x) =>
      match fReads read fs btrs fp x with
      | (out, fp, x) => ((res, bytes) :: out, fp, x)

/-- What calls of `f_read` return for a file of `size` bytes, from byte `pos` on: the bytes that are
asked for, as far as there are any, until one fails; then this call has the bytes up to where it
failed, and all others the same error and nothing.  `Fault` says for which reason one may fail, and
where. -/
inductive Stream (contents : ℕ → UInt8) (size : ℕ) (Fault : ℕ → Abort → Prop) :
    ℕ → List ℕ → List (ReadResult × List UInt8) → Prop
  | nil (pos : ℕ) : Stream contents size Fault pos [] []
  | ok {pos btr : ℕ} {btrs : List ℕ} {out : List (ReadResult × List UInt8)}
      (rest : Stream contents size Fault (pos + min btr (size - pos)) btrs out) :
      Stream contents size Fault pos (btr :: btrs)
        ((.ok, Store.slice contents pos (min btr (size - pos))) :: out)
  | abort {pos btr n : ℕ} {btrs : List ℕ} {e : Abort} (fault : Fault (pos + n) e)
      (less : n < min btr (size - pos)) :
      Stream contents size Fault pos (btr :: btrs)
        ((.abort e, Store.slice contents pos n) :: btrs.map fun _ ↦ (.abort e, []))

/-- Without a reason to fail, no call does. -/
theorem Stream.all_ok {contents : ℕ → UInt8} {size pos : ℕ} {Fault : ℕ → Abort → Prop}
    {btrs : List ℕ} {out : List (ReadResult × List UInt8)}
    (h : Stream contents size Fault pos btrs out) (hnot : ∀ p e, p < size → ¬ Fault p e) :
    ∀ r ∈ out, r.1 = .ok := by
  induction h with
  | nil => exact fun r hr ↦ absurd hr List.not_mem_nil
  | ok rest ih =>
    intro r hr
    rcases List.mem_cons.mp hr with rfl | hr
    · rfl
    · exact ih r hr
  | abort fault less => exact absurd fault (hnot _ _ (by omega))

theorem Stream.mono {contents : ℕ → UInt8} {size pos : ℕ} {Fault Fault' : ℕ → Abort → Prop}
    {btrs : List ℕ} {out : List (ReadResult × List UInt8)}
    (h : Stream contents size Fault pos btrs out)
    (himp : ∀ p e, Fault p e → Fault' p e) : Stream contents size Fault' pos btrs out := by
  induction h with
  | nil pos => exact .nil pos
  | ok rest ih => exact .ok ih
  | abort fault less => exact .abort (himp _ _ fault) less

/-- A file that has just been opened. -/
structure Opened (m : Mounted) (fp : Fil) : Prop where
  id : fp.id = some m.id
  readable : fp.readable = true
  err : fp.err = none
  fptr : fp.fptr = 0
  sect : fp.sect = 0

/-- A file that has been aborted stays so. -/
theorem fReads_of_err {m : Mounted} {e : Abort} (hid : fp.id = some m.id) (herr : fp.err = some e)
    (btrs : List ℕ) :
    fReads read (some m) btrs fp x = (btrs.map fun _ ↦ (.abort e, []), fp, x) := by
  induction btrs with
  | nil => rfl
  | cons btr btrs ih =>
    have hcall : fRead read (some m) btr fp x = (.abort e, [], fp, x) := by
      rw [fRead, validate, if_pos hid, herr]
    rw [fReads, hcall]
    dsimp only
    rw [ih]
    rfl

theorem fRead_eq {m : Mounted} (hid : fp.id = some m.id) (hreadable : fp.readable = true)
    (herr : fp.err = none) (btr : ℕ) :
    fRead read (some m) btr fp x =
      readLoop read m.vol (min btr (fp.obj.objsize - fp.fptr))
        (min btr (fp.obj.objsize - fp.fptr)) fp x := by
  rw [fRead, validate, if_pos hid, herr, hreadable]
  rfl

/-- **Calls of `f_read` are a stream of the bytes of the file**; and if none of them has failed, the
file is in order as far as it has been read. -/
theorem fReads_spec {m : Mounted} (hshape : Shape m.vol) (haddr : Addressable m.vol)
    (hserves : Serves m.vol vol read I) (ht : Tracks m.vol vol obj fp) (hx : Sound vol I x)
    (hid : fp.id = some m.id) (hreadable : fp.readable = true) (btrs : List ℕ) :
    Stream (fileByte m.vol vol obj) obj.objsize
        (Faulty m.vol vol obj read I (fReads read (some m) btrs fp x).2.2.2) fp.fptr btrs
        (fReads read (some m) btrs fp x).1 ∧
      ((∀ r ∈ (fReads read (some m) btrs fp x).1, r.1 = .ok) →
        Tracks m.vol vol obj (fReads read (some m) btrs fp x).2.1 ∧
          (fReads read (some m) btrs fp x).2.1.fptr =
            min (fp.fptr + btrs.sum) obj.objsize) := by
  induction btrs generalizing fp x with
  | nil =>
    have hle := ht.le
    refine ⟨.nil _, fun _ ↦ ⟨ht, ?_⟩⟩
    rw [List.sum_nil]
    exact (Nat.min_eq_left hle).symm
  | cons btr btrs ih =>
    have hle := ht.le
    have h := readLoop_spec hshape haddr hserves
      (Nat.le_refl (min btr (obj.objsize - fp.fptr))) ht hx (Nat.min_le_right _ _)
    rw [fReads, fRead_eq hid hreadable ht.err, ht.same]
    rcases hr : readLoop read m.vol (min btr (obj.objsize - fp.fptr))
      (min btr (obj.objsize - fp.fptr)) fp x with ⟨res, bytes, fp', x'⟩
    rw [hr] at h
    obtain ⟨hid', hreadable', hbytes, hfptr, hout⟩ := h
    dsimp only at hid' hreadable' hbytes hfptr hout ⊢
    rcases hout with ⟨rfl, hlen, ht', hx'⟩ | ⟨e, rfl, hlen, herr, hfault⟩
    · have hrest := ih ht' hx' (hid'.trans hid) (hreadable'.trans hreadable)
      rw [hlen] at hbytes hfptr
      rw [hfptr] at hrest
      obtain ⟨hstream, hok⟩ := hrest
      refine ⟨?_, fun hall ↦ ?_⟩
      · rw [hbytes]
        exact .ok hstream
      · obtain ⟨ht'', hend⟩ := hok fun r hr ↦ hall r (List.mem_cons_of_mem _ hr)
        refine ⟨ht'', hend.trans ?_⟩
        rw [List.sum_cons]
        omega
    · rw [fReads_of_err (hid'.trans hid) herr]
      refine ⟨?_, fun hall ↦ ?_⟩
      · rw [hbytes]
        rw [hfptr] at hfault
        exact .abort hfault hlen
      · have hfirst := hall (.abort e, bytes) List.mem_cons_self
        cases hfirst

end

end Fat
end SdLoader
