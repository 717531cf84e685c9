import SdLoader.Files.Law
import SdLoader.Fat.Asks
import SdLoader.Fat.Pieces

/-!
# The laws of FatFs

* `fat_reads_inside` — reading files of FAT12, FAT16 and FAT32 never leaves the volume;
* `exfat_reads_inside` — nor does reading those of exFAT, if neither the size of the clusters nor
  the numbers of their sectors wrap round, nor the FAT is somewhere else: `exfat_outside`;
* `reads_are_a_stream` — calls of `f_read` deliver the bytes of the file, on a drive that may fail;
* `reads_ok_iff` — on one that does not, the whole file can be read if and only if its chain is in
  order;
* `whole_file_pieces` — and then it is read in the pieces of a `Payload.File`;
* `get_fat_digit` — an entry of the FAT is a digit of it;
* `mounted_accepted` — whatever happens to the drives, what is mounted has passed the checks of the
  boot sector that `Accepted` lists.

What is said of the bytes of a file is about volumes that are `Addressable`.
-/

set_option autoImplicit false

namespace SdLoader
namespace Fat

open Files (Block FError)
open Payload (Piece Windows)
open Storage (Env)
open Disk (Drive)

/-! ## Staying inside the volume -/

/-- **Reading never leaves the volume.**  Of a volume that `mount_volume` has accepted as one of
FAT12, FAT16 or FAT32, `f_read` reads no sector but those of the FAT and those behind the system
area, up to the last sector of the volume: whatever is on it, whatever the file object is, and
whatever the drive answers. -/
theorem fat_reads_inside {σ : Type} (read : Piece → σ → Option Block × σ) {m : Mounted}
    {win : Block} {bsect : ℕ} (hmount : mountFat win bsect = .ok m.vol)
    (hwrap : systemArea win < 2 ^ 32) (btrs : List ℕ) (fp : Fil) (c : Scan.Cache Block) (d : σ) :
    ∀ p ∈ (fReads (logged read) (some m) btrs fp (c, [], d)).2.2.2.1,
      Inside m.vol (ldWord win 14) (sysect win) (tsect win) p := by
  intro p hp
  have hallowed := fReads_allowed read (mountFat_accepted hmount).shape btrs fp c d p hp
  refine Layout.inside ?_ hallowed
  rw [mountFat] at hmount
  split at hmount
  · cases hmount
  · split at hmount
    · next hchecks =>
      have hvol := Except.ok.inj hmount
      rw [← hvol]
      exact layout_fat hchecks hwrap
    · cases hmount

/-- The boot sector of a volume of FAT12, with 128 sectors. -/
def sampleBoot : Block :=
  [0xEB] ++ List.replicate 11 0 ++ [2, 1, 1, 0, 1, 16, 0, 128, 0, 0, 1] ++ List.replicate 487 0 ++
    [0x55, 0xAA]

/-- The volume. -/
def sampleVolume : Volume := fatVolume sampleBoot 0 .fat12

/-- The filesystem object it is mounted on. -/
def sampleMounted : Mounted := ⟨1, sampleVolume⟩

theorem sample_accepted : mountFat sampleBoot 0 = .ok sampleVolume := by
  have htype : fatType (nclst sampleBoot) = some .fat12 := by decide
  have hchecks : FatAccepted sampleBoot .fat12 := by decide
  rw [mountFat, htype]
  exact if_pos hchecks

/-- The object of a file of 700 bytes, in the clusters 2 and 3. -/
def sampleObj : Obj := ⟨0, 2, 700, 0, 0⟩

/-- The file, as it has been opened. -/
def sampleFil : Fil := ⟨some 1, sampleObj, true, none, 0, 0, 0, []⟩

/-- A drive: the entry of cluster 2 is 3, and that of cluster 3 is the end of the chain. -/
def sampleVol (k : ℕ) : UInt8 :=
  if k = 512 + 3 then 0x03 else if k = 512 + 4 then 0xF0 else if k = 512 + 5 then 0xFF
  else UInt8.ofNat (k / 512)

/-- What reading the file asks for, in two calls. -/
def sampleLog : List Piece :=
  (fReads (logged (recorded sampleVol)) (some sampleMounted) [600, 600] sampleFil
    (none, [], [])).2.2.2.1

set_option maxRecDepth 4096 in
theorem fat_reads_inside_sample :
    sampleLog.map Piece.sector = [3, 1, 4] ∧
      ∀ p ∈ sampleLog, Inside sampleMounted.vol (ldWord sampleBoot 14) (sysect sampleBoot)
        (tsect sampleBoot) p :=
  ⟨by decide, fat_reads_inside (recorded sampleVol) (m := sampleMounted) sample_accepted
    (by decide) [600, 600] sampleFil none []⟩

/-- **Of exFAT, a mount checks less.**  Reading does not leave the volume if its FAT is in front of
its clusters, which is not checked, the size of the clusters, which is, is a number of 32 bits, and
so many sectors from the first cluster on have numbers of 64 bits. -/
theorem exfat_reads_inside {σ : Type} (read : Piece → σ → Option Block × σ) {m : Mounted}
    {win : Block} {bsect : ℕ} (hchecks : ExfatAccepted win bsect)
    (hvol : m.vol = exfatVolume win bsect)
    (hwrap : ldDword win 92 * m.vol.csize < 2 ^ 32)
    (hdata : bsect + ldDword win 88 + 2 ^ 32 ≤ 2 ^ 64)
    (hfat : ldDword win 80 + m.vol.needed ≤ ldDword win 88)
    (btrs : List ℕ) (fp : Fil) (c : Scan.Cache Block) (d : σ) :
    ∀ p ∈ (fReads (logged read) (some m) btrs fp (c, [], d)).2.2.2.1,
      Inside m.vol (ldDword win 80) (ldDword win 88) (ldQword win 72) p := by
  intro p hp
  have haccepted : Accepted m.vol := by
    rw [hvol]
    exact .exfat hchecks
  have hallowed := fReads_allowed read haccepted.shape btrs fp c d p hp
  rw [hvol] at hwrap hfat hallowed ⊢
  exact (layout_exfat hchecks hwrap hdata hfat).inside hallowed

/-- The boot sector of a volume of exFAT, of `total` sectors, with clusters of `2 ^ shift`
sectors. -/
def sampleExfat (total shift clusters : ℕ) : Block :=
  exfatSign ++ List.replicate 53 0 ++ Bytes.le 8 0 ++ Bytes.le 8 total ++ Bytes.le 4 1 ++
    Bytes.le 4 1 ++ Bytes.le 4 2 ++ Bytes.le 4 clusters ++ Bytes.le 4 2 ++ Bytes.le 4 0 ++
    [0, 1, 0, 0, 9, UInt8.ofNat shift, 1] ++ List.replicate 399 0 ++ [0x55, 0xAA]

theorem exfat_reads_inside_sample :
    2 ^ 10 = ldQword (sampleExfat 1024 2 16) 72 ∧
      ∀ p ∈ (fReads (logged (recorded sampleVol)) (some ⟨1, exfatVolume (sampleExfat 1024 2 16) 0⟩)
        [600, 600] sampleFil (none, [], [])).2.2.2.1,
        Inside (exfatVolume (sampleExfat 1024 2 16) 0) (ldDword (sampleExfat 1024 2 16) 80)
          (ldDword (sampleExfat 1024 2 16) 88) (ldQword (sampleExfat 1024 2 16) 72) p :=
  ⟨by decide, exfat_reads_inside (recorded sampleVol)
    (m := ⟨1, exfatVolume (sampleExfat 1024 2 16) 0⟩) (by decide) rfl (by decide)
    (by decide) (by decide) [600, 600] sampleFil none []⟩

set_option maxRecDepth 1024 in
/-- **Clusters outside of the volume**: a volume of 1024 sectors that is accepted with 2 ^ 32
sectors of clusters. -/
theorem exfat_outside :
    checkFs 0 (some (sampleExfat 1024 15 0x20000)) = .exfat 0 (sampleExfat 1024 15 0x20000) ∧
      ExfatAccepted (sampleExfat 1024 15 0x20000) 0 ∧
      Good (exfatVolume (sampleExfat 1024 15 0x20000) 0) 3 ∧
      1024 < clst2sect (exfatVolume (sampleExfat 1024 15 0x20000) 0) 3 := by
  refine ⟨?_, by decide, by decide, by decide⟩
  rw [checkFs]
  exact if_pos (by decide)

/-! ## Reading a file -/

section
variable {σ : Type} {read : Piece → σ → Option Block × σ} {I : σ → Prop} {vol : ℕ → UInt8}
  {m : Mounted} {fp : Fil} {x : Access σ}

theorem Opened.tracks (h : Opened m fp) (vol : ℕ → UInt8) : Tracks m.vol vol fp.obj fp := by
  have hzero := h.fptr
  refine ⟨rfl, h.err, by omega, fun hpos ↦ by omega, fun k hk ↦ ?_, fun hmid ↦ ?_,
    fun hsect ↦ absurd h.sect hsect⟩
  · rw [hzero] at hk
    exact absurd hk (Nat.not_lt_zero _)
  · rw [hzero] at hmid
    exact absurd rfl hmid

/-- **Calls of `f_read` deliver the bytes of the file, in order**, however many each of them asks
for, and at whichever point the drive fails.  A call that fails has delivered all bytes up to where
it failed.  This is where the chain of the file breaks off, and the drive has brought all it was
asked for; or it is where the drive has refused what it was asked for last. -/
theorem reads_are_a_stream {c : Scan.Cache Block} {d : σ} (haccepted : Accepted m.vol)
    (haddr : Addressable m.vol) (hserves : Serves m.vol vol read I) (hd : I d)
    (hc : Scan.Coherent (table vol) c) (hopen : Opened m fp) (btrs : List ℕ) :
    Stream (fileByte m.vol vol fp.obj) fp.obj.objsize
      (Fault m.vol vol fp.obj (fReads (noted read) (some m) btrs fp (c, [], d)).2.2.2.1) 0 btrs
      (fReads (noted read) (some m) btrs fp (c, [], d)).1 := by
  have hsound : Sound vol (AllBrought I) (c, [], d) := ⟨⟨brought_nil, hd⟩, hc⟩
  have h := (fReads_spec haccepted.shape haddr hserves.noted (hopen.tracks vol) hsound hopen.id
    hopen.readable btrs).1
  rw [hopen.fptr] at h
  exact h.mono fun p e ↦ Faulty.fault

theorem sampleOpened : Opened sampleMounted sampleFil := ⟨rfl, rfl, rfl, rfl, rfl⟩

theorem sample_addressable : Addressable sampleMounted.vol :=
  ⟨by decide, by decide, by decide⟩

/-- A drive that refuses the sector `bad`. -/
def failing (vol : ℕ → UInt8) (bad : ℕ) (p : Piece) (_ : Unit) : Option Block × Unit :=
  if p.sector = bad then (none, ())
  else (some (Store.slice vol (512 * p.sector) (512 * p.count)), ())

theorem failing_serves (v : Volume) (vol : ℕ → UInt8) (bad : ℕ) :
    Serves v vol (failing vol bad) fun _ ↦ True := by
  intro p d b _ _ h
  rw [failing] at h
  split at h
  · cases h
  · exact ⟨trivial, (Option.some.inj h).symm⟩

set_option maxRecDepth 4096 in
theorem reads_are_a_stream_sample :
    (fReads (noted (failing sampleVol 4)) (some sampleMounted) [600, 600] sampleFil
        (none, [], ())).1.map (fun r ↦ (r.1, r.2.length)) =
      [(.abort .diskErr, 512), (.abort .diskErr, 0)] ∧
    Stream (fileByte sampleMounted.vol sampleVol sampleFil.obj) sampleFil.obj.objsize
      (Fault sampleMounted.vol sampleVol sampleFil.obj
        (fReads (noted (failing sampleVol 4)) (some sampleMounted) [600, 600] sampleFil
          (none, [], ())).2.2.2.1) 0 [600, 600]
      (fReads (noted (failing sampleVol 4)) (some sampleMounted) [600, 600] sampleFil
        (none, [], ())).1 :=
  ⟨by decide, reads_are_a_stream (m := sampleMounted) (mountFat_accepted sample_accepted)
    sample_addressable (failing_serves _ sampleVol 4) trivial Scan.coherent_none sampleOpened
    [600, 600]⟩

/-- **Which files can be read**: of a volume that is `Addressable`, on a drive that does not fail,
calls of `f_read` that ask for the whole file all succeed if and only if its chain is in order. -/
theorem reads_ok_iff (haccepted : Accepted m.vol) (haddr : Addressable m.vol)
    (hserves : Serves m.vol vol read I) (hnever : ¬ Refuses m.vol read I) (hx : Sound vol I x)
    (hopen : Opened m fp) {btrs : List ℕ} (hall : fp.obj.objsize ≤ btrs.sum) :
    (∀ r ∈ (fReads read (some m) btrs fp x).1, r.1 = .ok) ↔ InOrder m.vol vol fp.obj := by
  have hshape := haccepted.shape
  obtain ⟨hstream, hend⟩ :=
    fReads_spec hshape haddr hserves (hopen.tracks vol) hx hopen.id hopen.readable btrs
  refine ⟨fun hok ↦ ?_, fun horder ↦ ?_⟩
  · obtain ⟨ht, hptr⟩ := hend hok
    intro k hk
    refine ht.good k ?_
    rw [hptr]
    omega
  · exact hstream.all_ok fun p e hp ↦ horder.not_faulty hnever hp

theorem sample_refuses : ¬ Refuses sampleMounted.vol (recorded sampleVol) fun _ ↦ True :=
  not_recorded_refuses _ _

theorem reads_ok_iff_sample :
    (∀ r ∈ (fReads (recorded sampleVol) (some sampleMounted) [600, 600] sampleFil
        (none, [])).1, r.1 = .ok) ↔ InOrder sampleMounted.vol sampleVol sampleObj :=
  reads_ok_iff (m := sampleMounted) (mountFat_accepted sample_accepted) sample_addressable
    (recorded_serves _ _) sample_refuses ⟨trivial, Scan.coherent_none⟩ sampleOpened (by decide)

/-- **A whole file in pieces**: of a volume that is `Addressable`, on a drive that does not fail,
one call that asks for all of a file whose chain is in order asks the drive for the pieces of a file
as the payload is one, and the bytes it delivers are the contents of this file. -/
theorem whole_file_pieces {c : Scan.Cache Block} (haccepted : Accepted m.vol)
    (haddr : Addressable m.vol) (hc : Scan.Coherent (table vol) c) (hopen : Opened m fp) {btr : ℕ}
    (hall : fp.obj.objsize ≤ btr) (horder : InOrder m.vol vol fp.obj) :
    (fRead (recorded vol) (some m) btr fp (c, [])).1 = .ok ∧
      ∃ file : Payload.File,
        file.pieces = (fRead (recorded vol) (some m) btr fp (c, [])).2.2.2.2 ∧
        file.size = fp.obj.objsize ∧
        file.contents vol = (fRead (recorded vol) (some m) btr fp (c, [])).2.1 ∧
        file.contents vol = Store.slice (fileByte m.vol vol fp.obj) 0 fp.obj.objsize := by
  have hshape := haccepted.shape
  have hbtr : min btr (fp.obj.objsize - fp.fptr) = fp.obj.objsize := by
    rw [hopen.fptr]
    omega
  have hle : fp.obj.objsize ≤ fp.obj.objsize - fp.fptr := by
    rw [hopen.fptr]
    exact Nat.le_refl _
  have hstart : fp.fptr % 512 = 0 := by rw [hopen.fptr]
  rw [fRead_eq hopen.id hopen.readable hopen.err, hbtr]
  have hloop := readLoop_spec (x := (c, [])) hshape haddr (recorded_serves m.vol vol)
    (Nat.le_refl fp.obj.objsize) (hopen.tracks vol) ⟨trivial, hc⟩ hle
  obtain ⟨ps, hlog, hordered, hbytes⟩ := readLoop_pieces hshape haddr horder
    (Nat.le_refl fp.obj.objsize) (hopen.tracks vol) hc hstart hopen.sect hle []
  rcases hloop.outcome with ⟨hok, hlen, -⟩ | ⟨e, -, hlt, -, hfault⟩
  · refine ⟨hok, ⟨ps, hordered⟩, hlog.symm, ?_, hbytes.symm, ?_⟩
    · rw [Payload.File.size, ← Payload.length_bytesOf vol, ← hbytes, hlen]
    · rw [Payload.File.contents, ← hbytes, hloop.bytes, hlen, hopen.fptr]
  · refine absurd hfault (horder.not_faulty (not_recorded_refuses m.vol vol) ?_)
    rw [hloop.fptr, hopen.fptr]
    omega

set_option maxRecDepth 4096 in
theorem sample_inOrder : InOrder sampleMounted.vol sampleVol sampleObj := by
  intro k hk
  have hbcs : sampleMounted.vol.bcs = 512 := by decide
  have hsize : sampleObj.objsize = 700 := rfl
  rw [hbcs, hsize] at hk
  obtain rfl | rfl : k = 0 ∨ k = 1 := by omega
  · decide
  · decide

/-- Reading the file, in one call. -/
def sampleRead : ReadResult × List UInt8 × Fil × Access (List Piece) :=
  fRead (recorded sampleVol) (some sampleMounted) 1000 sampleFil (none, [])

theorem whole_file_pieces_sample :
    sampleRead.1 = .ok ∧
      ∃ file : Payload.File,
        file.pieces = sampleRead.2.2.2.2 ∧
        file.size = sampleFil.obj.objsize ∧
        file.contents sampleVol = sampleRead.2.1 ∧
        file.contents sampleVol =
          Store.slice (fileByte sampleMounted.vol sampleVol sampleFil.obj) 0
            sampleFil.obj.objsize := by
  have hsize : sampleFil.obj.objsize ≤ 1000 := by decide
  rw [sampleRead]
  exact whole_file_pieces (mountFat_accepted sample_accepted) sample_addressable
    Scan.coherent_none sampleOpened hsize sample_inOrder

/-! ## The FAT -/

/-- **An entry of the FAT is a digit of it**, of 12, 16 or 32 bits, wherever it lies: this is what
`get_fat` returns for a cluster of an `Addressable` volume that it looks up in the FAT, from the
window or the drive; or it says that the drive has failed, which has then refused the sector of the
FAT it was asked for last, and nothing before it.  The window stays what it should be. -/
theorem get_fat_digit {c : Scan.Cache Block} {d : σ} (haddr : Addressable m.vol)
    (hserves : Serves m.vol vol read I) (hd : I d) (hc : Scan.Coherent (table vol) c) {obj : Obj}
    {clst : ℕ} (hclst : Good m.vol clst) (hfat : generated m.vol obj clst = none) :
    Scan.Coherent (table vol)
        ((getFat m.vol obj clst).run (fun s ↦ noted read (.fat s)) (c, [], d)).2.1 ∧
      (((getFat m.vol obj clst).run (fun s ↦ noted read (.fat s)) (c, [], d)).1 =
            Packing.digit (2 ^ m.vol.fsType.bits) clst (fatNumber m.vol vol) %
              2 ^ m.vol.fsType.usedBits ∧
          AllBrought I ((getFat m.vol obj clst).run (fun s ↦ noted read (.fat s)) (c, [], d)).2.2 ∨
        ((getFat m.vol obj clst).run (fun s ↦ noted read (.fat s)) (c, [], d)).1 = 0xFFFFFFFF ∧
          ∃ s, InFat m.vol s ∧
            RefusedLast ((getFat m.vol obj clst).run (fun s ↦ noted read (.fat s)) (c, [], d)).2.2.1
              (.fat s)) := by
  have hentry : entry m.vol vol obj clst = fatValue m.vol vol clst := by
    rw [entry, if_neg (by rcases hclst with ⟨h, h'⟩; omega), hfat]
    rfl
  have hsound : Sound vol (AllBrought I) (c, [], d) := ⟨⟨brought_nil, hd⟩, hc⟩
  obtain ⟨hc', ⟨hd', hres⟩ | ⟨hres, s, d', hd', hs, hread⟩⟩ :=
    getFat_run haddr hserves.noted hsound obj clst
  · refine ⟨hc', .inl ⟨?_, hd'⟩⟩
    rw [hres, hentry, fatValue]
  · exact ⟨hc', .inr ⟨hres, s, hs, refusedLast_of_noted hd' hread⟩⟩

/-- `get_fat` of cluster 2, on a drive that refuses the sector `bad`. -/
def sampleEntry (bad : ℕ) : ℕ × Access (Record × Unit) :=
  (getFat sampleMounted.vol sampleObj 2).run (fun s ↦ noted (failing sampleVol bad) (.fat s))
    (none, [], ())

set_option maxRecDepth 4096 in
theorem get_fat_digit_sample :
    (sampleEntry 4).1 = 3 ∧
      Scan.Coherent (table sampleVol) (sampleEntry 4).2.1 ∧
      ((sampleEntry 4).1 =
            Packing.digit (2 ^ sampleMounted.vol.fsType.bits) 2
              (fatNumber sampleMounted.vol sampleVol) % 2 ^ sampleMounted.vol.fsType.usedBits ∧
          AllBrought (fun _ ↦ True) (sampleEntry 4).2.2 ∨
        (sampleEntry 4).1 = 0xFFFFFFFF ∧
          ∃ s, InFat sampleMounted.vol s ∧ RefusedLast (sampleEntry 4).2.2.1 (.fat s)) := by
  have hgood : Good sampleMounted.vol 2 := by decide
  have hfat : generated sampleMounted.vol sampleObj 2 = none := rfl
  exact ⟨by decide, get_fat_digit sample_addressable (failing_serves _ sampleVol 4) trivial
    Scan.coherent_none hgood hfat⟩

end

/-! ## What is mounted -/

section
variable {Path Fil : Type} (env : Env) (w : Windows)
  (followPath : Path → Volume → Scan Block (Except FError Fil))
  {x : Files.State Volume}

/-- What is mounted, if anything is, has passed the checks of `Accepted`. -/
def MountedAccepted (x : Files.State Volume) : Prop := ∀ v, x.fs.found = some v → Accepted v

theorem mountedAccepted_none (h : x.fs.found = none) : MountedAccepted x := by
  intro v hv
  rw [h] at hv
  cases hv

theorem fUnmount_accepted (h : MountedAccepted x) (vol : Drive) :
    MountedAccepted (Files.fUnmount vol x) := by
  rw [Files.fUnmount]
  split
  · exact mountedAccepted_none rfl
  · exact h

theorem mountVolume_mounted (h : MountedAccepted x) (vol : Drive) :
    MountedAccepted (Files.mountVolume env w (fatFs followPath) vol x).2 := by
  rw [Files.mountVolume]
  split
  · exact h
  · split
    · exact h
    · split
      · exact h
      · next d hd =>
        have hends : (Scan.look true 0 (fatFs followPath).findVolume).Ends
            fun r ↦ ∀ v, r = .ok v → Accepted v := fun b ↦ mountVolume_accepted b
        rw [Files.onVolume_eq]
        dsimp only
        rcases hr : Scan.run (Files.readWindow env w x.fs.pdrv)
          (Scan.look true 0 (fatFs followPath).findVolume) (x.fs.win, d) with ⟨e | v, win, d'⟩
        · exact h
        · intro v' hv'
          have hrun := hends.run (Files.readWindow env w x.fs.pdrv) (x.fs.win, d)
          rw [hr] at hrun
          cases hv'
          exact hrun v rfl

theorem unmountDrive_mounted (h : MountedAccepted x) : MountedAccepted (Files.unmountDrive x) := by
  rw [Files.unmountDrive]
  split
  · exact fUnmount_accepted h _
  · exact h

theorem mountDrive_mounted (h : MountedAccepted x) (drive : Drive) :
    MountedAccepted (Files.mountDrive env w (fatFs followPath) drive x).2 := by
  rw [Files.mountDrive]
  split
  · have hmount : MountedAccepted (Files.fMount env w (fatFs followPath) drive
        { Files.unmountDrive x with curDrive := none }).2 :=
      mountVolume_mounted env w followPath (mountedAccepted_none rfl) drive
    rcases hr : Files.fMount env w (fatFs followPath) drive
      { Files.unmountDrive x with curDrive := none } with ⟨e | v, y⟩ <;> rw [hr] at hmount <;>
      exact hmount
  · exact h

theorem fOpen_mounted (h : MountedAccepted x) (path : Path) :
    MountedAccepted (Files.fOpen env w (fatFs followPath) path x).2 := by
  have hmount := mountVolume_mounted env w followPath h x.currVol
  rw [Files.fOpen]
  rcases hr : Files.mountVolume env w (fatFs followPath) x.currVol x with ⟨e | v, y⟩ <;>
    rw [hr] at hmount <;> exact hmount

theorem openOn_mounted (h : MountedAccepted x) (path : Path) (drive : Drive) :
    MountedAccepted (Files.openOn env w (fatFs followPath) path drive x).2 := by
  have hmount := mountDrive_mounted env w followPath h drive
  rw [Files.openOn]
  rcases hr : Files.mountDrive env w (fatFs followPath) drive x with ⟨e | u, y⟩ <;>
    rw [hr] at hmount
  · exact hmount
  · exact fOpen_mounted env w followPath (x := { y with currVol := drive }) hmount path

theorem openFileOnAnyLoop_mounted (path : Path) (rest : List Drive) (h : MountedAccepted x) :
    MountedAccepted (Files.openFileOnAnyLoop env w (fatFs followPath) path rest x).2.2 := by
  induction rest generalizing x with
  | nil => exact h
  | cons drive rest ih =>
    have hmount := mountDrive_mounted env w followPath h drive
    rw [Files.openFileOnAnyLoop]
    rcases hr : Files.mountDrive env w (fatFs followPath) drive x with ⟨e | u, y⟩ <;>
      rw [hr] at hmount
    · exact ih hmount
    · have hopen := openOn_mounted env w followPath hmount path drive
      dsimp only
      split
      · next hq =>
        rw [hq] at hopen
        exact ih hopen
      · next hq =>
        rw [hq] at hopen
        exact hopen

/-- A step keeps it. -/
theorem step_mounted (h : MountedAccepted x) (i : Env × Files.Step Path) :
    MountedAccepted (Files.step w (fatFs followPath) x i) := by
  rw [Files.step]
  split
  · next path drive _ =>
    rw [Files.openFileOn]
    split
    · exact h
    · exact openOn_mounted i.1 w followPath h path _
  · next path _ => exact openFileOnAnyLoop_mounted i.1 w followPath path Files.drives h
  · exact unmountDrive_mounted h
  · exact h
  · exact h
  · exact h
  · exact h
  · exact h
  · exact h
  · split
    · exact h
    · exact h
  · exact h

/-- **What is mounted has passed the checks** of the boot sector that `Accepted` lists, in every run
of the calls that open files, visit menus or access drives, whatever the drives answer and whichever
card is in the slot: so the size of a cluster is a power of two, and the number of clusters and, but
for exFAT, the FAT fit. -/
theorem mounted_accepted (hx : x.fs.found = none) (run : List (Env × Files.Step Path)) {v : Volume}
    (hfound : (run.foldl (Files.step w (fatFs followPath)) x).fs.found = some v) :
    Accepted v ∧ Shape v := by
  have hinv : MountedAccepted (run.foldl (Files.step w (fatFs followPath)) x) := by
    have hstart : MountedAccepted x := mountedAccepted_none hx
    clear hx hfound
    induction run generalizing x with
    | nil => exact hstart
    | cons i run ih => exact ih (step_mounted w followPath hstart i)
  exact ⟨hinv v hfound, (hinv v hfound).shape⟩

theorem mounted_accepted_sample : ∃ v,
    ([(Files.fine, Files.Step.openFileOn Files.payloadBin 0)].foldl
      (Files.step Payload.heapWindows (fatFs Files.followRoot)) Files.atBoot).fs.found = some v ∧
      Accepted v ∧ Shape v := by
  have hbooted : Files.Inv (fatFs Files.followRoot) Files.atBoot := Files.booted_atBoot.inv _
  have hvol : Drive.sd ∈ Files.drives := List.mem_cons_self
  have hok : Storage.OkFrom Files.fine Files.atBoot.disks.emmc.tick := fun _ _ ↦ rfl
  have hopen := Files.openOn_of_ok (w := Payload.heapWindows) hbooted hvol hok Files.hasFile_atBoot
  have hinv := Files.openOn_inv hbooted hvol (Files.openOn_heard Payload.heapWindows
    Files.payloadBin hbooted hvol (Files.openHeard_of_ok .sd hbooted hok)).1
  obtain ⟨v, hfound, -⟩ := (hinv.mounted .sd (Files.openOn_curDrive hopen)).found
  have hstep : Files.step Payload.heapWindows (fatFs Files.followRoot) Files.atBoot
      (Files.fine, .openFileOn Files.payloadBin 0) =
    (Files.openOn Files.fine Payload.heapWindows (fatFs Files.followRoot) Files.payloadBin .sd
      Files.atBoot).2 := rfl
  have hrun : ([(Files.fine, Files.Step.openFileOn Files.payloadBin 0)].foldl
      (Files.step Payload.heapWindows (fatFs Files.followRoot)) Files.atBoot).fs.found =
        some v := by
    rw [List.foldl_cons, List.foldl_nil, hstep]
    exact hfound
  have hnone : Files.atBoot.fs.found = none := rfl
  exact ⟨v, hrun, mounted_accepted Payload.heapWindows Files.followRoot hnone _ hrun⟩

end

end Fat
end SdLoader
