import SdLoader.Payload.Defs

/-!
# What is at the load address when a payload is started

`f_read` counts a `disk_read` that succeeds, however it has come to succeed.  One that has gone
through a re-initialisation of the card has left the card's registers at the start of the payload
buffer, where earlier pieces of the file may be already; and it has read from the user area.

* `Faithful` — what is wanted: whenever it comes to the jump, the file is at the load address, and
  it is no larger than `PAYLOAD_SIZE_MAX`;
* `Alike`, `Unspilt` — the condition: the file is the same on every partition a read can end up on,
  and no byte that is read before another piece can be lost to a register;
* `fReadLoop_filled` — under it, every piece is in its place as `f_read` goes along;
* `fReadLoop_of_ok`, `fReadLoop_stays`, `fReadLoop_relapse` — the runs that show it to be necessary:
  all goes well, every switch is lost, or one of the reads is taken up again;
* `faithful_iff` — exactly where the payload is started as it is on the volume.
-/

set_option autoImplicit false

namespace SdLoader
namespace Payload

open Storage Disk

variable {env : Env} {d d' : Disks} {drive : Drive} {w : Windows} {file : File} {rbuff br : ℕ}

/-! ## The law -/

/-- The sectors of a drive, if the partition `p` is selected. -/
def volume (drive : Drive) (d : Disks) (p : ℕ) : ℕ → UInt8 :=
  fun y ↦ (drive.view d).media p (blockSize * drive.shift + y)

/-- The partition of a drive. -/
def own (drive : Drive) : ℕ := drive.part.getD 0

/-- Whenever the payload is started, it is the file, and the file is not too large. -/
def Faithful (drive : Drive) (w : Windows) (file : File) (d : Disks) : Prop :=
  ∀ env sdInitDone ctx m, tryLaunchPayload env (.full env) drive w sdInitDone file ctx d = some m →
    Store.slice m payloadLoadAddr file.size = file.contents (volume drive d (own drive)) ∧
      file.size ≤ payloadSizeMax

/-- The file is the same on every partition a read of the drive can end up on. -/
def Alike (drive : Drive) (file : File) (d : Disks) : Prop :=
  ∀ p, drive.Possible d p →
    file.contents (volume drive d p) = file.contents (volume drive d (own drive))

/-- No byte that is read before another piece can be lost in reading it. -/
def Unspilt (drive : Drive) (file : File) (d : Disks) : Prop :=
  ∀ ps p qs, file.pieces = ps ++ p :: qs → ∀ k < sizeOf ps, ∀ b,
    drive.Spills d (payloadBufAddr + k) b →
      (bytesOf (volume drive d (own drive)) ps)[k]? = some b

/-- The sectors of the file are on the card. -/
def OnCard (drive : Drive) (ps : List Piece) (d : Disks) : Prop :=
  ∀ p ∈ ps, drive.shift + p.sector + p.count ≤ reach (drive.view d).card

/-! ## Pieces -/

section
variable {vol vol' : ℕ → UInt8} {ps qs : List Piece} {p : Piece}

@[simp] theorem sizeOf_nil : sizeOf [] = 0 := rfl

@[simp] theorem sizeOf_cons (p : Piece) (ps : List Piece) :
    sizeOf (p :: ps) = p.size + sizeOf ps := by
  simp [sizeOf]

@[simp] theorem sizeOf_append (ps qs : List Piece) : sizeOf (ps ++ qs) = sizeOf ps + sizeOf qs := by
  simp [sizeOf]

@[simp] theorem bytesOf_nil (vol : ℕ → UInt8) : bytesOf vol [] = [] := rfl

@[simp] theorem bytesOf_cons (vol : ℕ → UInt8) (p : Piece) (ps : List Piece) :
    bytesOf vol (p :: ps) = p.bytes vol ++ bytesOf vol ps := by
  simp [bytesOf]

@[simp] theorem bytesOf_append (vol : ℕ → UInt8) (ps qs : List Piece) :
    bytesOf vol (ps ++ qs) = bytesOf vol ps ++ bytesOf vol qs := by
  simp [bytesOf]

@[simp] theorem length_bytes (vol : ℕ → UInt8) (p : Piece) : (p.bytes vol).length = p.size :=
  Store.length_slice _ _ _

@[simp] theorem length_bytesOf (vol : ℕ → UInt8) (ps : List Piece) :
    (bytesOf vol ps).length = sizeOf ps := by
  induction ps with
  | nil => rfl
  | cons p ps ih => simp [ih]

/-- Files that agree agree in every piece. -/
theorem bytes_eq_of_mem (h : bytesOf vol ps = bytesOf vol' ps) (hp : p ∈ ps) :
    p.bytes vol = p.bytes vol' := by
  induction ps with
  | nil => simp at hp
  | cons q ps ih =>
    rw [bytesOf_cons, bytesOf_cons] at h
    obtain ⟨hq, hps⟩ := List.append_inj h (by simp)
    rcases List.mem_cons.mp hp with rfl | hp
    · exact hq
    · exact ih hps hp

theorem bytesOf_congr (h : ∀ p ∈ ps, p.bytes vol = p.bytes vol') :
    bytesOf vol ps = bytesOf vol' ps := by
  induction ps with
  | nil => rfl
  | cons p ps ih =>
    rw [bytesOf_cons, bytesOf_cons, h p List.mem_cons_self,
      ih fun q hq ↦ h q (List.mem_cons_of_mem _ hq)]

theorem Ordered.tail (h : Ordered (p :: ps)) : Ordered ps := by
  cases p with
  | fat => exact h
  | run => exact h.2
  | part =>
    rw [h.2]
    trivial

/-- A piece of a file is not empty, and brings no more than it reads. -/
theorem Ordered.piece (h : Ordered ps) (hp : p ∈ ps) :
    p.count ≠ 0 ∧ p.size ≤ blockSize * p.count := by
  induction ps with
  | nil => simp at hp
  | cons q ps ih =>
    rcases List.mem_cons.mp hp with rfl | hp
    · cases p with
      | fat sector => exact ⟨Nat.one_ne_zero, Nat.zero_le _⟩
      | run sector count => exact ⟨h.1, Nat.le_refl _⟩
      | part sector n => exact ⟨Nat.one_ne_zero, by simpa [Piece.size, Piece.count] using h.1⟩
    · exact ih h.tail hp

/-- What stands before another piece is read in whole sectors. -/
theorem Ordered.append (h : Ordered (ps ++ p :: qs)) :
    Ordered ps ∧ Ordered (p :: qs) ∧ sizeOf ps % 8 = 0 := by
  induction ps with
  | nil => exact ⟨trivial, h, rfl⟩
  | cons q ps ih =>
    obtain ⟨hps, hqs, hsize⟩ := ih h.tail
    cases q with
    | fat sector => exact ⟨hps, hqs, by simpa [Piece.size] using hsize⟩
    | run sector count =>
      refine ⟨⟨h.1, hps⟩, hqs, ?_⟩
      rw [sizeOf_cons, Piece.size, blockSize_eq]
      omega
    | part sector n => simp [Ordered] at h

/-- What follows a read changes memory only where the piece goes. -/
theorem finish_mem (w : Windows) (rbuff : ℕ) (p : Piece) (d : Disks) {a : ℕ} (h : a < rbuff) :
    (p.finish w rbuff d).emmc.mem a = d.emmc.mem a := by
  cases p with
  | fat | run => rfl
  | part sector n =>
    change Store.blit d.emmc.mem rbuff n (fun k ↦ d.emmc.mem (w.fil + k)) a = d.emmc.mem a
    exact Store.blit_of_not_mem (.inl h)

/-- And there it puts what has been read. -/
theorem finish_data (w : Windows) (rbuff : ℕ) (p : Piece) (d : Disks) {k : ℕ} (h : k < p.size) :
    (p.finish w rbuff d).emmc.mem (rbuff + k) = d.emmc.mem (p.dst w rbuff + k) := by
  cases p with
  | fat sector => exact absurd h (Nat.not_lt_zero k)
  | run sector count => rfl
  | part sector n =>
    change Store.blit d.emmc.mem rbuff n (fun k ↦ d.emmc.mem (w.fil + k)) (rbuff + k) = _
    exact Store.blit_add h

/-- The storages are left alone. -/
theorem finish_view (w : Windows) (rbuff : ℕ) (p : Piece) (drive : Drive) (d : Disks) :
    drive.view (p.finish w rbuff d) =
      { drive.view d with mem := (p.finish w rbuff d).emmc.mem } := by
  by_cases hdrive : drive = .sd
  · subst hdrive
    cases p <;> rfl
  · rw [view_emmc hdrive, view_emmc hdrive]
    cases p <;> rfl

/-- A read of a piece leaves the payload buffer below the piece to itself. -/
theorem dst_outside (w : Windows) (p : Piece) {rbuff a : ℕ} (hcount : p.size ≤ blockSize * p.count)
    (ha : payloadBufAddr ≤ a) (ha' : a < rbuff)
    (hmax : rbuff + p.size ≤ payloadBufAddr + payloadSizeMax) :
    a < p.dst w rbuff ∨ p.dst w rbuff + blockSize * p.count ≤ a := by
  obtain ⟨hfs, hfil⟩ := w.outside
  cases p with
  | fat sector =>
    change a < w.fs ∨ w.fs + blockSize * 1 ≤ a
    rw [blockSize_eq] at *
    omega
  | run sector count => exact .inl ha'
  | part sector n =>
    change a < w.fil ∨ w.fil + blockSize * 1 ≤ a
    rw [blockSize_eq] at *
    omega

end

/-! ## Every piece in its place -/

section
variable {d₀ : Disks} {ps qs : List Piece} {p : Piece}

/-- Between two reads: the pieces `ps` are in the buffer, and the storages are not otherwise than
they were at the start. -/
structure Reading (drive : Drive) (d₀ : Disks) (ps : List Piece) (d : Disks) : Prop where
  card : (drive.view d).card = (drive.view d₀).card
  addressed : Addressed (drive.view d)
  media : (drive.view d).media = (drive.view d₀).media
  possible : ∀ p, drive.Possible d p → drive.Possible d₀ p
  spills : ∀ a b, drive.Spills d a b → drive.Spills d₀ a b
  filled : ∀ k < sizeOf ps,
    (bytesOf (volume drive d₀ (own drive)) ps)[k]? = some (d.emmc.mem (payloadBufAddr + k))

theorem Reading.start (haddr : Addressed (drive.view d₀)) : Reading drive d₀ [] d₀ :=
  ⟨rfl, haddr, rfl, fun _ ↦ id, fun _ _ ↦ id, fun k hk ↦ absurd hk (Nat.not_lt_zero k)⟩

/-- What follows a read is no matter to the storages. -/
theorem finish_reads (w : Windows) (rbuff : ℕ) (p : Piece) (drive : Drive) (d : Disks) :
    (∀ q, drive.Possible (p.finish w rbuff d) q ↔ drive.Possible d q) ∧
      ∀ a b, drive.Spills (p.finish w rbuff d) a b ↔ drive.Spills d a b := by
  have hview := finish_view w rbuff p drive d
  constructor
  · intro q
    rw [Drive.Possible, Drive.Possible, hview]
  · intro a b
    rw [Drive.Spills, Drive.Spills, Drive.spill, Drive.spill, hview]

/-- **One more piece.** -/
theorem Reading.step (h : Reading drive d₀ ps d)
    (halike : ∀ q, drive.Possible d₀ q →
      p.bytes (volume drive d₀ q) = p.bytes (volume drive d₀ (own drive)))
    (hunspilt : ∀ k < sizeOf ps, ∀ b, drive.Spills d₀ (payloadBufAddr + k) b →
      (bytesOf (volume drive d₀ (own drive)) ps)[k]? = some b)
    (hpiece : p.count ≠ 0 ∧ p.size ≤ blockSize * p.count)
    (hcard : drive.shift + p.sector + p.count ≤ reach (drive.view d₀).card)
    (hmax : sizeOf ps + p.size ≤ payloadSizeMax)
    (hok : diskRead env (.full env) drive (p.dst w (payloadBufAddr + sizeOf ps)) p.sector p.count
      d = (.ok, d')) :
    Reading drive d₀ (ps ++ [p]) (p.finish w (payloadBufAddr + sizeOf ps) d') := by
  have hdone := diskRead_done h.addressed hpiece.1 (h.card.symm ▸ hcard) (congrArg Prod.fst hok)
  rw [hok] at hdone
  obtain ⟨hcard', haddr', hmedia', hpossible', hspills', hmem', q, hq, hdata⟩ := hdone
  have hview := finish_view w (payloadBufAddr + sizeOf ps) p drive d'
  obtain ⟨hpossible, hspills⟩ := finish_reads w (payloadBufAddr + sizeOf ps) p drive d'
  refine ⟨?_, ?_, ?_, fun q hq ↦ h.possible q (hpossible' q ((hpossible q).mp hq)),
    fun a b hs ↦ h.spills a b (hspills' a b ((hspills a b).mp hs)), fun k hk ↦ ?_⟩
  · rw [hview]
    exact hcard'.trans h.card
  · rw [hview]
    exact haddr'
  · rw [hview]
    exact hmedia'.trans h.media
  · rw [sizeOf_append, sizeOf_cons, sizeOf_nil, Nat.add_zero] at hk
    rw [bytesOf_append, bytesOf_cons, bytesOf_nil, List.append_nil]
    by_cases hold : k < sizeOf ps
    · -- A byte that was there is there, or has been replaced by one that is the same.
      rw [List.getElem?_append_left (by simpa using hold), finish_mem _ _ _ _ (by omega)]
      have hout := dst_outside w p hpiece.2 (Nat.le_add_right payloadBufAddr k)
        (Nat.add_lt_add_left hold payloadBufAddr) (by omega)
      rcases hmem' _ hout with heq | hspill
      · rw [heq]
        exact h.filled k hold
      · exact hunspilt k hold _ (h.spills _ _ hspill)
    · obtain ⟨j, rfl⟩ := Nat.exists_eq_add_of_le (Nat.le_of_not_lt hold)
      have hj : j < p.size := by omega
      rw [List.getElem?_append_right (by simp), length_bytesOf, Nat.add_sub_cancel_left,
        ← halike q (h.possible q hq), Piece.bytes, Store.getElem?_slice hj, ← Nat.add_assoc,
        finish_data w _ p d' hj, hdata j (Nat.lt_of_lt_of_le hj hpiece.2), h.media, volume,
        Nat.mul_add, Nat.add_assoc]

/-- **If the file is the same wherever it may be read, and no byte can be lost, it is in the buffer
when `f_read` succeeds.** -/
theorem fReadLoop_filled (halike : Alike drive file d₀) (hunspilt : Unspilt drive file d₀)
    (hcard : OnCard drive file.pieces d₀) (hmax : file.size ≤ payloadSizeMax)
    (hsplit : file.pieces = ps ++ qs) (h : Reading drive d₀ ps d) {br' : ℕ}
    (hok : fReadLoop env (.full env) drive w qs (payloadBufAddr + sizeOf ps) br d =
      (.ok, br', d')) :
    Reading drive d₀ file.pieces d' := by
  induction qs generalizing ps d br with
  | nil =>
    rw [List.append_nil] at hsplit
    rw [fReadLoop] at hok
    cases hok
    exact hsplit ▸ h
  | cons p qs ih =>
    rw [fReadLoop] at hok
    have hp : p ∈ file.pieces := hsplit ▸ List.mem_append_right ps List.mem_cons_self
    have hsize : sizeOf ps + p.size ≤ payloadSizeMax := by
      have hall := hmax
      rw [File.size, hsplit, sizeOf_append, sizeOf_cons] at hall
      omega
    split at hok
    · next d₁ hread =>
      have hstep := h.step (fun q hq ↦ bytes_eq_of_mem (halike q hq) hp) (hunspilt ps p qs hsplit)
        (file.ordered.piece hp) (hcard p hp) hsize hread
      have hnext : payloadBufAddr + sizeOf ps + p.size = payloadBufAddr + sizeOf (ps ++ [p]) := by
        rw [sizeOf_append, sizeOf_cons, sizeOf_nil, Nat.add_zero, Nat.add_assoc]
      rw [hnext] at hok
      exact ih (hsplit.trans (by simp)) hstep hok
    · cases hok

end

/-! ## The jump -/

/-- The relocation moves what it is told to, up or down. -/
theorem reloc_eq_blit (dst src size : ℕ) (m : ℕ → UInt8) :
    reloc dst src size m = Store.blit m dst size fun k ↦ m (src + k) := by
  rw [reloc]
  split
  · next h => exact Store.copyUp_eq_blit (Nat.le_of_lt h) size
  · split
    · next h => exact Store.copyDown_eq_blit (Nat.le_of_lt h) size
    · next h h' =>
      obtain rfl : dst = src := by omega
      funext x
      by_cases hin : dst ≤ x ∧ x < dst + size
      · rw [Store.blit_of_mem hin.1 hin.2, Nat.add_sub_cancel' hin.1]
      · rw [Store.blit_of_not_mem (by omega)]

theorem storageEnd_mem (env : Env) (s : State) : (storageEnd env s).mem = s.mem := by
  rw [storageEnd, goIdleState]
  cases (env s.tick).ok <;> rfl

theorem deinit_mem (env : Env) (sdInitDone : Bool) (d : Disks) :
    (deinit env sdInitDone d).emmc.mem = d.emmc.mem := by
  rw [deinit]
  cases sdInitDone with
  | false => exact storageEnd_mem env d.emmc
  | true => exact (storageEnd_mem env _).trans (storageEnd_mem env d.sdView)

/-- What is in the buffer is at the load address at the moment of the jump. -/
theorem slice_launchPayload (env : Env) (sdInitDone : Bool) (n : ℕ) (d : Disks) :
    Store.slice (launchPayload env sdInitDone ⟨payloadBufAddr, n⟩ d) payloadLoadAddr n =
      Store.slice d.emmc.mem payloadBufAddr n := by
  rw [launchPayload, reloc_eq_blit, deinit_mem]
  exact List.map_congr_left fun k hk ↦ Store.blit_add (List.mem_range.mp hk)

/-- The bytes `f_read` counts. -/
theorem fReadLoop_br {rec : Recovery} {ps : List Piece} {br' : ℕ}
    (h : fReadLoop env rec drive w ps rbuff br d = (.ok, br', d')) : br' = br + sizeOf ps := by
  induction ps generalizing rbuff br d with
  | nil =>
    rw [fReadLoop] at h
    cases h
    rfl
  | cons p ps ih =>
    rw [fReadLoop] at h
    split at h
    · rw [ih h, sizeOf_cons, Nat.add_assoc]
    · cases h

/-- **When it comes to the jump**: the file is not too large, and all of it has been read. -/
theorem tryLaunchPayload_eq_some {sdInitDone : Bool} {ctx : Ctx} {m : ℕ → UInt8} :
    tryLaunchPayload env (.full env) drive w sdInitDone file ctx d = some m ↔
      file.size ≤ payloadSizeMax ∧ ∃ d' br', fReadLoop env (.full env) drive w file.pieces
        payloadBufAddr 0 d = (.ok, br', d') ∧
          m = launchPayload env sdInitDone ⟨payloadBufAddr, file.size⟩ d' := by
  rw [tryLaunchPayload, readPayload]
  by_cases hmax : payloadSizeMax < file.size
  · simp only [if_pos hmax, reduceCtorEq, false_iff, not_and]
    intro hle
    omega
  · rw [if_neg hmax, fRead]
    rcases hr : fReadLoop env (.full env) drive w file.pieces payloadBufAddr 0 d
      with ⟨_ | _, br', d'⟩
    · have hbr : br' = file.size := by
        rw [fReadLoop_br hr, Nat.zero_add, File.size]
      simp only [hbr, ne_eq, not_true_eq_false, or_self, if_false]
      constructor
      · intro h
        exact ⟨Nat.le_of_not_lt hmax, d', file.size, rfl, (Option.some.inj h).symm⟩
      · rintro ⟨-, d'', br'', heq, rfl⟩
        cases heq
        rfl
    · simp

/-- **Where the payload is started as it is on the volume.** -/
theorem faithful_of_alike (haddr : Addressed (drive.view d)) (hcard : OnCard drive file.pieces d)
    (halike : Alike drive file d) (hunspilt : Unspilt drive file d) : Faithful drive w file d := by
  intro env sdInitDone ctx m hm
  obtain ⟨hmax, d', br', hread, rfl⟩ := tryLaunchPayload_eq_some.mp hm
  refine ⟨?_, hmax⟩
  have hsplit : file.pieces = [] ++ file.pieces := rfl
  have hfilled := (fReadLoop_filled halike hunspilt hcard hmax hsplit (.start haddr) hread).filled
  rw [slice_launchPayload]
  refine List.ext_getElem? fun k ↦ ?_
  by_cases hk : k < file.size
  · rw [Store.getElem?_slice hk]
    exact (hfilled k hk).symm
  · rw [List.getElem?_eq_none (by simpa using hk),
      List.getElem?_eq_none (by simpa [File.contents, File.size] using hk)]

/-! ## Runs that show the condition to be necessary -/

section
variable {ps qs : List Piece} {p : Piece}

/-- The pieces can be read into the buffer from `rbuff` on. -/
structure Fits (drive : Drive) (ps : List Piece) (rbuff : ℕ) (d : Disks) : Prop where
  ordered : Ordered ps
  card : OnCard drive ps d
  aligned : ps ≠ [] → rbuff % 8 = 0
  low : payloadBufAddr ≤ rbuff
  high : rbuff + sizeOf ps ≤ payloadBufAddr + payloadSizeMax

theorem Fits.readable (h : Fits drive (p :: ps) rbuff d) :
    Readable drive p.sector p.count (p.dst w rbuff) d := by
  refine ⟨(h.ordered.piece List.mem_cons_self).1, ?_, h.card p List.mem_cons_self⟩
  cases p with
  | fat sector => exact w.aligned.1
  | run sector count =>
    refine ⟨?_, h.aligned (List.cons_ne_nil _ _)⟩
    have hlow := h.low
    rw [payloadBufAddr_eq] at hlow
    change rbuff ≠ 0
    omega
  | part sector n => exact w.aligned.2

/-- One command is enough for any piece. -/
theorem Fits.count_le (h : Fits drive (p :: ps) rbuff d) : p.count ≤ 0xFFFF := by
  have hhigh := h.high
  have hlow := h.low
  rw [sizeOf_cons] at hhigh
  cases p with
  | fat sector => exact (by decide : 1 ≤ 0xFFFF)
  | run sector count =>
    change count ≤ 0xFFFF
    rw [Piece.size, blockSize_eq, payloadSizeMax_eq] at hhigh
    omega
  | part sector n => exact (by decide : 1 ≤ 0xFFFF)

theorem Fits.tail (h : Fits drive (p :: ps) rbuff d)
    (hcard : (drive.view d').card = (drive.view d).card) : Fits drive ps (rbuff + p.size) d' := by
  have hlow := h.low
  have hhigh := h.high
  rw [sizeOf_cons] at hhigh
  refine ⟨h.ordered.tail, fun q hq ↦ hcard ▸ h.card q (List.mem_cons_of_mem _ hq), fun hne ↦ ?_,
    by omega, by omega⟩
  have haligned := h.aligned (List.cons_ne_nil _ _)
  cases p with
  | fat sector => exact haligned
  | run sector count =>
    rw [Piece.size, blockSize_eq]
    omega
  | part sector n => exact absurd h.ordered.2 hne

/-- The buffer below `rbuff` is as it was. -/
def Below (rbuff : ℕ) (d d' : Disks) : Prop :=
  ∀ a, payloadBufAddr ≤ a → a < rbuff → d'.emmc.mem a = d.emmc.mem a

theorem Below.trans {d₁ d₂ d₃ : Disks} {n : ℕ} (h : Below rbuff d₁ d₂)
    (h' : Below (rbuff + n) d₂ d₃) : Below rbuff d₁ d₃ :=
  fun a ha ha' ↦ (h' a ha (by omega)).trans (h a ha ha')

/-- What a read of a piece leaves below the piece, if it leaves memory outside its buffer. -/
theorem Fits.below (h : Fits drive (p :: ps) rbuff d) (hmem : ∀ a, a < p.dst w rbuff ∨
      p.dst w rbuff + blockSize * p.count ≤ a → d'.emmc.mem a = d.emmc.mem a) :
    Below rbuff d (p.finish w rbuff d') := by
  intro a ha ha'
  have hhigh := h.high
  rw [sizeOf_cons] at hhigh
  rw [finish_mem w rbuff p d' ha']
  exact hmem a (dst_outside w p (h.ordered.piece List.mem_cons_self).2 ha ha' (by omega))

/-- Pieces read without anything going wrong. -/
structure AllOk (drive : Drive) (n rbuff : ℕ) (d d' : Disks) : Prop where
  ready : Ready drive d'
  tick : d'.emmc.tick + switchTime drive d' = d.emmc.tick + switchTime drive d + n
  mode : (drive.view d').mode = (drive.view d).mode
  card : (drive.view d').card = (drive.view d).card
  media : (drive.view d').media = (drive.view d).media
  below : Below rbuff d d'

/-- **Reads that all succeed.** -/
theorem fReadLoop_of_ok (w : Windows) (br : ℕ) (hready : Ready drive d) (h : Fits drive ps rbuff d)
    (hok : OkBetween env d.emmc.tick (d.emmc.tick + switchTime drive d + ps.length)) :
    ∃ d', fReadLoop env (.full env) drive w ps rbuff br d = (.ok, br + sizeOf ps, d') ∧
      AllOk drive ps.length rbuff d d' := by
  induction ps generalizing rbuff br d with
  | nil => exact ⟨d, rfl, hready, rfl, rfl, rfl, rfl, fun _ _ _ ↦ rfl⟩
  | cons p ps ih =>
    rw [List.length_cons] at hok
    obtain ⟨hres, hread⟩ := diskRead_of_ok hready (h.readable (w := w)) h.count_le
      fun n hn hn' ↦ hok n hn (by omega)
    rcases hr : diskRead env (.full env) drive (p.dst w rbuff) p.sector p.count d
      with ⟨_ | _, d₁⟩ <;>
      rw [hr] at hres hread
    swap
    · cases hres
    have hview := finish_view w rbuff p drive d₁
    have htick : (p.finish w rbuff d₁).emmc.tick + switchTime drive (p.finish w rbuff d₁) =
        d₁.emmc.tick + switchTime drive d₁ := by
      cases p <;> rfl
    have hcard₁ : (drive.view (p.finish w rbuff d₁)).card = (drive.view d).card := by
      rw [hview]
      exact hread.card
    have hready₁ : Ready drive (p.finish w rbuff d₁) := by
      refine ⟨?_, ?_⟩ <;> rw [hview]
      · exact hread.ready.initialized
      · exact hread.ready.addressed
    have hle : d.emmc.tick ≤ (p.finish w rbuff d₁).emmc.tick := by
      have hstep := hread.step
      cases p <;> exact hstep
    obtain ⟨d', hrun, hall⟩ := ih (br + p.size) hready₁ (h.tail hcard₁) fun n hn hn' ↦
      hok n (Nat.le_trans hle hn) (by
        rw [htick, hread.tick] at hn'
        omega)
    refine ⟨d', ?_, hall.ready, ?_, hall.mode.trans (by rw [hview]; exact hread.mode),
      hall.card.trans hcard₁, hall.media.trans (by rw [hview]; exact hread.media),
      (h.below hread.mem).trans hall.below⟩
    · rw [fReadLoop, hr]
      dsimp only
      rw [hrun, sizeOf_cons, Nat.add_assoc]
    · rw [hall.tick, htick, hread.tick, List.length_cons]
      omega

/-- The bytes of a piece are in their place after the read of it. -/
theorem slice_finish {vol : ℕ → UInt8} {n : ℕ} (hsize : p.size ≤ n)
    (hdata : ∀ k < n, d.emmc.mem (p.dst w rbuff + k) = vol (blockSize * p.sector + k)) :
    Store.slice (p.finish w rbuff d).emmc.mem rbuff p.size = p.bytes vol := by
  refine List.map_congr_left fun k hk ↦ ?_
  have hlt : k < p.size := List.mem_range.mp hk
  rw [finish_data w rbuff p d hlt]
  exact hdata k (Nat.lt_of_lt_of_le hlt hsize)

/-- And they stay there. -/
theorem slice_of_below {n : ℕ} (hlow : payloadBufAddr ≤ rbuff) (h : Below (rbuff + n) d d') :
    Store.slice d'.emmc.mem rbuff n = Store.slice d.emmc.mem rbuff n :=
  Store.slice_congr fun k hk ↦ h _ (by omega) (by omega)

theorem volume_eq {q : ℕ} (hmedia : (drive.view d').media = (drive.view d).media) :
    volume drive d' q = volume drive d q := by
  funext y
  rw [volume, volume, hmedia]

/-- **Reads none of which gets a switch** bring what is on the partition that is selected. -/
theorem fReadLoop_stays (w : Windows) (br : ℕ) (hready : Ready drive d) (h : Fits drive ps rbuff d)
    (hstuck : Stuck drive env (drive.view d)) :
    ∃ d', fReadLoop env (.full env) drive w ps rbuff br d = (.ok, br + sizeOf ps, d') ∧
      Below rbuff d d' ∧ Store.slice d'.emmc.mem rbuff (sizeOf ps) =
        bytesOf (volume drive d (drive.view d).selected) ps := by
  induction ps generalizing rbuff br d with
  | nil => exact ⟨d, rfl, fun _ _ _ ↦ rfl, rfl⟩
  | cons p ps ih =>
    obtain ⟨hres, hread⟩ := diskRead_stays hready (h.readable (w := w)) h.count_le hstuck
    rcases hr : diskRead env (.full env) drive (p.dst w rbuff) p.sector p.count d
      with ⟨_ | _, d₁⟩ <;>
      rw [hr] at hres hread
    swap
    · cases hres
    have hview := finish_view w rbuff p drive d₁
    have hready₁ : Ready drive (p.finish w rbuff d₁) := by
      refine ⟨?_, ?_⟩ <;> rw [hview]
      · exact hread.ready.initialized
      · exact hread.ready.addressed
    have hstuck₁ : Stuck drive env (drive.view (p.finish w rbuff d₁)) := by
      rw [hview]
      exact hread.stuck
    have hmedia₁ : (drive.view (p.finish w rbuff d₁)).media = (drive.view d).media := by
      rw [hview]
      exact hread.media
    have hsel₁ : (drive.view (p.finish w rbuff d₁)).selected = (drive.view d).selected := by
      rw [hview]
      exact hread.selected
    have hcard₁ : (drive.view (p.finish w rbuff d₁)).card = (drive.view d).card := by
      rw [hview]
      exact hread.card
    obtain ⟨d', hrun, hbelow, hslice⟩ := ih (br + p.size) hready₁ (h.tail hcard₁) hstuck₁
    refine ⟨d', ?_, (h.below hread.mem).trans hbelow, ?_⟩
    · rw [fReadLoop, hr]
      dsimp only
      rw [hrun, sizeOf_cons, Nat.add_assoc]
    · have hpiece : Store.slice (p.finish w rbuff d₁).emmc.mem rbuff p.size =
          p.bytes (volume drive d (drive.view d).selected) := by
        refine slice_finish (h.ordered.piece List.mem_cons_self).2 fun k hk ↦ ?_
        rw [hread.data k hk, volume, Nat.mul_add, Nat.add_assoc]
      rw [sizeOf_cons, Store.slice_add, slice_of_below h.low hbelow, hpiece, hslice, bytesOf_cons,
        hsel₁, volume_eq hmedia₁]

/-- A loop that has got past its first pieces. -/
theorem fReadLoop_append {rec : Recovery} {br' : ℕ}
    (h : fReadLoop env rec drive w ps rbuff br d = (.ok, br', d')) :
    fReadLoop env rec drive w (ps ++ qs) rbuff br d =
      fReadLoop env rec drive w qs (rbuff + sizeOf ps) br' d' := by
  induction ps generalizing rbuff br d with
  | nil =>
    rw [fReadLoop] at h
    cases h
    rfl
  | cons p ps ih =>
    rw [fReadLoop] at h
    rw [List.cons_append, fReadLoop]
    split at h
    · rw [ih h, sizeOf_cons, Nat.add_assoc]
    · cases h

theorem Fits.split (h : Fits drive (ps ++ p :: qs) payloadBufAddr d) :
    Fits drive ps payloadBufAddr d ∧ Fits drive (p :: qs) (payloadBufAddr + sizeOf ps) d := by
  obtain ⟨hps, hqs, hsize⟩ := h.ordered.append
  have hhigh := h.high
  rw [sizeOf_append] at hhigh
  refine ⟨⟨hps, fun q hq ↦ h.card q (List.mem_append_left _ hq), fun _ ↦ by decide, Nat.le_refl _,
    by omega⟩, hqs, fun q hq ↦ h.card q (List.mem_append_right _ hq), fun _ ↦ ?_, by omega,
    by omega⟩
  rw [payloadBufAddr_eq]
  omega

theorem Fits.of_card (h : Fits drive ps rbuff d)
    (hcard : (drive.view d').card = (drive.view d).card) : Fits drive ps rbuff d' :=
  ⟨h.ordered, fun q hq ↦ hcard ▸ h.card q hq, h.aligned, h.low, h.high⟩

/-- What a run leaves in which one of the reads is taken up again: the piece `p`, after the pieces
`ps`. -/
structure Relapsed (drive : Drive) (ps : List Piece) (p : Piece) (hit : ℕ → Bool) (junk : ℕ → UInt8)
    (d d' : Disks) : Prop where
  /-- The piece is that of the user area. -/
  piece : Store.slice d'.emmc.mem (payloadBufAddr + sizeOf ps) p.size = p.bytes (volume drive d 0)
  /-- Of the pieces before it the extended CSD is left. -/
  emmc : drive ≠ .sd → ∀ k < sizeOf ps, ∀ b,
    extCsdSpill (drive.view d).card (payloadBufAddr + k) b → d'.emmc.mem (payloadBufAddr + k) = b
  /-- Or what the SD card has left. -/
  sd : drive = .sd → 0 < sizeOf ps → hit payloadBufAddr = true →
    d'.emmc.mem payloadBufAddr = junk payloadBufAddr

/-- **Reads one of which is taken up again.** -/
theorem fReadLoop_relapse (hit : ℕ → Bool) (junk : ℕ → UInt8) (w : Windows)
    (hready : Ready drive d)
    (hmode : drive = .sd → (drive.view d).mode ≠ 0)
    (h : Fits drive (ps ++ p :: qs) payloadBufAddr d)
    (henv : env = relapse (d.emmc.tick + switchTime drive d + ps.length) hit junk) :
    ∃ d', fReadLoop env (.full env) drive w (ps ++ p :: qs) payloadBufAddr 0 d =
        (.ok, 0 + sizeOf ps + sizeOf (p :: qs), d') ∧ Relapsed drive ps p hit junk d d' := by
  obtain ⟨hps, hqs⟩ := h.split
  obtain ⟨d₁, hrun₁, hall⟩ := fReadLoop_of_ok w 0 hready hps (henv ▸ relapse_between hit junk)
  have hqs₁ := hqs.of_card hall.card
  rw [← hall.tick] at henv
  obtain ⟨hres, hagain⟩ := diskRead_relapse hall.ready (hqs₁.readable (w := w))
    (fun hsd ↦ hall.mode ▸ hmode hsd) henv
  rcases hr : diskRead env (.full env) drive (p.dst w (payloadBufAddr + sizeOf ps)) p.sector p.count
    d₁ with ⟨_ | _, d₂⟩ <;> rw [hr] at hres hagain
  swap
  · cases hres
  have hview := finish_view w (payloadBufAddr + sizeOf ps) p drive d₂
  have htick : (p.finish w (payloadBufAddr + sizeOf ps) d₂).emmc.tick = d₂.emmc.tick := by
    cases p <;> rfl
  have hready₂ : Ready drive (p.finish w (payloadBufAddr + sizeOf ps) d₂) := by
    refine ⟨?_, ?_⟩ <;> rw [hview]
    · exact hagain.ready.initialized
    · exact hagain.ready.addressed
  have hcard₂ : (drive.view (p.finish w (payloadBufAddr + sizeOf ps) d₂)).card =
      (drive.view d₁).card := by
    rw [hview]
    exact hagain.card
  obtain ⟨d', hrun₂, hall₂⟩ := fReadLoop_of_ok w (0 + sizeOf ps + p.size) hready₂ (hqs₁.tail hcard₂)
    fun n hn _ ↦ hagain.ok n (htick ▸ hn)
  -- Below the piece, what the last reads leave is what the one taken up again has left.
  have hlow : ∀ k < sizeOf ps, d'.emmc.mem (payloadBufAddr + k) =
      d₂.emmc.mem (payloadBufAddr + k) := by
    intro k hk
    rw [hall₂.below _ (Nat.le_add_right _ _) (by omega), finish_mem _ _ _ _ (by omega)]
  have hout : ∀ k < sizeOf ps, payloadBufAddr + k < p.dst w (payloadBufAddr + sizeOf ps) ∨
      p.dst w (payloadBufAddr + sizeOf ps) + blockSize * p.count ≤ payloadBufAddr + k := by
    intro k hk
    have hhigh := hqs.high
    rw [sizeOf_cons] at hhigh
    exact dst_outside w p (hqs.ordered.piece List.mem_cons_self).2 (Nat.le_add_right _ _)
      (Nat.add_lt_add_left hk _) (by omega)
  refine ⟨d', ?_, ⟨?_, fun hne k hk b hspill ↦ ?_, fun hsd hpos hhit ↦ ?_⟩⟩
  · rw [fReadLoop_append hrun₁, fReadLoop, hr]
    dsimp only
    rw [hrun₂, sizeOf_cons, Nat.add_assoc _ p.size]
  · rw [slice_of_below hqs.low hall₂.below]
    refine slice_finish (hqs.ordered.piece List.mem_cons_self).2 fun k hk ↦ ?_
    rw [hagain.data k hk, hall.media, volume, Nat.mul_add, Nat.add_assoc]
  · rw [hlow k hk]
    exact hagain.emmc hne _ b (hout k hk) (hall.card ▸ hspill)
  · rw [← Nat.add_zero payloadBufAddr, hlow 0 hpos]
    exact hagain.sd hsd _ (hout 0 hpos) (Nat.le_refl _) (by decide) hhit

end

/-! ## Exactly where the payload is started as it is -/

section
variable {vol : ℕ → UInt8} {ps qs : List Piece} {p : Piece} {m : ℕ → UInt8} {a : ℕ}

/-- A buffer that holds pieces holds each of them. -/
theorem slice_piece (h : Store.slice m a (sizeOf (ps ++ p :: qs)) = bytesOf vol (ps ++ p :: qs)) :
    Store.slice m (a + sizeOf ps) p.size = p.bytes vol := by
  rw [sizeOf_append, sizeOf_cons, Store.slice_add, Store.slice_add, bytesOf_append, bytesOf_cons]
    at h
  have hrest := (List.append_inj h (by simp)).2
  exact (List.append_inj hrest (by simp)).1

/-- And every byte of the first ones. -/
theorem getElem?_of_slice (h : Store.slice m a (sizeOf (ps ++ qs)) = bytesOf vol (ps ++ qs)) {k : ℕ}
    (hk : k < sizeOf ps) : (bytesOf vol ps)[k]? = some (m (a + k)) := by
  rw [← List.getElem?_append_left (by simpa using hk), ← bytesOf_append, ← h]
  exact Store.getElem?_slice (by rw [sizeOf_append]; omega)

/-- What the law says of the buffer after `f_read`. -/
theorem Faithful.buffer (h : Faithful drive w file d) (hmax : file.size ≤ payloadSizeMax) {br' : ℕ}
    (hrun : fReadLoop env (.full env) drive w file.pieces payloadBufAddr 0 d = (.ok, br', d')) :
    Store.slice d'.emmc.mem payloadBufAddr file.size =
      file.contents (volume drive d (own drive)) := by
  obtain ⟨hslice, -⟩ :=
    h env false ⟨0, 0⟩ _ (tryLaunchPayload_eq_some.mpr ⟨hmax, d', br', hrun, rfl⟩)
  rwa [slice_launchPayload] at hslice

/-- A file that is not too large fits. -/
theorem fits_of_le (hmax : file.size ≤ payloadSizeMax) (hcard : OnCard drive file.pieces d) :
    Fits drive file.pieces payloadBufAddr d :=
  ⟨file.ordered, hcard, fun _ ↦ by decide, Nat.le_refl _, Nat.add_le_add_left hmax _⟩

variable (h : Faithful drive w file d) (hmax : file.size ≤ payloadSizeMax) (hready : Ready drive d)
  (hcard : OnCard drive file.pieces d)
include h hmax hready hcard

/-- The file is the same in the user area. -/
theorem Faithful.alike_zero (hsd : drive ≠ .sd) :
    file.contents (volume drive d 0) = file.contents (volume drive d (own drive)) := by
  refine bytesOf_congr fun p hp ↦ ?_
  obtain ⟨ps, qs, hsplit⟩ := List.append_of_mem hp
  have hfits := fits_of_le hmax hcard
  rw [hsplit] at hfits
  obtain ⟨d', hrun, hrelapsed⟩ := fReadLoop_relapse (fun _ ↦ false) (fun _ ↦ 0) w hready
    (fun hd ↦ absurd hd hsd) hfits rfl
  rw [← hsplit] at hrun
  have hbuffer := h.buffer hmax hrun
  rw [File.size, File.contents, hsplit] at hbuffer
  exact hrelapsed.piece.symm.trans (slice_piece hbuffer)

/-- And on the partition that is selected. -/
theorem Faithful.alike_selected (hsd : drive ≠ .sd) :
    file.contents (volume drive d (drive.view d).selected) =
      file.contents (volume drive d (own drive)) := by
  obtain ⟨part, hpart⟩ : ∃ part, drive.part = some part := by
    cases drive with
    | sd => exact absurd rfl hsd
    | boot1 | boot1_1mb | gpp | boot0 => exact ⟨_, rfl⟩
  obtain ⟨env, hstuck⟩ : ∃ env, Stuck drive env (drive.view d) := by
    by_cases hrecord : (drive.view d).dev.partition = part
    · refine ⟨fun _ ↦ ⟨true, false, fun _ ↦ false, fun _ ↦ 0⟩, .inl ⟨fun q hq ↦ ?_, fun _ _ ↦ rfl⟩⟩
      rw [hpart] at hq
      exact Option.some.inj hq ▸ hrecord
    · refine ⟨fun n ↦ ⟨decide ((n - (drive.view d).tick) % 2 = 1), false, fun _ ↦ false, fun _ ↦ 0⟩,
        .inr ⟨⟨part, hpart, hrecord⟩, fun i ↦ ⟨decide_eq_false ?_, rfl, decide_eq_true ?_⟩⟩⟩ <;>
        omega
  obtain ⟨d', hrun, -, hslice⟩ :=
    fReadLoop_stays w 0 hready (fits_of_le hmax hcard) hstuck
  exact hslice.symm.trans (h.buffer hmax hrun)

/-- **The file is the same wherever it may be read.** -/
theorem Faithful.alike : Alike drive file d := by
  intro q hq
  by_cases hsd : drive = .sd
  · subst hsd
    rfl
  · rcases hq with rfl | rfl | hq
    · exact h.alike_zero hmax hready hcard hsd
    · exact h.alike_selected hmax hready hcard hsd
    · rw [own, hq]
      rfl

/-- **No byte that has been read can be lost.** -/
theorem Faithful.unspilt : Unspilt drive file d := by
  intro ps p qs hsplit k hk b hspill
  have hfits := fits_of_le hmax hcard
  rw [hsplit] at hfits
  rw [Drive.Spills, Drive.spill] at hspill
  by_cases hsd : drive = .sd
  · rw [if_pos hsd] at hspill
    obtain ⟨c, hc⟩ : ∃ c, (bytesOf (volume drive d (own drive)) ps)[0]? = some c :=
      ⟨_, List.getElem?_eq_getElem (by rw [length_bytesOf]; omega)⟩
    obtain ⟨d', hrun, hrelapsed⟩ := fReadLoop_relapse (fun _ ↦ true) (fun _ ↦ c + 1) w
      hready (fun _ ↦ hspill.1) hfits rfl
    rw [← hsplit] at hrun
    have hbuffer := h.buffer hmax hrun
    rw [File.size, File.contents, hsplit] at hbuffer
    have hfirst := getElem?_of_slice hbuffer (Nat.zero_lt_of_lt hk)
    rw [hc, Nat.add_zero, hrelapsed.sd hsd (Nat.zero_lt_of_lt hk) rfl] at hfirst
    exact absurd (Option.some.inj hfirst).symm (add_one_ne c)
  · rw [if_neg hsd] at hspill
    obtain ⟨d', hrun, hrelapsed⟩ := fReadLoop_relapse (fun _ ↦ false) (fun _ ↦ 0) w
      hready (fun hd ↦ absurd hd hsd) hfits rfl
    rw [← hsplit] at hrun
    have hbuffer := h.buffer hmax hrun
    rw [File.size, File.contents, hsplit] at hbuffer
    rw [getElem?_of_slice hbuffer hk, hrelapsed.emmc hsd k hk b hspill]

end

/-- **Where a payload is started as it is on the volume**: if it is refused, or cannot be read, or
is the same on every partition it may be read from and loses no byte to a register. -/
theorem faithful_iff (haddr : Addressed (drive.view d)) (hcard : OnCard drive file.pieces d)
    (w : Windows) :
    Faithful drive w file d ↔
      payloadSizeMax < file.size ∨ (drive.view d).dev.initialized = false ∨
        Alike drive file d ∧ Unspilt drive file d := by
  constructor
  · intro h
    by_contra hcon
    rw [not_or, not_or, Nat.not_lt, Bool.not_eq_false] at hcon
    obtain ⟨hmax, hinit, hnot⟩ := hcon
    have hready : Ready drive d := ⟨hinit, haddr⟩
    exact hnot ⟨h.alike hmax hready hcard, h.unspilt hmax hready hcard⟩
  · rintro (hmax | hoff | ⟨halike, hunspilt⟩)
    · intro env sdInitDone ctx m hm
      exact absurd (tryLaunchPayload_eq_some.mp hm).1 (Nat.not_le.mpr hmax)
    · intro env sdInitDone ctx m hm
      obtain ⟨hmax, d', br', hrun, rfl⟩ := tryLaunchPayload_eq_some.mp hm
      cases hps : file.pieces with
      | nil =>
        refine ⟨?_, hmax⟩
        rw [File.size, File.contents, hps]
        rfl
      | cons p ps =>
        have hfails : (diskRead env (.full env) drive (p.dst w payloadBufAddr) p.sector p.count
            d).1 = .error := diskRead_fails (.inr (.inr hoff))
        rw [hps, fReadLoop] at hrun
        rcases hr : diskRead env (.full env) drive (p.dst w payloadBufAddr) p.sector p.count d with
          ⟨_ | _, d₁⟩ <;> rw [hr] at hrun hfails
        · cases hfails
        · cases hrun
    · exact faithful_of_alike haddr hcard halike hunspilt

/-- A file of two sectors that do not follow one another. -/
def fragmented : File := ⟨[.run 1 1, .run 4 1], by simp [Ordered]⟩

/-- FatFs in the heap. -/
def heapWindows : Windows :=
  ⟨iplHeapStart, iplHeapStart + 0x400, by decide, by decide⟩

theorem faithful_iff_fragmented :
    Faithful .gpp heapWindows fragmented started ↔
      payloadSizeMax < fragmented.size ∨ (Drive.gpp.view started).dev.initialized = false ∨
        Alike .gpp fragmented started ∧ Unspilt .gpp fragmented started :=
  faithful_iff (fun _ ↦ rfl) (List.forall_iff_forall_mem.mp (by decide)) heapWindows

/-- A payload in two fragments on the SD card, with five failures when the second is read.  The card
is initialised again, the read succeeds, and the payload starts with a byte of the card's
registers. -/
theorem faithful_counterexample : ¬ Faithful .sd heapWindows fragmented started := by
  intro h
  obtain ⟨env, henv⟩ : ∃ env, env = relapse 1 (fun _ ↦ true) fun _ ↦ 2 := ⟨_, rfl⟩
  have hlaunched : (tryLaunchPayload env (.full env) .sd heapWindows true fragmented ⟨0, 0⟩
      started).map (fun m ↦ m payloadLoadAddr) = some 2 := by
    rw [henv]
    decide +kernel
  obtain ⟨m, hm, hfirst⟩ := Option.map_eq_some_iff.mp hlaunched
  have hslice := (h env true ⟨0, 0⟩ m hm).1
  have hhead := congrArg (fun l ↦ l[0]?) hslice
  change (Store.slice m payloadLoadAddr fragmented.size)[0]? =
    (fragmented.contents (volume .sd started 0))[0]? at hhead
  rw [Store.getElem?_slice (by decide), Nat.add_zero, hfirst] at hhead
  exact absurd hhead (by decide +kernel)

end Payload
end SdLoader
