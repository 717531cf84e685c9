import SdLoader.Usb.Account
import SdLoader.Usb.InPhase
import SdLoader.Usb.Medium
import SdLoader.Usb.Wire

/-!
# The mass storage gadget: the residue

What the residue in a status wrapper says of the command it is for.

Every command starts with a residue of all that the host has announced, and takes away what it has
dealt with: a reply that is put in the buffer, blocks that have been read, blocks that have been
written.  What it takes away is there to take, so the sum of the two is what the host has announced,
to the byte.

The number of blocks is another matter.  `data_size_from_cmnd` has 32 bits, and the number of a
twelve byte block has as many, but counts blocks.  So the size of a transfer can come out smaller
than the block says, and the host that has announced just that is told that everything has been
done.

* `Charged` — what has been moved for a command, and that the residue goes with it.
* `charged_readLoop`, `charged_writePass` — both loops keep it, whatever goes wrong.
* `Accounted` — the law, for every command.
* `Concludes` — a command gets to the point where its status is due.
* `residue_law` — the residue is right at every such point; and a command that passes with nothing
  left over has moved the blocks it was asked for if and only if their size fits into 32 bits.
-/

set_option autoImplicit false

namespace SdLoader
namespace Usb

/-! ## What has been moved -/

/-- The bytes read from a storage, or written to it, so far. -/
def World.bytes (type : MmcType) (isWrite : Bool) (w : World) : ℕ :=
  ((w.moved.filter fun t ↦ t.type = type && t.isWrite = isWrite).map (·.data.length)).sum

/-- Which way a command moves blocks, if it does. -/
def ScsiCmd.moves : ScsiCmd → Option Bool
  | .read6 => some false
  | .read10 => some false
  | .read12 => some false
  | .write6 => some true
  | .write10 => some true
  | .write12 => some true
  | _ => none

namespace Ums

variable {env : Env} {s t u v : Ums} {b : Bool} {m n : ℕ}

theorem bytes_congr {w w' : World} (h : w'.moved = w.moved) (type : MmcType) (b : Bool) :
    w'.bytes type b = w.bytes type b := by
  rw [World.bytes, World.bytes, h]

/-- What a transfer adds to it. -/
theorem access_bytes (env : Env) (isWrite : Bool) (sector count buf : ℕ) (s : Ums) (b : Bool) :
    (s.sdmmcStorageAccess env isWrite sector count buf).2.w.bytes s.lun.type b =
      s.w.bytes s.lun.type b +
        if (s.sdmmcStorageAccess env isWrite sector count buf).1 = true ∧ isWrite = b then
          lbaSize * count
        else 0 := by
  rw [sdmmcStorageAccess]
  dsimp only
  cases hok : (env s.w.tick).ok with
  | false =>
    simp [World.bytes]
  | true =>
    rw [World.bytes, World.bytes]
    by_cases hdir : isWrite = b
    · simp [hdir, Store.length_slice, Nat.add_comm]
    · simp [hdir]

/-- A transfer that has failed moves nothing. -/
theorem access_failed {isWrite : Bool} {sector count buf : ℕ}
    (h : (s.sdmmcStorageAccess env isWrite sector count buf).1 = false) :
    (s.sdmmcStorageAccess env isWrite sector count buf).2.account = s.account := by
  have hok : (env s.w.tick).ok = false := h
  rw [sdmmcStorageAccess, account, account, hok]
  rfl

/-- `m` blocks have been moved for the command, in its own direction, and taken away from what the
host has announced. -/
structure Charged (s u : Ums) (b : Bool) (m : ℕ) : Prop where
  dataSize : u.dataSize = s.dataSize
  type : u.lun.type = s.lun.type
  moved : u.w.bytes s.lun.type b = s.w.bytes s.lun.type b + lbaSize * m
  other : u.w.bytes s.lun.type (!b) = s.w.bytes s.lun.type (!b)
  residue : u.residue + lbaSize * m = s.dataSize
  limit : lbaSize * m ≤ lbaBytes (s.cmd.blocks s)
  phase : u.phaseError = 0 → lbaBytes (s.cmd.blocks s) ≤ s.dataSize

/-- It depends on the account alone. -/
theorem Charged.of_account (h : Charged s u b m) (hsame : v.account = u.account) :
    Charged s v b m := by
  have hluns : v.luns = u.luns := congrArg Account.luns hsame
  have hidx : v.lunIdx = u.lunIdx := congrArg Account.lunIdx hsame
  have hmoved : v.w.moved = u.w.moved := congrArg Account.moved hsame
  have hresidue : v.residue = u.residue := congrArg Account.residue hsame
  have hphase : v.phaseError = u.phaseError := congrArg Account.phaseError hsame
  have hlun : v.lun = u.lun := by rw [lun, lun, hluns, hidx]
  exact
    { dataSize := (congrArg Account.dataSize hsame).trans h.dataSize
      type := hlun ▸ h.type
      moved := (bytes_congr hmoved _ _).trans h.moved
      other := (bytes_congr hmoved _ _).trans h.other
      residue := hresidue ▸ h.residue
      limit := h.limit
      phase := hphase ▸ h.phase }

/-- What is noted about the unit is not on it. -/
theorem Charged.setLun (h : Charged s u b m) {f : LogicalUnit → LogicalUnit}
    (htype : ∀ l, (f l).type = l.type) : Charged s (u.setLun f) b m where
  dataSize := h.dataSize
  type := by
    rw [setLun_lun, htype]
    exact h.type
  moved := h.moved
  other := h.other
  residue := h.residue
  limit := h.limit
  phase := h.phase

theorem Charged.senseAt (h : Charged s u b m) (code info : ℕ) :
    Charged s (u.senseAt code info) b m :=
  h.setLun fun _ ↦ rfl

/-! ## Reading -/

/-- What holds each time the loop of a read begins a pass: `m` blocks have been read, and there is
room for the rest in what the host has announced. -/
structure ReadTally (s : Ums) (m : ℕ) (y : ReadLoop) : Prop where
  charged : Charged s y.s false m
  room : lbaSize * (m + y.amountLeft) ≤ lbaBytes (s.cmd.blocks s) ∧
    lbaSize * (m + y.amountLeft) ≤ s.dataSize
  reply : y.s.w.reply.length = lbaSize * m

/-- What it leaves. -/
def ReadDone (s u : Ums) : Prop := ∃ m, Charged s u false m ∧ u.w.reply.length = lbaSize * m

theorem readChunk_account (env : Env) (y : ReadLoop) (k : ℕ) (t : Ums) :
    (readChunk env y k t).account = { t.account with
      residue := t.residue - k * lbaSize
      reply := t.w.reply ++ Store.slice t.w.mem y.bufCurrent (k * lbaSize) } := by
  rw [readChunk]
  cases y.firstRead with
  | true => rfl
  | false =>
    obtain ⟨hmoved, hreply⟩ := (wait_kept env t.w).1
    change (⟨t.luns, t.lunIdx, t.lunCnt, t.cmnd, t.dataSize, t.residue - k * lbaSize, t.phaseError,
      t.tag, (t.w.waitIn env).2.moved, (t.w.waitIn env).2.reply ++ _⟩ : Account) = _
    rw [hmoved, hreply]
    rfl

/-- The blocks of a chunk are taken away, unless the transfer has failed. -/
theorem readChunk_charged (env : Env) {y : ReadLoop} {c k sector : ℕ} {r : Bool × Ums}
    (h : ReadTally s m y) (hr : y.s.sdmmcStorageAccess env false sector c y.bufCurrent = r)
    (hk : k = if r.1 then c else 0) (hc : c ≤ y.amountLeft) :
    Charged s (readChunk env y k r.2) false (m + k) ∧
      (readChunk env y k r.2).w.reply.length = lbaSize * (m + k) := by
  obtain ⟨hfits, hroom⟩ := h.room
  have hresidue := h.charged.residue
  have haccount := readChunk_account env y k r.2
  have hle : k ≤ y.amountLeft := by
    rw [hk]
    split <;> omega
  rw [lbaSize_eq] at hfits hroom hresidue
  have hrest : r.2.account = { y.s.account with moved := r.2.w.moved } := by
    rw [← hr]
    rfl
  have hbytes : ∀ b, r.2.w.bytes s.lun.type b = y.s.w.bytes s.lun.type b +
      if r.1 = true ∧ false = b then lbaSize * c else 0 := by
    intro b
    rw [← hr, ← h.charged.type]
    exact access_bytes env false sector c y.bufCurrent y.s b
  rw [hrest] at haccount
  obtain ⟨v, hv⟩ : ∃ v, v = readChunk env y k r.2 := ⟨_, rfl⟩
  rw [← hv] at haccount ⊢
  have hmoved : v.w.moved = r.2.w.moved := congrArg Account.moved haccount
  have hluns : v.luns = y.s.luns := congrArg Account.luns haccount
  have hidx : v.lunIdx = y.s.lunIdx := congrArg Account.lunIdx haccount
  have hres : v.residue = r.2.residue - k * lbaSize := congrArg Account.residue haccount
  have hreply : v.w.reply = r.2.w.reply ++ Store.slice r.2.w.mem y.bufCurrent (k * lbaSize) :=
    congrArg Account.reply haccount
  have hsame : r.2.residue = y.s.residue ∧ r.2.w.reply = y.s.w.reply := by
    rw [← hr]
    exact ⟨rfl, rfl⟩
  refine ⟨⟨(congrArg Account.dataSize haccount).trans h.charged.dataSize, ?_, ?_, ?_, ?_, ?_, ?_⟩,
    ?_⟩
  · rw [lun, hluns, hidx]
    exact h.charged.type
  · rw [bytes_congr hmoved, hbytes, h.charged.moved, hk, lbaSize_eq]
    cases r.1 with
    | false => simp
    | true =>
      simp
      omega
  · rw [bytes_congr hmoved, hbytes, h.charged.other]
    simp
  · rw [hres, hsame.1, lbaSize_eq]
    omega
  · rw [lbaSize_eq]
    omega
  · intro hphase
    exact h.charged.phase ((congrArg Account.phaseError haccount).symm.trans hphase)
  · rw [hreply, hsame.2, List.length_append, Store.length_slice, h.reply, Nat.mul_add,
      Nat.mul_comm k]

/-- **A pass of a read** keeps the tally, whatever goes wrong. -/
theorem readPass_tally (env : Env) {y : ReadLoop} (h : ReadTally s m y) :
    (readPass env 64 y).All (fun z ↦ ∃ k, ReadTally s k z) (ReadDone s) := by
  obtain ⟨c, hc⟩ : ∃ c, c = min (min y.amountLeft 64) (y.s.lun.numSectors - y.lbaOffset) := ⟨_, rfl⟩
  have hle : c ≤ y.amountLeft := by omega
  rw [readPass]
  dsimp only
  rw [← hc]
  by_cases hnone : c = 0
  · rw [if_pos hnone]
    exact ⟨m, (h.charged.senseAt _ _).of_account rfl, h.reply⟩
  rw [if_neg hnone]
  rcases hr : y.s.sdmmcStorageAccess env false (add32 y.s.lun.offset y.lbaOffset) c
    y.bufCurrent with ⟨_ | _, t⟩ <;> dsimp only
  · obtain ⟨hcharged, hreply⟩ := readChunk_charged env h hr (k := 0) rfl hle
    exact ⟨_, hcharged.senseAt _ _, hreply⟩
  · obtain ⟨hcharged, hreply⟩ := readChunk_charged env h hr (k := c) rfl hle
    split
    · exact ⟨_, hcharged, hreply⟩
    · obtain ⟨hfits, hroom⟩ := h.room
      have hsent := transferStartIn_account env false (readChunk env y c t)
      have hleft : m + c + (y.amountLeft - c) = m + y.amountLeft := by omega
      refine ⟨m + c, hcharged.of_account hsent, ?_, ?_⟩
      · rw [hleft]
        exact ⟨hfits, hroom⟩
      · exact (congrArg List.length (congrArg Account.reply hsent)).trans hreply

/-- **What a read leaves**, whatever goes wrong. -/
theorem charged_readLoop (env : Env) {y : ReadLoop} (h : ReadTally s m y) :
    ReadDone s (readLoop env y) :=
  readLoop_rule (I := fun z ↦ ∃ k, ReadTally s k z) (fun _ ⟨_, hz⟩ ↦ readPass_tally env hz) ⟨m, h⟩

/-! ## Writing -/

/-- What a write of at most `T` bytes may take away. -/
structure WriteLimit (s : Ums) (T : ℕ) : Prop where
  blocks : T ≤ lbaBytes (s.cmd.blocks s)
  announced : T ≤ s.dataSize
  fromHost : s.dataDir = .toHost → T = 0

/-- What holds each time the loop of a write begins a pass: `m` blocks have been written, and with
what is still to be asked for that is `T` bytes at most. -/
structure WriteTally (s : Ums) (T m : ℕ) (x : WriteLoop) : Prop where
  charged : Charged s x.s true m
  room : lbaSize * m + x.amountLeftToReq ≤ T
  empty : x.s.bulk.outBufState = .empty
  reply : x.s.w.reply = []

/-- What it leaves. -/
def WriteDone (s : Ums) (T : ℕ) (u : Ums) : Prop :=
  ∃ m, Charged s u true m ∧ lbaSize * m ≤ T ∧ u.w.reply = []

theorem requested_account (env : Env) {x : WriteLoop} (hreq : x.amountLeftToReq ≠ 0) :
    (x.requested env).s.account = x.s.account := by
  have hw : (x.requested env).s.w =
      (xusbDeviceEp1OutRead env x.s.bulk.outBuf x.request x.s.w).2.2 :=
    congrArg (·.2.2) (xusbDeviceEp1OutReadBig_eq env x.s.bulk.outBuf x.s.w
      (WriteLoop.request_pos hreq) x.request_le)
  have hkept := outRead_kept env x.s.bulk.outBuf x.request x.s.w
  rw [← hw] at hkept
  exact account_of_world hkept

/-- Whole blocks are written, and no more than has been asked for. -/
theorem amount_le (s : Ums) (lba : ℕ) :
    s.writeAmount lba ≤ s.bulk.outLength ∧
      lbaSize * (s.writeAmount lba / lbaSize) = s.writeAmount lba := by
  rw [writeAmount, lbaSize_eq]
  split <;> omega

/-- The end of a pass. -/
theorem emptyWrite_tally {T : ℕ} {x : WriteLoop} (h : WriteTally s T m x) :
    (emptyWrite x).All (fun y ↦ ∃ k, WriteTally s T k y) (WriteDone s T) := by
  rw [emptyWrite]
  split
  · exact ⟨m, h.charged.of_account rfl, Nat.le_of_add_right_le h.room, h.reply⟩
  · exact ⟨m, h⟩

/-- The blocks of a buffer are taken away. -/
theorem written_charged (env : Env) {T : ℕ} {x : WriteLoop} (hlimit : WriteLimit s T)
    (h : Charged s x.s true m) (hroom : lbaSize * m + x.amount ≤ T)
    (hok : (x.access env).1 = true) :
    Charged s (x.written env).s true (m + x.amount / lbaSize) := by
  have hblocks : lbaSize * (x.amount / lbaSize) = x.amount := (amount_le x.taken x.lbaOffset).2
  have hresidue := h.residue
  have hfits := hlimit.blocks
  have hannounced := hlimit.announced
  have hbytes : ∀ b, (x.access env).2.w.bytes s.lun.type b = x.s.w.bytes s.lun.type b +
      if (x.access env).1 = true ∧ true = b then lbaSize * (x.amount / lbaSize) else 0 := by
    intro b
    rw [← h.type]
    exact access_bytes env true (add32 x.taken.lun.offset x.lbaOffset) (x.amount / lbaSize)
      x.taken.bulk.outBuf x.taken b
  refine ⟨h.dataSize, h.type, ?_, ?_, ?_, ?_, h.phase⟩
  · refine (hbytes true).trans ?_
    rw [if_pos ⟨hok, rfl⟩, h.moved, Nat.mul_add, Nat.add_assoc]
  · refine (hbytes false).trans ?_
    rw [if_neg fun hno ↦ Bool.false_ne_true hno.2.symm]
    exact h.other
  · change x.s.residue - x.amount + _ = _
    rw [Nat.mul_add, hblocks]
    omega
  · rw [Nat.mul_add, hblocks]
    omega

/-- **A pass of a write** keeps the tally, whatever goes wrong. -/
theorem charged_writePass (env : Env) {T : ℕ} {x : WriteLoop} (hlimit : WriteLimit s T)
    (h : WriteTally s T m x) :
    (writePass env x).All (fun y ↦ ∃ k, WriteTally s T k y) (WriteDone s T) := by
  have hroom := h.room
  have hle : lbaSize * m ≤ T := Nat.le_of_add_right_le hroom
  by_cases hleft : x.amountLeftToWrite = 0
  · rw [writePass_done hleft]
    exact ⟨m, h.charged, hle, h.reply⟩
  by_cases hreq : x.amountLeftToReq = 0
  · rw [writePass_spin hleft hreq h.empty]
    exact ⟨m, h⟩
  by_cases hin : x.usbLbaOffset < x.s.lun.numSectors
  · obtain ⟨z, hz⟩ : ∃ z, z = x.requested env := ⟨_, rfl⟩
    have haccount := requested_account env hreq
    have hfull : z.s.bulk.outBufState = .full := by
      rw [hz]
      rfl
    have hlength : z.s.bulk.outLength = x.request := by
      rw [hz]
      rfl
    have hrequest : x.request ≤ x.amountLeftToReq := Nat.min_le_left _ _
    have hrest : z.amountLeftToReq = x.amountLeftToReq - x.request := by
      rw [hz]
      rfl
    have hamount : z.amount ≤ x.request := hlength ▸ (amount_le z.taken z.lbaOffset).1
    rw [← hz] at haccount
    have hcharged : Charged s z.s true m := h.charged.of_account haccount
    have hreply : z.s.w.reply = [] := (congrArg Account.reply haccount).trans h.reply
    rw [writePass_of_request hleft hreq hin, ← hz, writeBuffer_of_full hfull]
    split
    · exact ⟨m, (hcharged.senseAt _ _).of_account rfl, hle, hreply⟩
    split
    · have hroom' : lbaSize * m + z.amountLeftToReq ≤ T := by omega
      exact emptyWrite_tally ⟨hcharged.of_account rfl, hroom', rfl, hreply⟩
    split
    · next hok =>
      have hblocks : lbaSize * (z.amount / lbaSize) = z.amount := (amount_le z.taken z.lbaOffset).2
      have hwritten := written_charged env hlimit hcharged (by omega) hok
      refine emptyWrite_tally ⟨hwritten, ?_, rfl, hreply⟩
      have hrest' : (z.written env).amountLeftToReq = x.amountLeftToReq - x.request := hrest
      rw [hrest', Nat.mul_add, hblocks]
      omega
    · next hfail =>
      have hnone := access_failed (Bool.not_eq_true _ ▸ hfail : (z.access env).1 = false)
      exact ⟨m, (hcharged.of_account hnone).senseAt _ _, hle,
        (congrArg Account.reply hnone).trans hreply⟩
  · rw [writePass_past hleft hreq (Nat.le_of_not_lt hin)]
    exact ⟨m, h.charged.senseAt _ _, hle, h.reply⟩

/-! ## The command -/

/-- **The law of the residue.**  What is left of what the host has announced is the residue, and the
rest is the reply, or the blocks that have been moved. -/
structure Accounted (s u : Ums) : Prop where
  dataSize : u.dataSize = s.dataSize
  toHost : s.dataDir = .toHost → u.residue + u.w.reply.length = s.dataSize
  fromHost : s.dataDir ≠ .toHost → s.cmd.moves ≠ some true → u.residue = s.dataSize
  blocks : ∀ b, s.cmd.moves = some b → ∃ m, Charged s u b m

theorem Accounted.of_account (h : Accounted s u) (hsame : v.account = u.account) :
    Accounted s v where
  dataSize := (congrArg Account.dataSize hsame).trans h.dataSize
  toHost hdir := by
    have hreply : v.w.reply = u.w.reply := congrArg Account.reply hsame
    have hresidue : v.residue = u.residue := congrArg Account.residue hsame
    rw [hreply, hresidue]
    exact h.toHost hdir
  fromHost hdir hmoves := (congrArg Account.residue hsame).trans (h.fromHost hdir hmoves)
  blocks b hb := (h.blocks b hb).imp fun _ hm ↦ hm.of_account hsame

/-- The blocks of a command, in bytes, as `data_size_from_cmnd` is told them. -/
theorem spec_of_moves (h : s.cmd.moves = some b) :
    (s.cmd.spec s).dataSize = lbaBytes (s.cmd.blocks s) := by
  cases hcmd : s.cmd <;> rw [hcmd] at h <;> cases h <;> rfl

/-- The checks on the unit move nothing and report no phase error. -/
theorem checkUnit_same (mask : ℕ) (needsMedium : Bool) (v : Ums) :
    (v.checkUnit mask needsMedium).2.w = v.w ∧
      (v.checkUnit mask needsMedium).2.phaseError = v.phaseError := by
  rw [checkUnit]
  split
  · exact ⟨rfl, rfl⟩
  split
  · exact ⟨rfl, rfl⟩
  split <;> exact ⟨rfl, rfl⟩

/-- A command the size of which is not what the host has announced has a phase error. -/
theorem checked_phase (h : s.checked.2.phaseError = 0) : (s.cmd.spec s).dataSize ≤ s.dataSize := by
  by_contra hmore
  by_cases hphase : s.Misphased
  · rw [checked_of_misphased hphase] at h
    cases h
  · have hmore' : s.opened.dataSize < s.opened.dataSizeFromCmnd := Nat.lt_of_not_le hmore
    have hlimited : s.opened.limitData.phaseError = 1 := by
      rw [limitData, if_pos hmore']
    rw [checked_of_phased hphase, (checkUnit_same _ _ _).2, clearSense_phaseError, hlimited] at h
    cases h

theorem checked_moved (s : Ums) : s.checked.2.w.moved = s.w.moved := by
  by_cases hphase : s.Misphased
  · rw [checked_of_misphased hphase]
    change s.opened.limitData.w.moved = s.w.moved
    rw [limitData_w]
    rfl
  · rw [checked_of_phased hphase, (checkUnit_same _ _ _).1, clearSense_w, limitData_w]
    rfl

/-- The checks move nothing. -/
theorem charged_checked (h : s.cmd.moves = some b) : Charged s s.checked.2 b 0 := by
  obtain ⟨hkept, -⟩ := checked_kept s
  have hdoes : Does calmly never False s s.checked.2 := checked_does
  have hmoved := checked_moved s
  exact
    { dataSize := hkept.dataSize.trans (limitData_dataSize _)
      type := LogicalUnit.static_type hdoes.lun_static
      moved := bytes_congr hmoved _ _
      other := bytes_congr hmoved _ _
      residue := hkept.residue.trans (limitData_residue _)
      limit := Nat.zero_le _
      phase := fun hphase ↦ spec_of_moves h ▸ checked_phase hphase }

/-- A read that is not carried out is refused. -/
theorem scsiRead_refuses {six : Bool} (h : (s.scsiRead env six).1 ≠ .ioError) :
    (s.scsiRead env six).1 = .invalidArg ∧ ∃ code, (s.scsiRead env six).2 = s.sense code := by
  rw [scsiRead] at h ⊢
  rcases hl : s.lbaOffset six with ⟨lba, _ | _⟩ <;> rw [hl] at h
  · exact ⟨rfl, _, rfl⟩
  dsimp only at h ⊢
  by_cases hpast : s.lun.numSectors ≤ lba
  · rw [if_pos hpast]
    exact ⟨rfl, _, rfl⟩
  · rw [if_neg hpast] at h
    split at h
    · exact absurd rfl h
    · exact absurd rfl h

/-- And so is a write. -/
theorem scsiWrite_refuses {six : Bool} {r : Reply} (h : s.scsiWrite six = .replied r u) :
    r = .invalidArg ∧ ∃ code, u = s.sense code := by
  rw [scsiWrite] at h
  split at h
  · cases h
    exact ⟨rfl, _, rfl⟩
  rcases hl : s.lbaOffset six with ⟨lba, _ | _⟩ <;> rw [hl] at h
  · cases h
    exact ⟨rfl, _, rfl⟩
  dsimp only at h
  split at h
  · cases h
    exact ⟨rfl, _, rfl⟩
  · cases h

theorem refused_of_moves {r : Reply} (hmoves : s.cmd.moves = some b)
    (h : s.parseScsiCmd env = .replied r u) (hr : r ≠ .ioError) :
    r = .invalidArg ∧ (u = s.checked.2 ∨ ∃ code, u = s.checked.2.sense code) := by
  rw [parseScsiCmd] at h
  rcases hc : s.checked with ⟨_ | _, t⟩ <;> rw [hc] at h
  · cases h
    exact ⟨rfl, .inl rfl⟩
  have hread : ∀ six, Parsed.of (t.scsiRead env six) = .replied r u →
      r = .invalidArg ∧ (u = t ∨ ∃ code, u = t.sense code) := by
    intro six hsix
    cases hsix
    exact (scsiRead_refuses hr).imp_right .inr
  have hwrite : ∀ six, t.scsiWrite six = .replied r u →
      r = .invalidArg ∧ (u = t ∨ ∃ code, u = t.sense code) :=
    fun _ hsix ↦ (scsiWrite_refuses hsix).imp_right .inr
  cases hcmd : s.cmd <;> rw [hcmd] at h hmoves <;> cases hmoves
  · exact hread true h
  · exact hread false h
  · exact hread false h
  · exact hwrite true h
  · exact hwrite false h
  · exact hwrite false h

theorem Charged.sense (h : Charged s u b m) (code : ℕ) : Charged s (u.sense code) b m :=
  h.setLun fun _ ↦ rfl

/-- The two kinds of command that move blocks. -/
theorem moves_of_readSix {six : Bool} (h : s.cmd.readSix = some six) :
    s.cmd.moves = some false := by
  cases hcmd : s.cmd <;> rw [hcmd] at h <;> cases h <;> rfl

theorem moves_of_writeSix {six : Bool} (h : s.cmd.writeSix = some six) :
    s.cmd.moves = some true := by
  cases hcmd : s.cmd <;> rw [hcmd] at h <;> cases h <;> rfl

/-- A command that has answered. -/
theorem accounted_of_answers {r : Reply} (h : s.parseScsiCmd env = .replied r u)
    (hanswer : Answers s.opened.limitData r u) : Accounted s (u.setUpReply r) := by
  have hresidue : u.residue = s.dataSize := hanswer.kept.residue.trans (limitData_residue _)
  have hdir : u.dataDir = s.dataDir := hanswer.kept.dataDir.trans (limitData_dataDir _)
  have hsize : u.dataSize = s.dataSize := hanswer.kept.dataSize.trans (limitData_dataSize _)
  have hlimit : u.dataSizeFromCmnd ≤ s.dataSize := by
    rw [hanswer.kept.dataSizeFromCmnd, limitData_dataSizeFromCmnd]
    exact Nat.min_le_right _ _
  have hcharged : ∀ b, s.cmd.moves = some b → r = .invalidArg ∧ Charged s u b 0 := by
    intro b hb
    obtain ⟨hr, hu⟩ := refused_of_moves hb h hanswer.some
    refine ⟨hr, ?_⟩
    rcases hu with rfl | ⟨code, rfl⟩
    · exact charged_checked hb
    · exact (charged_checked hb).sense code
  by_cases hto : s.dataDir = .toHost
  · have hlength : u.w.reply.length = r.size := by
      rw [hanswer.reply, Store.length_slice]
    rw [setUpReply_some (hdir.trans hto) hanswer.some]
    refine ⟨hsize, fun _ ↦ ?_, fun hnot ↦ absurd hto hnot, fun b hb ↦ ⟨0, ?_⟩⟩
    · dsimp only
      rw [List.length_take, hlength, hresidue]
      omega
    · obtain ⟨rfl, hzero⟩ := hcharged b hb
      have hnone : min Reply.invalidArg.size u.dataSizeFromCmnd = 0 := Nat.zero_min _
      rw [hnone]
      exact ⟨hzero.dataSize, hzero.type, hzero.moved, hzero.other, hzero.residue, hzero.limit,
        hzero.phase⟩
  · have hsame : u.setUpReply r = u := by
      have hnot : ¬u.dataDir = .toHost := fun heq ↦ hto (hdir.symm.trans heq)
      cases r with
      | ioError => rfl
      | invalidArg => exact if_neg hnot
      | len n => exact if_neg hnot
    rw [hsame]
    exact ⟨hsize, fun hyes ↦ absurd hyes hto, fun _ _ ↦ hresidue, fun b hb ↦ ⟨0, (hcharged b hb).2⟩⟩

/-- A command that has nothing to answer leaves what the checks have left. -/
theorem accounted_checked (s : Ums) : Accounted s s.checked.2 := by
  obtain ⟨hkept, hreply⟩ := checked_kept s
  have hresidue : s.checked.2.residue = s.dataSize := hkept.residue.trans (limitData_residue _)
  refine ⟨hkept.dataSize.trans (limitData_dataSize _), fun _ ↦ ?_, fun _ _ ↦ hresidue,
    fun b hb ↦ ⟨0, charged_checked hb⟩⟩
  rw [hreply, hresidue]
  rfl

/-- A read that has been carried out. -/
theorem accounted_of_read {y : ReadLoop} (env : Env) (h : ReadsFrom s y) :
    Accounted s (readLoop env y) := by
  obtain ⟨six, hsix, -⟩ := h.cmd
  have hmoves := moves_of_readSix hsix
  obtain ⟨hkept, hreply⟩ := checked_kept s
  have hchecked := charged_checked hmoves
  rw [h.checked] at hkept hreply hchecked
  dsimp only at hkept hreply hchecked
  have hdir : s.dataDir = .toHost :=
    (hkept.dataDir.trans (limitData_dataDir _)).symm.trans h.dataDir
  have hsize : y.s.dataSizeFromCmnd = min (lbaBytes (s.cmd.blocks s)) s.dataSize := by
    rw [hkept.dataSizeFromCmnd, limitData_dataSizeFromCmnd, ← spec_of_moves hmoves]
    rfl
  have hroom : lbaSize * (0 + y.amountLeft) ≤ y.s.dataSizeFromCmnd := by
    rw [h.amount, Nat.zero_add]
    exact Nat.mul_div_le _ _
  obtain ⟨m, hcharged, hlength⟩ := charged_readLoop env (y := y) (m := 0)
    ⟨hchecked, ⟨by omega, by omega⟩, by rw [hreply]; rfl⟩
  refine ⟨hcharged.dataSize, fun _ ↦ ?_, fun hnot ↦ absurd hdir hnot, fun b hb ↦ ⟨m, ?_⟩⟩
  · rw [hlength]
    exact hcharged.residue
  · rw [hmoves] at hb
    cases hb
    exact hcharged

/-- A write that has been admitted. -/
theorem writeTally_of_admits {x : WriteLoop} (hempty : s.bulk.outBufState = .empty)
    (h : Admits s x) : s.cmd.moves = some true ∧ ∃ T, WriteLimit s T ∧ WriteTally s T 0 x := by
  obtain ⟨hc, six, hsix, hwrite⟩ := h
  have hmoves := moves_of_writeSix hsix
  obtain ⟨hentered, hamount, -⟩ := entered_of_scsiWrite hwrite
  obtain ⟨hkept, hreply⟩ := checked_kept s
  have hchecked := charged_checked hmoves
  rw [hc] at hkept hreply hchecked
  dsimp only at hkept hreply hchecked
  have hsize : x.s.dataSizeFromCmnd = min (lbaBytes (s.cmd.blocks s)) s.dataSize := by
    rw [hkept.dataSizeFromCmnd, limitData_dataSizeFromCmnd, ← spec_of_moves hmoves]
    rfl
  refine ⟨hmoves, x.s.dataSizeFromCmnd, ⟨by omega, by omega, fun hto ↦ ?_⟩, hchecked, ?_, ?_,
    hreply⟩
  · -- Data to the host is not what a write is for, so there is none.
    by_contra hsome
    have hdir := dataDir_of_checked hc hsome
    rw [hkept.dataDir, limitData_dataDir] at hdir
    have hown : (s.cmd.spec s).dataDir = .fromHost := by
      cases hcmd : s.cmd <;> rw [hcmd] at hsix <;> cases hsix <;> rfl
    rw [hown] at hdir
    have hsame : s.opened.dataDir = s.dataDir := rfl
    rw [hsame, hto] at hdir
    cases hdir
  · rw [hentered.toReq, hamount]
    omega
  · rw [hkept.bulk, limitData_bulk]
    exact hempty

/-- A write that has been left. -/
theorem accounted_of_writeDone {T : ℕ} (hmoves : s.cmd.moves = some true) (hlimit : WriteLimit s T)
    (h : WriteDone s T u) : Accounted s u := by
  obtain ⟨m, hcharged, hle, hreply⟩ := h
  have hresidue := hcharged.residue
  refine ⟨hcharged.dataSize, fun hto ↦ ?_, fun _ hnot ↦ absurd hmoves hnot, fun b hb ↦ ⟨m, ?_⟩⟩
  · have hnone := hlimit.fromHost hto
    rw [hreply]
    change u.residue + 0 = s.dataSize
    omega
  · rw [hmoves] at hb
    cases hb
    exact hcharged

/-! ## A command from its block to its status -/

/-- A poll for a reset is no part of the command. -/
theorem Charged.of_start (h : Charged t u b m) (hsame : t.account = s.account) :
    Charged s u b m := by
  have hcmnd : t.cmnd = s.cmnd := congrArg Account.cmnd hsame
  have hluns : t.luns = s.luns := congrArg Account.luns hsame
  have hidx : t.lunIdx = s.lunIdx := congrArg Account.lunIdx hsame
  have hsize : t.dataSize = s.dataSize := congrArg Account.dataSize hsame
  have hmoved : t.w.moved = s.w.moved := congrArg Account.moved hsame
  have hlun : t.lun = s.lun := by rw [lun, lun, hluns, hidx]
  have hblocks : t.cmd.blocks t = s.cmd.blocks s := by
    have hcmd : t.cmd = s.cmd := by rw [cmd, cmd, hcmnd]
    rw [hcmd]
    cases s.cmd <;> simp only [ScsiCmd.blocks, hcmnd]
  obtain ⟨hdata, htype, hmine, hother, hresidue, hlimit, hphase⟩ := h
  rw [hlun] at htype hmine hother
  rw [bytes_congr hmoved] at hmine hother
  rw [hsize] at hdata hresidue
  rw [hblocks] at hlimit
  rw [hblocks, hsize] at hphase
  exact ⟨hdata, htype, hmine, hother, hresidue, hlimit, hphase⟩

theorem Accounted.of_start (h : Accounted t u) (hsame : t.account = s.account)
    (hdir : t.dataDir = s.dataDir) : Accounted s u := by
  have hcmd : t.cmd = s.cmd := by
    have hcmnd : t.cmnd = s.cmnd := congrArg Account.cmnd hsame
    rw [cmd, cmd, hcmnd]
  have hsize : t.dataSize = s.dataSize := congrArg Account.dataSize hsame
  obtain ⟨hdata, hto, hfrom, hblocks⟩ := h
  rw [hsize] at hdata hto hfrom
  rw [hdir] at hto hfrom
  rw [hcmd] at hfrom hblocks
  exact ⟨hdata, hto, hfrom, fun b hb ↦ (hblocks b hb).imp fun _ hm ↦ hm.of_start hsame⟩

/-- What holds at every place a command goes through. -/
def CommandInv (s : Ums) : Gadget → Prop
  | .parse t => t = s
  | .writing x => ∃ t T m, t.account = s.account ∧ t.dataDir = s.dataDir ∧
      t.cmd.moves = some true ∧ WriteLimit t T ∧ WriteTally t T m x
  | g => Accounted s g.ums

theorem commandInv_parsed (h : Accounted s u) : CommandInv s (Gadget.parsed u) := by
  rw [Gadget.parsed, Gadget.loopEnd]
  split
  · split <;> exact h
  · exact h

/-- **The step lemma.** -/
theorem CommandInv.step {g : Gadget} (hempty : s.bulk.outBufState = .empty) (h : CommandInv s g)
    (hgo : ¬g.Over) (env : Env) : CommandInv s (g.step env) := by
  cases g with
  | top u | status u | exited u => exact absurd trivial hgo
  | reply u =>
    have hkept : Accounted s ((u.handleEp0Ctrl env).finishReply env).2 :=
      h.of_account ((finishReply_account env _).trans (handleEp0Ctrl_account env u))
    rw [Gadget.step]
    dsimp only
    split
    · rw [Gadget.loopEnd]
      split <;> exact hkept
    · exact hkept
  | writing x =>
    obtain ⟨t, T, m, hsame, hdir, hmoves, hlimit, htally⟩ := h
    have hpass := charged_writePass env hlimit htally
    rw [Gadget.step]
    cases hp : writePass env x with
    | again y =>
      rw [hp] at hpass
      obtain ⟨k, hk⟩ := hpass
      exact ⟨t, T, k, hsame, hdir, hmoves, hlimit, hk⟩
    | leave u =>
      rw [hp] at hpass
      exact commandInv_parsed ((accounted_of_writeDone hmoves hlimit hpass).of_start hsame hdir)
  | parse v =>
    cases h
    obtain ⟨t, ht⟩ : ∃ t, t = s.handleEp0Ctrl env := ⟨_, rfl⟩
    have hsame : t.account = s.account := ht ▸ handleEp0Ctrl_account env s
    have hdata : t.dataDir = s.dataDir ∧ t.bulk = s.bulk := by
      rw [ht, handleEp0Ctrl, poll]
      cases (env s.w.tick).flag with
      | true =>
        dsimp only
        rw [raiseException]
        split <;> exact ⟨rfl, rfl⟩
      | false => exact ⟨rfl, rfl⟩
    have his := parse_answers env t
    rw [Gadget.step, ← ht]
    cases hp : t.parseScsiCmd env with
    | replied r u =>
      rw [hp] at his
      refine commandInv_parsed (Accounted.of_start ?_ hsame hdata.1)
      rcases his with hanswer | ⟨-, rfl, hchecked⟩ | ⟨y, hread, rfl, rfl⟩
      · exact accounted_of_answers hp hanswer
      · have hu : u = t.checked.2 := by rw [hchecked]
        rw [hu]
        exact accounted_checked t
      · exact accounted_of_read env hread
    | writing x =>
      rw [hp] at his
      have hempty' : t.bulk.outBufState = .empty := hdata.2 ▸ hempty
      obtain ⟨hmoves, T, hlimit, htally⟩ := writeTally_of_admits hempty' his
      exact ⟨t, T, 0, hsame, hdata.1, hmoves, hlimit, htally⟩

/-- The command ends in `u`, and its status wrapper is due: the next step sends it, or handles the
exception that sends it. -/
def Concludes (s : Ums) (is : List Env) (u : Ums) : Prop :=
  Machine.Along Gadget.step (fun g _ ↦ ¬g.Over) (.parse s) is ∧
    (Machine.run Gadget.step (.parse s) is = .status u ∨
      Machine.run Gadget.step (.parse s) is = .top u ∧ u.state = .abortBulkOut)

/-- A command is about one unit, and has one tag. -/
theorem Concludes.kept {is : List Env} (h : s.Concludes is u) :
    u.lunIdx = s.lunIdx ∧ u.tag = s.tag := by
  obtain ⟨halong, hend⟩ := h
  have hkeep : ∀ g env, (g.WriteOk ∧ g.ums.lunIdx = s.lunIdx ∧ g.ums.tag = s.tag) → ¬g.Over →
      (Gadget.step g env).WriteOk ∧ (Gadget.step g env).ums.lunIdx = s.lunIdx ∧
        (Gadget.step g env).ums.tag = s.tag := by
    rintro g env ⟨hok, hidx, htag⟩ hgo
    have htop : ∀ t, g ≠ .top t := by
      rintro t rfl
      exact hgo trivial
    obtain ⟨hdoes, hok'⟩ := Gadget.step_does env htop hok
    exact ⟨hok', hdoes.lunIdx.trans hidx, hdoes.tag.trans htag⟩
  have hstart : (Gadget.parse s).WriteOk ∧ (Gadget.parse s).ums.lunIdx = s.lunIdx ∧
      (Gadget.parse s).ums.tag = s.tag := ⟨trivial, rfl, rfl⟩
  have hall := (Machine.run_inv_along hkeep hstart halong).2
  rcases hend with hrun | ⟨hrun, -⟩ <;> rw [hrun] at hall <;> exact hall

/-- The run lemma. -/
theorem accounted_of_concludes (hready : s.Ready) {is : List Env} (h : Concludes s is u) :
    Accounted s u := by
  obtain ⟨halong, hend⟩ := h
  have hstart : CommandInv s (.parse s) := rfl
  have hinv : CommandInv s (Machine.run Gadget.step (.parse s) is) :=
    Machine.run_inv_along (I := CommandInv s) (fun _ env hg hgo ↦ hg.step hready.empty hgo env)
      hstart halong
  rcases hend with hstatus | ⟨htop, -⟩
  · rw [hstatus] at hinv
    exact hinv
  · rw [htop] at hinv
    exact hinv

theorem Accounted.residue_le (h : Accounted s u) : u.residue ≤ s.dataSize := by
  by_cases hto : s.dataDir = .toHost
  · exact h.toHost hto ▸ Nat.le_add_right _ _
  by_cases hwrite : s.cmd.moves = some true
  · obtain ⟨m, hm⟩ := h.blocks true hwrite
    exact hm.residue ▸ Nat.le_add_right _ _
  · exact Nat.le_of_eq (h.fromHost hto hwrite)

/-- Just the blocks of the command block have been moved, in the direction of the command. -/
structure Moves (s u : Ums) (b : Bool) : Prop where
  moved : u.w.bytes s.lun.type b = s.w.bytes s.lun.type b + lbaSize * s.cmd.blocks s
  other : u.w.bytes s.lun.type (!b) = s.w.bytes s.lun.type (!b)

/-- **When a command that passes has moved its blocks.** -/
theorem Charged.moves_iff (h : Charged s u b m) (hpasses : u.Passes) :
    Moves s u b ↔ s.cmd.blocks s * lbaSize < 2 ^ 32 := by
  have hphase : u.phaseError = 0 := by
    by_contra herror
    have hstatus := hpasses.status
    rw [status, if_pos herror] at hstatus
    cases hstatus
  have hfits := h.phase hphase
  have hlimit := h.limit
  have hresidue := h.residue
  rw [hpasses.residue, Nat.zero_add] at hresidue
  -- All that has been announced has been moved, and it is as much as the command was taken to be
  -- for.
  have hall : lbaSize * m = lbaBytes (s.cmd.blocks s) := by omega
  rw [lbaBytes] at hall
  have hblocks : Moves s u b ↔ lbaSize * m = lbaSize * s.cmd.blocks s := by
    constructor
    · intro hmoves
      have hmoved := hmoves.moved
      rw [h.moved] at hmoved
      exact Nat.add_left_cancel hmoved
    · intro heq
      exact ⟨heq ▸ h.moved, h.other⟩
  rw [hblocks, hall, Nat.mul_comm lbaSize]
  constructor
  · intro heq
    rw [← heq]
    exact Nat.mod_lt _ (by decide)
  · exact Nat.mod_eq_of_lt

end Ums

/-- **The residue in a status wrapper.**  For every command and every outcome, the residue is what
is left of what the host has announced.  A read or a write that passes with no residue has moved
just the blocks of its command block if and only if their size in bytes fits into 32 bits.  The
wrapper the host is sent, unless the session is ended first, is the one of the command, with this
residue and this status. -/
theorem residue_law {volumes : List Volume} {secCnt : MmcType → ℕ} {s u : Ums}
    (hreach : Reachable volumes secCnt (.parse s)) {is : List Env} (h : s.Concludes is u) :
    s.Accounted u ∧ u.residue ≤ s.dataSize ∧ (∀ b, s.cmd.moves = some b → u.Passes →
      (s.Moves u b ↔ s.cmd.blocks s * lbaSize < 2 ^ 32)) ∧
      ∀ k, ¬(Machine.run Gadget.step (.parse s) is).Quits k →
        (Machine.run Gadget.step (.parse s) is).Reports k s.tag u.residue u.status := by
  have haccounted := Ums.accounted_of_concludes (Gadget.ready_of_reachable hreach) h
  refine ⟨haccounted, haccounted.residue_le, fun b hb hpasses ↦ ?_, fun k hstay ↦ ?_⟩
  · obtain ⟨m, hm⟩ := haccounted.blocks b hb
    exact hm.moves_iff hpasses
  · have hdue : (Machine.run Gadget.step (.parse s) is).Due u := h.2
    have hreports := hdue.reported k hstay
    rwa [h.kept.2] at hreports

/-- After the first command, a command block that is to have data sent to the host is received. -/
def announces (dataSize : ℕ) (cdb : List UInt8) : List Env :=
  firstCommand 0 ++ [hears (wrapper dataSize 0x80 0 cdb)]

/-- The reply to it has been sent, and its status is due. -/
def replies (s : Ums) : Ums := (Machine.run Gadget.step (.parse s) [calmly, calmly]).ums

/-- A read of one block. -/
def oneBlock : Ums :=
  (Machine.run Gadget.step (firstGadget [sdVolume])
    (announces 512 [0x28, 0, 0, 0, 0, 5, 0, 0, 1, 0])).ums

theorem residue_law_oneBlock : oneBlock.Accounted (replies oneBlock) ∧
    (replies oneBlock).residue ≤ oneBlock.dataSize ∧
    (∀ b, oneBlock.cmd.moves = some b → (replies oneBlock).Passes →
      (oneBlock.Moves (replies oneBlock) b ↔ oneBlock.cmd.blocks oneBlock * lbaSize < 2 ^ 32)) ∧
    ∀ k, ¬(Machine.run Gadget.step (.parse oneBlock) [calmly, calmly]).Quits k →
      (Machine.run Gadget.step (.parse oneBlock) [calmly, calmly]).Reports k oneBlock.tag
        (replies oneBlock).residue (replies oneBlock).status := by
  have hreach : Reachable [sdVolume] (fun _ ↦ 0x1000) (.parse oneBlock) :=
    ⟨_, announces 512 [0x28, 0, 0, 0, 0, 5, 0, 0, 1, 0], starts_firstGadget (by decide), rfl⟩
  have hconcludes : oneBlock.Concludes [calmly, calmly] (replies oneBlock) :=
    ⟨⟨fun h ↦ h, fun h ↦ h, trivial⟩, .inl rfl⟩
  exact residue_law hreach hconcludes

/-- A read of 0x800001 blocks, of which the host announces one. -/
def wrapped : Ums :=
  (Machine.run Gadget.step (firstGadget [sdVolume])
    (announces 512 [0xA8, 0, 0, 0, 0, 5, 0x00, 0x80, 0x00, 0x01, 0, 0])).ums

/-- It passes, has no residue, and has read one block. -/
theorem residue_counterexample :
    ¬∀ (s u : Ums) (is : List Env), Reachable [sdVolume] (fun _ ↦ 0x1000) (.parse s) →
      s.Concludes is u → u.residue ≤ s.dataSize ∧
        ∀ b, s.cmd.moves = some b → u.Passes → s.Moves u b := by
  intro h
  have hreach : Reachable [sdVolume] (fun _ ↦ 0x1000) (.parse wrapped) :=
    ⟨_, announces 512 [0xA8, 0, 0, 0, 0, 5, 0x00, 0x80, 0x00, 0x01, 0, 0],
      starts_firstGadget (by decide), rfl⟩
  have hconcludes : wrapped.Concludes [calmly, calmly] (replies wrapped) :=
    ⟨⟨fun h ↦ h, fun h ↦ h, trivial⟩, .inl rfl⟩
  obtain ⟨-, hmoves⟩ := h wrapped (replies wrapped) _ hreach hconcludes
  have hpasses : (replies wrapped).Passes := ⟨by decide +kernel, by decide +kernel⟩
  have hmoved := (hmoves false rfl hpasses).moved
  exact absurd hmoved (by decide +kernel)

end Usb
end SdLoader
