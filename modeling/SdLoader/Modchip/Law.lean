import SdLoader.Lib.Machine
import SdLoader.Modchip.Effect

/-!
# BOOT0 as a store

The functions of `sdloader/modchip.c` share two sectors of BOOT0 and one staging buffer, and the
image of the loader ends where the sector of the descriptor and the configuration begins.  Seen from
outside they are a store with one cell, the configuration: `modchip_set_cfg` writes it,
`modchip_get_cfg` reads it, and everything else leaves it alone.

* `Cfg.Same` — two configurations are the same twelve bytes and the same fields; `same_ofBytes` and
  `bytes_ofBytes` are the two directions of the encoding;
* `Call` — the calls the law is about, and `Client` — a program that makes them, which keeps the
  configuration it saved last;
* `stored_step`, `stored_run` — the medium holds that configuration, in a sector that is otherwise
  as it was at the start;
* `boot0_store_law` — so that is what the next read of it returns.
-/

set_option autoImplicit false

namespace SdLoader
namespace Modchip

variable {env : Env} {s : State}

/-! ## The bytes of a configuration -/

/-- The fields have values of their types in `sd_loader_cfg_t`. -/
structure Cfg.InRange (c : Cfg) : Prop where
  magic1 : c.magic1 < 2 ^ 32
  magic2 : c.magic2 < 2 ^ 32
  defaultPayloadVol : c.defaultPayloadVol < 8
  defaultAction : c.defaultAction < 4

/-- The same configuration: the same in memory, and so in every field. -/
structure Cfg.Same (c d : Cfg) : Prop where
  bytes : ∀ k < cfgSize, c.bytes k = d.bytes k
  magic1 : c.magic1 = d.magic1
  magic2 : c.magic2 = d.magic2
  defaultPayloadVol : c.defaultPayloadVol = d.defaultPayloadVol
  defaultAction : c.defaultAction = d.defaultAction
  disableOfwBtnCombo : c.disableOfwBtnCombo = d.disableOfwBtnCombo
  disableMenuBtnCombo : c.disableMenuBtnCombo = d.disableMenuBtnCombo

/-- The flag byte as a number. -/
theorem Cfg.flags_toNat (c : Cfg) : c.flags.toNat =
    c.defaultPayloadVol % 8 + 8 * (c.defaultAction % 4) + 32 * c.disableOfwBtnCombo.toNat
      + 64 * c.disableMenuBtnCombo.toNat + 128 * ((c.unused 0).toNat / 128) := by
  have h0 := (c.unused 0).toNat_lt
  have h1 := c.disableOfwBtnCombo.toNat_lt
  have h2 := c.disableMenuBtnCombo.toNat_lt
  rw [Cfg.flags, UInt8.toNat_ofNat']
  omega

theorem toNat_decide_bit (n : ℕ) : (decide (n % 2 = 1)).toNat = n % 2 := by
  rcases Nat.mod_two_eq_zero_or_one n with h | h <;> simp [h]

/-- The flag byte of what was read is the one that was there. -/
theorem flags_ofBytes (b : ℕ → UInt8) : (Cfg.ofBytes b).flags = b 8 := by
  have h8 := (b 8).toNat_lt
  have hofw : (Cfg.ofBytes b).disableOfwBtnCombo.toNat = (b 8).toNat / 32 % 2 :=
    toNat_decide_bit _
  have hmenu : (Cfg.ofBytes b).disableMenuBtnCombo.toNat = (b 8).toNat / 64 % 2 :=
    toNat_decide_bit _
  apply UInt8.toNat_inj.mp
  rw [Cfg.flags_toNat, hofw, hmenu]
  simp only [Cfg.ofBytes, Nat.add_zero]
  omega

/-- **Reading twelve bytes and writing them back.** -/
theorem bytes_ofBytes (b : ℕ → UInt8) {k : ℕ} (hk : k < cfgSize) :
    (Cfg.ofBytes b).bytes k = b k := by
  rw [cfgSize] at hk
  rw [Cfg.bytes]
  by_cases h4 : k < 4
  · rw [if_pos h4]
    have hword := Store.wordByte_word b 0 h4
    rwa [Nat.zero_add] at hword
  rw [if_neg h4]
  by_cases h8 : k < 8
  · rw [if_pos h8]
    have hword := Store.wordByte_word b 4 (show k - 4 < 4 by omega)
    rwa [show 4 + (k - 4) = k by omega] at hword
  rw [if_neg h8]
  by_cases heq : k = 8
  · rw [if_pos heq, flags_ofBytes, heq]
  · rw [if_neg heq]
    exact congrArg b (show 8 + (k - 8) = k by omega)

/-- **Writing a configuration and reading it back.** -/
theorem same_ofBytes {c : Cfg} (hc : c.InRange) {b : ℕ → UInt8}
    (h : ∀ k < cfgSize, b k = c.bytes k) : (Cfg.ofBytes b).Same c := by
  have h8 : (b 8).toNat = c.flags.toNat := by
    rw [h 8 (by decide), Cfg.bytes, if_neg (by decide), if_neg (by decide), if_pos rfl]
  rw [c.flags_toNat] at h8
  have hvol := hc.defaultPayloadVol
  have hact := hc.defaultAction
  have hofw : c.disableOfwBtnCombo.toNat < 2 := c.disableOfwBtnCombo.toNat_lt
  have hmenu : c.disableMenuBtnCombo.toNat < 2 := c.disableMenuBtnCombo.toNat_lt
  have hbool : ∀ d : Bool, decide (d.toNat = 1) = d := by decide
  refine ⟨fun k hk ↦ (bytes_ofBytes b hk).trans (h k hk), ?_, ?_, ?_, ?_, ?_, ?_⟩
  · refine Store.word_eq_of_wordByte hc.magic1 fun k hk ↦ ?_
    rw [Nat.zero_add, h k (by rw [cfgSize]; omega), Cfg.bytes, if_pos hk]
  · refine Store.word_eq_of_wordByte hc.magic2 fun k hk ↦ ?_
    rw [h (4 + k) (by rw [cfgSize]; omega), Cfg.bytes, if_neg (by omega), if_pos (by omega),
      Nat.add_sub_cancel_left]
  · change (b 8).toNat % 8 = _
    omega
  · change (b 8).toNat / 8 % 4 = _
    omega
  · change decide ((b 8).toNat / 32 % 2 = 1) = _
    rw [← hbool c.disableOfwBtnCombo]
    exact decide_eq_decide.mpr (by omega)
  · change decide ((b 8).toNat / 64 % 2 = 1) = _
    rw [← hbool c.disableMenuBtnCombo]
    exact decide_eq_decide.mpr (by omega)

/-! ## The calls -/

/-- A call the law is about. -/
inductive Call
  /-- `modchip_set_cfg` -/
  | setCfg (c : Cfg) (h : c.InRange)
  /-- `modchip_get_cfg`, into a variable that holds `c`. -/
  | getCfg (c : Cfg)
  /-- `modchip_read_desc`, into a variable that holds `d`. -/
  | readDesc (d : Desc)
  /-- `modchip_write_rst_cmd` -/
  | writeRstCmd
  /-- `modchip_write_rollback_cmd` -/
  | writeRollbackCmd
  /-- `modchip_write_fw_update_cmd` -/
  | writeFwUpdateCmd (sectorStart sectorCnt : ℕ)
  /-- `modchip_write_bl_update_cmd` -/
  | writeBlUpdateCmd (sectorStart sectorCnt : ℕ)
  /-- `modchip_write_ipl_update_from_file`, of a file that is not too large. -/
  | writeIplUpdateFromFile (f : Fil) (h : f.size ≤ blMaxSize)

/-- Make a call: did it return true, and the state after it. -/
def Call.run (env : Env) (s : State) : Call → Bool × State
  | .setCfg c _ => modchipSetCfg env c s
  | .getCfg c => ((modchipGetCfg env c s).1, (modchipGetCfg env c s).2.2)
  | .readDesc d => ((modchipReadDesc env d s).1, (modchipReadDesc env d s).2.2)
  | .writeRstCmd => modchipWriteRstCmd env s
  | .writeRollbackCmd => modchipWriteRollbackCmd env s
  | .writeFwUpdateCmd start cnt => modchipWriteFwUpdateCmd env start cnt s
  | .writeBlUpdateCmd start cnt => modchipWriteBlUpdateCmd env start cnt s
  | .writeIplUpdateFromFile f _ => modchipWriteIplUpdateFromFile env f s

/-- A program that calls these functions, and remembers the configuration it saved last. -/
structure Client where
  /-- Memory and BOOT0. -/
  disk : State
  /-- The last configuration `modchip_set_cfg` returned true for; before there is one, what BOOT0
  held at the start. -/
  saved : Cfg

/-- The configuration the program remembers after a call that returned `res`. -/
def Call.saved (res : Bool) (before : Cfg) : Call → Cfg
  | .setCfg c _ => if res then c else before
  | _ => before

/-- The program makes a call. -/
def Client.step (env : Env) (t : Client) (call : Call) : Client :=
  match call.run env t.disk with
  | (res, disk) => ⟨disk, call.saved res t.saved⟩

/-- The first byte of the sector of the descriptor and the configuration. -/
def cfgSectorStart : ℕ := sectorSize * cfgSector

/-- The configuration on the medium. -/
def cfgOnMedium (boot0 : ℕ → UInt8) : Cfg := .ofBytes fun k ↦ boot0 (cfgSectorStart + cfgOffset + k)

/-- The program before its first call. -/
def Client.start (mem boot0 : ℕ → UInt8) : Client := ⟨.start mem boot0, cfgOnMedium boot0⟩

/-- An operation that fails leaves BOOT0 as it is.  What it leaves in memory, which begins far
behind the addresses of BOOT0, is open. -/
def KeepsMedium (env : Env) : Prop :=
  ∀ t, (env t).ok = false → ∀ x < cfgSectorStart + sectorSize, (env t).hit x = false

/-! ## What the calls leave alone -/

/-- Sector 1 and the sectors of the loader's image end before the last sector. -/
theorem commandSector_below {x : ℕ} (hx : cfgSectorStart ≤ x) :
    sectorSize * 1 + sectorSize ≤ x := by
  rw [cfgSectorStart, cfgSector, sectorSize_eq] at hx
  rw [sectorSize_eq]
  omega

theorem diskRead_boot0 (env : Env) (buf sector count : ℕ) (s : State) :
    (diskRead env buf sector count s).2.boot0 = s.boot0 := by
  cases h : (env s.tick).ok with
  | true => rw [diskRead_ok h]
  | false => rw [diskRead_error h]

theorem fRead_boot0 (env : Env) (f : Fil) (buf btr : ℕ) (s : State) :
    (fRead env f buf btr s).2.2.2.boot0 = s.boot0 := by
  cases h : (env s.tick).ok with
  | true => rw [fRead_ok h]
  | false => rw [fRead_error h]

/-- A write changes nothing outside the sectors it was given. -/
theorem diskWrite_outside {buf sector count x : ℕ}
    (h : x < sectorSize * sector ∨ sectorSize * sector + sectorSize * count ≤ x) :
    (diskWrite env buf sector count s).2.boot0 x = s.boot0 x := by
  cases hok : (env s.tick).ok with
  | true => simpa only [diskWrite_ok hok] using Store.blit_of_not_mem h
  | false => simpa only [diskWrite_error hok] using Store.smear_of_not_mem h

theorem modchipWriteCmd_last (c : Cmd) {x : ℕ} (hx : cfgSectorStart ≤ x) :
    (modchipWriteCmd env c s).2.boot0 x = s.boot0 x := by
  have hread := diskRead_boot0 env sdmmcUpperBuffer cmdSector 1 s
  rw [modchipWriteCmd]
  rcases hr : diskRead env sdmmcUpperBuffer cmdSector 1 s with ⟨_ | _, s₁⟩ <;> rw [hr] at hread
  · have hwrite : (diskWrite env sdmmcUpperBuffer cmdSector 1 (memcpy (sdmmcUpperBuffer + cmdOffset)
        c.bytes 12 (memset (sdmmcUpperBuffer + cmdOffset) 0 0x10 s₁))).2.boot0 x = s₁.boot0 x :=
      diskWrite_outside (.inr (commandSector_below hx))
    exact hwrite.trans (congrFun hread x)
  · exact congrFun hread x

theorem modchipWriteRstCmd_last {x : ℕ} (hx : cfgSectorStart ≤ x) :
    (modchipWriteRstCmd env s).2.boot0 x = s.boot0 x := by
  have hread := diskRead_boot0 env sdmmcUpperBuffer 1 1 s
  rw [modchipWriteRstCmd]
  rcases hr : diskRead env sdmmcUpperBuffer 1 1 s with ⟨_ | _, s₁⟩ <;> rw [hr] at hread
  · exact congrFun hread x
  · have hwrite :
        (diskWrite env sdmmcUpperBuffer 1 1 (memset sdmmcUpperBuffer 0 256 s₁)).2.boot0 x =
          s₁.boot0 x := diskWrite_outside (.inr (commandSector_below hx))
    simp only [DResult.val, Nat.one_ne_zero, ↓reduceIte]
    rcases hw : diskWrite env sdmmcUpperBuffer 1 1 (memset sdmmcUpperBuffer 0 256 s₁) with
      ⟨_ | _, s₂⟩ <;> rw [hw] at hwrite
    · exact hwrite.trans (congrFun hread x)
    · exact ((modchipWriteCmd_last _ hx).trans hwrite).trans (congrFun hread x)

/-- The image of the loader, and the reset after one that could not be written. -/
theorem modchipWriteIplUpdateFromFile_last {f : Fil} (hf : f.size ≤ blMaxSize) {x : ℕ}
    (hx : cfgSectorStart ≤ x) :
    (modchipWriteIplUpdateFromFile env f s).2.boot0 x = s.boot0 x := by
  have hsize : f.fSize ≤ blMaxSize := Nat.le_trans f.fSize_le hf
  have hend : sectorSize * blStartSector + sectorSize * ((f.fSize + 0x1ff) / 0x200) ≤ x := by
    rw [cfgSectorStart, cfgSector, sectorSize_eq] at hx
    rw [blMaxSize] at hsize
    rw [sectorSize_eq, blStartSector]
    omega
  rw [modchipWriteIplUpdateFromFile]
  split
  · rfl
  rw [readThenWrite]
  have hread := fRead_boot0 env f sdmmcUpperBuffer f.fSize
    (memset (sdmmcUpperBuffer + alignDown f.fSize) 0 0x200 s)
  rcases hr : fRead env f sdmmcUpperBuffer f.fSize
    (memset (sdmmcUpperBuffer + alignDown f.fSize) 0 0x200 s) with ⟨_ | _, br, f', s₂⟩ <;>
    rw [hr] at hread
  · dsimp only
    split
    · exact congrFun hread x
    have hwrite : (diskWrite env sdmmcUpperBuffer blStartSector ((f.fSize + 0x1ff) / 0x200)
        s₂).2.boot0 x = s₂.boot0 x := diskWrite_outside (.inr hend)
    rw [modchipWriteIplUpdate, writeImage]
    rcases hw : diskWrite env sdmmcUpperBuffer blStartSector ((f.fSize + 0x1ff) / 0x200) s₂ with
      ⟨_ | _, s₃⟩ <;> rw [hw] at hwrite
    · exact hwrite.trans (congrFun hread x)
    · exact ((modchipWriteRstCmd_last hx).trans hwrite).trans (congrFun hread x)
  · exact congrFun hread x

/-! ## Saving and reading the configuration -/

/-- A write of the last sector that fails leaves it as it was. -/
theorem diskWrite_kept (hkept : KeepsMedium env) {buf : ℕ} (hfail : (env s.tick).ok = false) :
    (diskWrite env buf cfgSector 1 s).2.boot0 = s.boot0 := by
  rw [diskWrite_error hfail]
  funext x
  refine if_neg fun ⟨_, hx, hhit⟩ ↦ ?_
  rw [Nat.mul_one] at hx
  rw [hkept _ hfail x hx] at hhit
  exact Bool.false_ne_true hhit

/-- The sector as it was with the configuration in it, written back. -/
theorem blit_sector (m b : ℕ → UInt8) (a : ℕ) (src : ℕ → UInt8) :
    Store.blit b a sectorSize (fun k ↦
      Store.blit (Store.blit m sdmmcUpperBuffer sectorSize fun j ↦ b (a + j))
        (sdmmcUpperBuffer + cfgOffset) cfgSize src (sdmmcUpperBuffer + k)) =
      Store.blit b (a + cfgOffset) cfgSize src := by
  have hfits : cfgOffset + cfgSize ≤ sectorSize := by decide
  funext x
  by_cases hx : a ≤ x ∧ x < a + sectorSize
  · obtain ⟨k, rfl⟩ := Nat.exists_eq_add_of_le hx.1
    have hk : k < sectorSize := by omega
    rw [Store.blit_add hk]
    by_cases hin : cfgOffset ≤ k ∧ k < cfgOffset + cfgSize
    · rw [Store.blit_of_mem (by omega) (by omega), Store.blit_of_mem (by omega) (by omega)]
      exact congrArg src (by omega)
    · rw [Store.blit_of_not_mem (by omega), Store.blit_add hk, Store.blit_of_not_mem (by omega)]
  · rw [Store.blit_of_not_mem (by omega), Store.blit_of_not_mem (by omega)]

/-- **What saving a configuration does**: its twelve bytes, or nothing. -/
theorem modchipSetCfg_spec (hkept : KeepsMedium env) (c : Cfg) (s : State) :
    (modchipSetCfg env c s).1 = true ∧ (modchipSetCfg env c s).2.boot0 =
        Store.blit s.boot0 (cfgSectorStart + cfgOffset) cfgSize c.bytes ∨
      (modchipSetCfg env c s).1 = false ∧ (modchipSetCfg env c s).2.boot0 = s.boot0 := by
  rw [modchipSetCfg]
  cases h0 : (env s.tick).ok with
  | false =>
    rw [diskRead_error h0]
    exact .inr ⟨rfl, rfl⟩
  | true =>
    rw [diskRead_ok h0]
    dsimp only
    set s₁ := memcpy (sdmmcUpperBuffer + cfgOffset) c.bytes cfgSize { s with
      tick := s.tick + 1
      diskOps := ⟨false, cfgSector, 1, fun _ ↦ 0, true⟩ :: s.diskOps
      memWrites := (sdmmcUpperBuffer, sectorSize * 1) :: s.memWrites
      mem := Store.blit s.mem sdmmcUpperBuffer (sectorSize * 1) fun k ↦
        s.boot0 (sectorSize * cfgSector + k) } with hs₁
    cases h1 : (env s₁.tick).ok with
    | false =>
      have hsame : (diskWrite env sdmmcUpperBuffer cfgSector 1 s₁).2.boot0 = s₁.boot0 :=
        diskWrite_kept hkept h1
      rw [diskWrite_error h1] at hsame ⊢
      exact .inr ⟨rfl, hsame⟩
    | true =>
      have hblit := blit_sector s.mem s.boot0 cfgSectorStart c.bytes
      rw [diskWrite_ok h1]
      exact .inl ⟨rfl, by simpa only [hs₁, memcpy, Nat.mul_one, cfgSectorStart] using hblit⟩

/-- What reading the configuration returns is what the medium holds. -/
theorem modchipGetCfg_spec {c : Cfg} (h : (modchipGetCfg env c s).1 = true) :
    ∃ b : ℕ → UInt8, (modchipGetCfg env c s).2.1 = Cfg.ofBytes b ∧
      ∀ k < cfgSize, b k = s.boot0 (cfgSectorStart + cfgOffset + k) := by
  rw [modchipGetCfg] at h ⊢
  cases h0 : (env s.tick).ok with
  | false =>
    rw [diskRead_error h0] at h
    exact absurd h Bool.false_ne_true
  | true =>
    rw [diskRead_ok h0]
    refine ⟨_, rfl, fun k hk ↦ ?_⟩
    have hlt : cfgOffset + k < sectorSize * 1 := by
      rw [cfgSize] at hk
      rw [cfgOffset, sectorSize_eq]
      omega
    dsimp only
    rw [Nat.add_assoc, Store.blit_add hlt, cfgSectorStart, Nat.add_assoc]

/-! ## The law -/

/-- The medium holds the configuration saved last, in a sector that is otherwise as it was. -/
structure Stored (boot0 : ℕ → UInt8) (t : Client) : Prop where
  /-- The configuration. -/
  cfg : ∀ k < cfgSize, t.disk.boot0 (cfgSectorStart + cfgOffset + k) = t.saved.bytes k
  /-- The rest of the sector. -/
  rest : ∀ k < sectorSize, k < cfgOffset ∨ cfgOffset + cfgSize ≤ k →
    t.disk.boot0 (cfgSectorStart + k) = boot0 (cfgSectorStart + k)
  /-- The configuration is that of a `sd_loader_cfg_t`. -/
  inRange : t.saved.InRange

theorem inRange_ofBytes (b : ℕ → UInt8) : (Cfg.ofBytes b).InRange :=
  ⟨Store.word_lt b 0, Store.word_lt b 4, Nat.mod_lt _ (by decide), Nat.mod_lt _ (by decide)⟩

theorem stored_start (mem boot0 : ℕ → UInt8) : Stored boot0 (.start mem boot0) :=
  ⟨fun _ hk ↦ (bytes_ofBytes (fun k ↦ boot0 (cfgSectorStart + cfgOffset + k)) hk).symm,
    fun _ _ _ ↦ rfl, inRange_ofBytes _⟩

/-- A call other than `modchip_set_cfg` changes no byte of the last sector. -/
theorem Call.run_last {call : Call} (hcall : ∀ c h, call ≠ .setCfg c h) {x : ℕ}
    (hx : cfgSectorStart ≤ x) : (call.run env s).2.boot0 x = s.boot0 x := by
  cases call with
  | setCfg c h => exact absurd rfl (hcall c h)
  | getCfg c =>
    rw [Call.run, modchipGetCfg]
    have hread := diskRead_boot0 env sdmmcUpperBuffer cfgSector 1 s
    rcases hr : diskRead env sdmmcUpperBuffer cfgSector 1 s with ⟨_ | _, s₁⟩ <;>
      rw [hr] at hread <;>
      exact congrFun hread x
  | readDesc d => exact congrFun (modchipReadDesc_boot0 env d s) x
  | writeRstCmd => exact modchipWriteRstCmd_last hx
  | writeRollbackCmd => exact modchipWriteCmd_last _ hx
  | writeFwUpdateCmd start cnt => exact modchipWriteCmd_last _ hx
  | writeBlUpdateCmd start cnt => exact modchipWriteCmd_last _ hx
  | writeIplUpdateFromFile f h => exact modchipWriteIplUpdateFromFile_last h hx

/-- **Every call keeps the law.** -/
theorem stored_step (hkept : KeepsMedium env) {boot0 : ℕ → UInt8} (t : Client) (call : Call)
    (h : Stored boot0 t) : Stored boot0 (t.step env call) := by
  by_cases hset : ∃ c hc, call = .setCfg c hc
  · obtain ⟨c, hc, rfl⟩ := hset
    have hspec := modchipSetCfg_spec hkept c t.disk
    rw [Client.step, Call.run]
    rcases hrun : modchipSetCfg env c t.disk with ⟨res, disk⟩
    rw [hrun] at hspec
    rcases hspec with ⟨rfl, hnew⟩ | ⟨rfl, hsame⟩
    · refine ⟨fun k hk ↦ ?_, fun k hk hout ↦ ?_, hc⟩
      · exact (congrFun hnew _).trans (Store.blit_add hk)
      · exact ((congrFun hnew _).trans (Store.blit_of_not_mem (by omega))).trans (h.rest k hk hout)
    · exact ⟨fun k hk ↦ (congrFun hsame _).trans (h.cfg k hk),
        fun k hk hout ↦ (congrFun hsame _).trans (h.rest k hk hout), h.inRange⟩
  · have hother : ∀ c hc, call ≠ .setCfg c hc := fun c hc heq ↦ hset ⟨c, hc, heq⟩
    have hsaved : ∀ res, call.saved res t.saved = t.saved := by
      intro res
      cases call <;> first | rfl | exact absurd rfl (hother _ _)
    have hlast : ∀ k, (call.run env t.disk).2.boot0 (cfgSectorStart + k) =
        t.disk.boot0 (cfgSectorStart + k) :=
      fun k ↦ Call.run_last hother (Nat.le_add_right cfgSectorStart k)
    rw [Client.step]
    rcases hrun : call.run env t.disk with ⟨res, disk⟩
    rw [hrun] at hlast
    dsimp only at hlast ⊢
    rw [hsaved]
    refine ⟨fun k hk ↦ ?_, fun k hk hout ↦ (hlast k).trans (h.rest k hk hout), h.inRange⟩
    rw [Nat.add_assoc, hlast, ← Nat.add_assoc]
    exact h.cfg k hk

theorem stored_run (hkept : KeepsMedium env) (mem boot0 : ℕ → UInt8) (calls : List Call) :
    Stored boot0 (Machine.run (Client.step env) (.start mem boot0) calls) :=
  Machine.run_inv (stored_step hkept) (stored_start mem boot0) calls

/-- **The law of the store.**  After any calls, in any order, of which any may fail, a read of the
configuration that succeeds returns the one saved last, and the rest of its sector is as it was. -/
theorem boot0_store_law (hkept : KeepsMedium env) (mem boot0 : ℕ → UInt8) (calls : List Call) :
    (∀ c, (modchipGetCfg env c (Machine.run (Client.step env) (.start mem boot0) calls).disk).1 =
        true →
      (modchipGetCfg env c (Machine.run (Client.step env) (.start mem boot0) calls).disk).2.1.Same
        (Machine.run (Client.step env) (.start mem boot0) calls).saved) ∧
    ∀ k < sectorSize, k < cfgOffset ∨ cfgOffset + cfgSize ≤ k →
      (Machine.run (Client.step env) (.start mem boot0) calls).disk.boot0 (cfgSectorStart + k) =
        boot0 (cfgSectorStart + k) := by
  have hstored := stored_run hkept mem boot0 calls
  refine ⟨fun c hget ↦ ?_, hstored.rest⟩
  obtain ⟨b, hb, hbytes⟩ := modchipGetCfg_spec hget
  rw [hb]
  exact same_ofBytes hstored.inRange fun k hk ↦ (hbytes k hk).trans (hstored.cfg k hk)

/-- The settings saved, a command sent, the largest image the loader can have written, and the
settings saved again with another default action. -/
def saveTwice : List Call :=
  [.setCfg defaultCfg ⟨by decide, by decide, by decide, by decide⟩, .writeRollbackCmd,
   .writeIplUpdateFromFile (.opened blMaxSize fun _ ↦ 0xAA) (Nat.le_refl _), .getCfg defaultCfg,
   .setCfg { defaultCfg with defaultAction := 2 } ⟨by decide, by decide, by decide, by decide⟩]

/-- A device on which the first operation fails, and changes everything in memory it could. -/
def firstFails : Env := fun t ↦ ⟨decide (t ≠ 0), 0, fun x ↦ decide (0x40000000 ≤ x), fun _ ↦ 0xFF⟩

theorem keepsMedium_firstFails : KeepsMedium firstFails := by
  intro t _ x hx
  exact decide_eq_false (by rw [cfgSectorStart, cfgSector, sectorSize_eq] at hx; omega)

theorem boot0_store_law_saveTwice :
    (∀ c, (modchipGetCfg firstFails c (Machine.run (Client.step firstFails)
        (.start (fun _ ↦ 0) fun _ ↦ 0x5A) saveTwice).disk).1 = true →
      (modchipGetCfg firstFails c (Machine.run (Client.step firstFails)
        (.start (fun _ ↦ 0) fun _ ↦ 0x5A) saveTwice).disk).2.1.Same
        (Machine.run (Client.step firstFails) (.start (fun _ ↦ 0) fun _ ↦ 0x5A) saveTwice).saved) ∧
    ∀ k < sectorSize, k < cfgOffset ∨ cfgOffset + cfgSize ≤ k →
      (Machine.run (Client.step firstFails)
        (.start (fun _ ↦ 0) fun _ ↦ 0x5A) saveTwice).disk.boot0 (cfgSectorStart + k) = 0x5A :=
  boot0_store_law keepsMedium_firstFails (fun _ ↦ 0) (fun _ ↦ 0x5A) saveTwice

end Modchip
end SdLoader
