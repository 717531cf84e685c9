import SdLoader.Image.Package

/-!
# Bootloader entries read back

An entry is written from front to back, and so is the table it stands in; it is read, and cut out of
the table, at absolute offsets.

* `EristaBct.blEntryBytes_eq` — what is cut out of the table is the entry.
* `EristaBlEntry.fromBytes_toBytes` — the integers are read back.  The signature is not: the encoder
  reserves 16 bytes in front of it and the decoder 4, so what is read lacks the last 12 bytes that
  were written, and has 12 reserved ones instead.
* `EristaBlEntry.reproduced_iff` — so an entry is read back only with a signature of zeros.
-/

set_option autoImplicit false

namespace SdLoader

namespace Image

open Bytes

variable {Key : Type}

/-! ## The table -/

theorem length_rsaNCustom : rsaNCustom.length = 0x100 := by
  rw [rsaNCustom, List.length_cons, List.length_append, List.length_replicate,
    List.length_singleton]

theorem EristaBlEntry.length_toBytes {e : EristaBlEntry} (h : e.signature.length = 0x100) :
    e.toBytes.length = 0x12c := by
  simp [toBytes, h]

/-- **What is cut out of the table is the entry.** -/
theorem EristaBct.blEntryBytes_eq (c : Crypto Key) {t : EristaBct}
    (h : t.blEntry.signature.length = 0x100) : t.blEntryBytes c = t.blEntry.toBytes := by
  have hsign := (c.sign c.rsaKeyCustom (c.sha256 t.dataToSign)).2
  have hentry := EristaBlEntry.length_toBytes h
  have hcut : t.dataToSign.extract 0x1e20 0x1f4c = t.blEntry.toBytes := by
    unfold dataToSign
    simp only [extract_append_of_le, extract_append_self, List.length_append,
      length_zeros, length_packed, hentry, Nat.reduceAdd, Nat.reduceLeDiff, Nat.reduceSub]
  rw [blEntryBytes, toBytes, ← hcut]
  refine extract_append_right (n := 0x510) ?_ 0x1e20 0x1f4c
  simp only [List.length_append, List.length_reverse, List.length_singleton, length_zeros,
    length_packed, length_rsaNCustom, hsign]

/-! ## The entry -/

namespace EristaBlEntry

/-- The integers are where they are read. -/
theorem toBytes_fields (e : EristaBlEntry) :
    e.toBytes.extract 0 0x4 = packed e.version ∧ e.toBytes.extract 0x4 0x8 = packed e.startBlock ∧
    e.toBytes.extract 0xc 0x10 = packed e.length ∧
    e.toBytes.extract 0x10 0x14 = packed e.loadAddress ∧
    e.toBytes.extract 0x14 0x18 = packed e.entryPoint ∧
    e.toBytes.extract 0x18 0x1c = packed e.attributes := by
  refine ⟨?_, ?_, ?_, ?_, ?_, ?_⟩ <;>
    simp only [toBytes, extract_append_of_le, extract_append_self, extract_all, List.length_append,
      length_zeros, length_packed, Nat.reduceAdd, Nat.reduceLeDiff]

/-- The signature is read 12 bytes too early. -/
theorem toBytes_signature {e : EristaBlEntry} (h : e.signature.length = 0x100) :
    (e.toBytes.extract 0x20 0x120).reverse = e.signature.drop 12 ++ List.replicate 12 0 := by
  have hgap : zeros 0x10 = zeros 4 ++ List.replicate 12 0 := by
    rw [zeros, zeros, List.replicate_append_replicate]
  have hcut := reverse_extract_zeros (l := e.signature) (k := 12) (by omega)
  rw [h] at hcut
  rw [← hcut, toBytes, hgap, ← List.append_assoc, List.append_assoc _ (List.replicate 12 0)]
  refine congrArg List.reverse (extract_append_right (n := 0x20) ?_ 0 0x100)
  simp

/-- **What is read back**: the integers as they were, and a signature that lacks its first 12
bytes. -/
theorem fromBytes_toBytes {e : EristaBlEntry} (h : e.signature.length = 0x100) :
    fromBytes e.toBytes e.payload =
      { e with signature := e.signature.drop 12 ++ List.replicate 12 0 } := by
  obtain ⟨h₀, h₁, h₂, h₃, h₄, h₅⟩ := e.toBytes_fields
  rw [fromBytes, h₀, h₁, h₂, h₃, h₄, h₅, toBytes_signature h]
  simp only [fromBytes_packed]

/-- An entry is read back, from what its encoder writes and from what is cut out of the table. -/
structure Reproduced (c : Crypto Key) (e : EristaBlEntry) : Prop where
  /-- Decoding what has been encoded gives the same integers and the same signature. -/
  version : (fromBytes e.toBytes e.payload).version = e.version
  startBlock : (fromBytes e.toBytes e.payload).startBlock = e.startBlock
  length : (fromBytes e.toBytes e.payload).length = e.length
  loadAddress : (fromBytes e.toBytes e.payload).loadAddress = e.loadAddress
  entryPoint : (fromBytes e.toBytes e.payload).entryPoint = e.entryPoint
  attributes : (fromBytes e.toBytes e.payload).attributes = e.attributes
  signature : (fromBytes e.toBytes e.payload).signature = e.signature
  /-- What is cut out of the table is what the encoder writes. -/
  slice : (EristaBct.init e).blEntryBytes c = e.toBytes
  /-- So decoding it gives the entry as well. -/
  decoded : fromBytes ((EristaBct.init e).blEntryBytes c) e.payload = e

/-- **An entry is read back if and only if its signature is zero throughout.** -/
theorem reproduced_iff (c : Crypto Key) {e : EristaBlEntry} (h : e.signature.length = 0x100) :
    e.Reproduced c ↔ e.signature = List.replicate 0x100 0 := by
  have hread := fromBytes_toBytes h
  have hcut := cut_eq_iff_zero (l := e.signature) (k := 12) (by omega) (by omega)
  rw [h] at hcut
  constructor
  · intro hrep
    have hsignature := hrep.signature
    rw [hread] at hsignature
    exact hcut.mp hsignature
  · intro hzero
    have hslice := EristaBct.blEntryBytes_eq c (t := .init e) h
    rw [hcut.mpr hzero] at hread
    constructor
    case slice => exact hslice
    case decoded => exact (congrArg (fromBytes · e.payload) hslice).trans hread
    all_goals rw [hread]

/-- An entry whose signature consists of ones. -/
def sample : EristaBlEntry where
  version := 9
  startBlock := 0xfc
  length := 0x10
  loadAddress := 0x40010000
  entryPoint := 0x40010020
  attributes := 0x3
  payload := List.replicate 0x10 0
  signature := List.replicate 0x100 1

theorem reproduced_iff_sample : sample.Reproduced Payload.sampleCrypto ↔
    List.replicate 0x100 1 = List.replicate 0x100 (0 : UInt8) :=
  reproduced_iff Payload.sampleCrypto (e := sample) List.length_replicate

/-- The last 12 bytes that are read are zero, and those of the signature are not. -/
theorem reproduced_counterexample : ∃ e : EristaBlEntry, e.signature.length = 0x100 ∧
    ∀ c : Crypto Unit, ¬ e.Reproduced c := by
  refine ⟨sample, List.length_replicate, fun c hrep ↦ ?_⟩
  have hsignature := hrep.signature
  rw [fromBytes_toBytes List.length_replicate] at hsignature
  have hmem : (0 : UInt8) ∈ sample.signature := by
    rw [← hsignature]
    exact List.mem_append_right _ (List.mem_replicate.mpr ⟨by omega, rfl⟩)
  exact absurd (List.eq_of_mem_replicate hmem) (by decide)

end EristaBlEntry

end Image
end SdLoader
