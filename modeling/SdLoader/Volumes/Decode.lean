import SdLoader.Volumes.Windows

/-!
# The volumes of a USB session: what is in a partition table

Which partitions are offered when the menu of a volume is opened.

`volume_load_part_table` reads an MBR or a GPT into one table.  The windows it takes over are those
of the partitions.  How many there are is another matter: `n_parts` is set in the loop over the
entries of an MBR, to the index of the last one and not to their number, and with a GPT it is the
number of all entries, whether they are used or not.

* `listed` — the partitions that a table lists.
* `Decoded` — the table that was read has these, in this order, and no others.
* `Exact` — the condition: every entry of the GPT is used, or the MBR has no partitions.
* `decoded_iff` — with a medium that could be read and whose partitions are inside it, that is when
  the table is the one the medium has.
* `not_decoded_single` — an MBR with one partition, of which none is offered.
-/

set_option autoImplicit false

namespace SdLoader
namespace Volumes

/-! ## The partitions of a table -/

/-- An entry of a GPT is used: it has a type. -/
def Used (d : ℕ → UInt8) (i : ℕ) : Prop := gptType d i ≠ List.replicate 16 0

instance (d : ℕ → UInt8) (i : ℕ) : Decidable (Used d i) := inferInstanceAs (Decidable (_ ≠ _))

/-- The first sector and the number of sectors of an entry of a GPT. -/
def gptSpan (d : ℕ → UInt8) (i : ℕ) : ℕ × ℕ := (lbaStart d i, lbaEnd d i + 1 - lbaStart d i)

/-- The partitions that the table of a medium lists: the used ones of the first 30 entries of a GPT,
or the entries of an MBR up to the first that is empty. -/
def listed (d : ℕ → UInt8) : List (ℕ × ℕ) :=
  if gptSignature d = efiPart then
    ((List.range (min 30 (numPartEnts d))).filter fun i ↦ Used d i).map (gptSpan d)
  else (List.range (mbrCount d)).map fun i ↦ (startSct d i, sizeSct d i)

/-- The partitions of a medium are inside it. -/
def Contained (m : Medium) : Prop := ∀ q ∈ listed m.data, 1 ≤ q.2 ∧ q.1 + q.2 ≤ m.secCnt

/-- The table that was read has the partitions the medium has, in this order, and no others. -/
def Decoded (table : PartTable) (d : ℕ → UInt8) : Prop :=
  table.nParts = (listed d).length ∧
    ∀ i < table.nParts, (listed d)[i]? = some ((table.parts i).offset, (table.parts i).size)

/-- Every entry of the GPT is used, or the MBR has no partitions. -/
def Exact (d : ℕ → UInt8) : Prop :=
  if gptSignature d = efiPart then ∀ i < min 30 (numPartEnts d), Used d i else sizeSct d 0 = 0

section Decoding

variable {d : ℕ → UInt8} {m : Medium}

/-- How many partitions there are is how many entries there are, if all of them are used. -/
theorem length_used (d : ℕ → UInt8) (n : ℕ) :
    ((List.range n).filter fun i ↦ Used d i).length = n ↔ ∀ i < n, Used d i := by
  calc ((List.range n).filter fun i ↦ Used d i).length = n
      ↔ ((List.range n).filter fun i ↦ Used d i).length = (List.range n).length := by
        rw [List.length_range]
    _ ↔ ∀ i ∈ List.range n, decide (Used d i) = true := List.length_filter_eq_length_iff
    _ ↔ ∀ i < n, Used d i := by simp

theorem mbrCount_eq_zero (d : ℕ → UInt8) : mbrCount d = 0 ↔ sizeSct d 0 = 0 := by
  by_cases hempty : sizeSct d 0 = 0 <;> simp [mbrCount, List.range_succ_eq_map, hempty]

/-- An entry of a GPT that lists a partition inside the medium. -/
theorem Contained.parts_gpt (h : Contained m) (hgpt : gptSignature m.data = efiPart) {i : ℕ}
    (hi : i < min 30 (numPartEnts m.data)) (hused : Used m.data i) :
    (gptTable m.data).parts i = ⟨(gptSpan m.data i).1, (gptSpan m.data i).2⟩ := by
  have hmem : gptSpan m.data i ∈ listed m.data := by
    rw [listed, if_pos hgpt]
    exact List.mem_map_of_mem (List.mem_filter.mpr ⟨List.mem_range.mpr hi, decide_eq_true hused⟩)
  obtain ⟨hsome, hle⟩ := h _ hmem
  have hsmall := m.small
  simp only [gptSpan] at hsome hle
  have hpart : partition m.data i =
      some (lbaStart m.data i, lbaEnd m.data i - lbaStart m.data i + 1) := by
    rw [partition, if_pos hgpt, if_pos ⟨hi, hused, by omega⟩]
  obtain ⟨hparts, -⟩ := parts_of_partition hpart (by omega)
  rw [tableOf, if_pos hgpt] at hparts
  rw [hparts, gptSpan, PartEntry.mk.injEq]
  exact ⟨rfl, by omega⟩

/-- **A GPT** is decoded if all its entries are used. -/
theorem Contained.decoded_gpt (h : Contained m) (hgpt : gptSignature m.data = efiPart) :
    Decoded (gptTable m.data) m.data ↔ ∀ i < min 30 (numPartEnts m.data), Used m.data i := by
  have hlength : (listed m.data).length =
      ((List.range (min 30 (numPartEnts m.data))).filter fun i ↦ Used m.data i).length := by
    rw [listed, if_pos hgpt, List.length_map]
  constructor
  · rintro ⟨hcount, -⟩
    rw [hlength] at hcount
    exact (length_used _ _).mp hcount.symm
  · intro hused
    have hall : (List.range (min 30 (numPartEnts m.data))).filter (fun i ↦ Used m.data i) =
        List.range (min 30 (numPartEnts m.data)) :=
      List.filter_eq_self.mpr fun i hi ↦ decide_eq_true (hused i (List.mem_range.mp hi))
    refine ⟨by rw [hlength, (length_used _ _).mpr hused, gptTable], fun i hlt ↦ ?_⟩
    have hi : i < min 30 (numPartEnts m.data) := hlt
    rw [listed, if_pos hgpt, hall, List.getElem?_map, List.getElem?_range hi,
      h.parts_gpt hgpt hi (hused i hi)]
    rfl

/-- **An MBR** is decoded if it has no partitions: if it has some, one of them is not offered. -/
theorem decoded_mbr (hmbr : gptSignature d ≠ efiPart) :
    Decoded (mbrTable d) d ↔ sizeSct d 0 = 0 := by
  have hlength : (listed d).length = mbrCount d := by
    rw [listed, if_neg hmbr, List.length_map, List.length_range]
  rw [← mbrCount_eq_zero]
  constructor
  · rintro ⟨hcount, -⟩
    rw [hlength] at hcount
    rw [mbrLoop_eq] at hcount
    have hless : mbrCount d - 1 = mbrCount d := hcount
    omega
  · intro hnone
    have hparts : (mbrTable d).nParts = 0 := by rw [mbrLoop_eq, mbrRead, hnone]
    exact ⟨by rw [hlength, hparts, hnone], fun i hi ↦ absurd hi (by omega)⟩

/-- **The partitions that are offered are those of the medium** if every entry of its GPT is used,
or its MBR has none, and otherwise they are not. -/
theorem decoded_iff {w : Storages} {v : Device} (hread : w.loaded v = some m)
    (hcontained : Contained m) (c : VolumeCfg) :
    Decoded (volumeLoadPartTable v w c).1 m.data ↔ Exact m.data := by
  rw [Storages.volumeLoadPartTable_of_some hread, tableOf, Exact]
  by_cases hgpt : gptSignature m.data = efiPart
  · rw [if_pos hgpt, if_pos hgpt]
    exact hcontained.decoded_gpt hgpt
  · rw [if_neg hgpt, if_neg hgpt]
    exact decoded_mbr hgpt

end Decoding

/-! ## Two media -/

/-- A GPT with one entry, which is used: sectors `0x800` up to `0xfff`. -/
def gptBytes (a : ℕ) : UInt8 :=
  if a < 520 then UInt8.ofNat (efiPart / 256 ^ (a - 512))
  else if a = 0x250 then 1
  else if a = 1024 then 0xEF
  else if a = 1024 + 0x21 then 0x08
  else if a = 1024 + 0x28 then 0xFF
  else if a = 1024 + 0x29 then 0x0F
  else 0

/-- An MBR with one entry: sectors `0x800` up to `0xfff`. -/
def mbrBytes (a : ℕ) : UInt8 :=
  if a = 0x1BE + 9 then 0x08 else if a = 0x1BE + 13 then 0x08 else 0

/-- A card of `0x2000` sectors. -/
def card (data : ℕ → UInt8) : Medium := ⟨0x2000, data, by decide, by decide⟩

/-- The storages with such a card. -/
def withCard (data : ℕ → UInt8) : Storages where
  sd := card data
  emmc := card fun _ ↦ 0
  boot := 0x2000
  sdInitialize := true
  emmcInitialize := true
  readGpt := true
  readMbr := true

/-- The table of the card is read. -/
theorem loaded_withCard (data : ℕ → UInt8) : (withCard data).loaded .sd = some (card data) := by
  have hread : (withCard data).sdInitialize = true ∧ (withCard data).Readable (withCard data).sd :=
    ⟨rfl, rfl, .inr rfl⟩
  rw [Storages.loaded, if_pos hread]
  rfl

theorem listed_gptBytes : listed gptBytes = [(0x800, 0x800)] := by decide

theorem listed_mbrBytes : listed mbrBytes = [(0x800, 0x800)] := by decide

theorem decoded_iff_single :
    Decoded (volumeLoadPartTable .sd (withCard gptBytes) (.init .noMount)).1 gptBytes ↔
      Exact gptBytes := by
  have hcontained : Contained (card gptBytes) := by
    intro q hq
    rw [show (card gptBytes).data = gptBytes from rfl, listed_gptBytes, List.mem_singleton] at hq
    subst hq
    exact ⟨by decide, by decide⟩
  exact decoded_iff (loaded_withCard gptBytes) hcontained (.init .noMount)

/-- The partition of an MBR with one entry is not offered. -/
theorem not_decoded_single :
    (withCard mbrBytes).loaded .sd = some (card mbrBytes) ∧ Contained (card mbrBytes) ∧
      (volumeLoadPartTable .sd (withCard mbrBytes) (.init .noMount)).1.nParts = 0 ∧
      ¬Decoded (volumeLoadPartTable .sd (withCard mbrBytes) (.init .noMount)).1 mbrBytes := by
  have hcontained : Contained (card mbrBytes) := by
    intro q hq
    rw [show (card mbrBytes).data = mbrBytes from rfl, listed_mbrBytes, List.mem_singleton] at hq
    subst hq
    exact ⟨by decide, by decide⟩
  have hnone : (volumeLoadPartTable .sd (withCard mbrBytes) (.init .noMount)).1.nParts = 0 := by
    rw [Storages.volumeLoadPartTable_of_some (loaded_withCard mbrBytes), tableOf]
    decide
  refine ⟨loaded_withCard mbrBytes, hcontained, hnone, fun h ↦ ?_⟩
  have hcount := h.1
  rw [hnone, listed_mbrBytes] at hcount
  exact absurd hcount (by decide)

end Volumes
end SdLoader
