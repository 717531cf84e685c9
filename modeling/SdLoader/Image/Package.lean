import SdLoader.Image.Defs

/-!
# Packages read back, and verified

A package that `from_components` has built is written by `to_bytes` and read by `from_bytes`.  The
header is written from front to back and read at absolute offsets; what is signed is put together
from encoded fields, and what is verified from the integers they were decoded to.

* `Payload.fromBytes_toBytes` — what is read is what was written.
* `Payload.Fields.Sized.init_getDataToSign` — the two ways to put together what is signed agree.
* `Payload.fromComponents_roundTrip` — a package that is built verifies after it has been read back.
-/

set_option autoImplicit false

namespace SdLoader

namespace Image

open Bytes

/-! ## Integers and bytes -/

@[simp] theorem length_zeros (n : ℕ) : (zeros n).length = n := List.length_replicate

@[simp] theorem length_packed (w : UInt32) : (packed w).length = 4 := length_le 4 _

theorem fromBytes_packed (w : UInt32) : fromBytes (packed w) = w := by
  rw [fromBytes, packed, ofLe_le w.toNat_lt, UInt32.ofNat_toNat]

theorem packed_fromBytes {l : List UInt8} (h : l.length = 4) : packed (fromBytes l) = l := by
  have hlt : ofLe l < 2 ^ 32 := by simpa [h] using ofLe_lt l
  rw [packed, fromBytes, UInt32.toNat_ofNat_of_lt' hlt, le_ofLe h]

theorem length_of_pack {x : ℤ} {l : List UInt8} (h : pack x = .ok l) : l.length = 4 := by
  rw [pack] at h
  split at h
  · cases h
    exact length_le 4 _
  · cases h

theorem pack_isOk_iff {x : ℤ} : (∃ l, pack x = .ok l) ↔ 0 ≤ x ∧ x < 2 ^ 32 := by
  constructor
  · rintro ⟨l, h⟩
    rw [pack] at h
    split at h
    · next hx => exact hx
    · cases h
  · exact fun h ↦ ⟨_, if_pos h⟩

theorem length_of_toBytes32 {x : ℤ} {l : List UInt8} (h : toBytes32 x = .ok l) :
    l.length = 0x20 := by
  rw [toBytes32] at h
  split at h
  · cases h
    exact length_le _ _
  · cases h

theorem toBytes32_isOk_iff {x : ℤ} : (∃ l, toBytes32 x = .ok l) ↔ 0 ≤ x ∧ x < 256 ^ 32 := by
  constructor
  · rintro ⟨l, h⟩
    rw [toBytes32] at h
    split at h
    · next hx => exact hx
    · cases h
  · exact fun h ↦ ⟨_, if_pos h⟩

/-- A computation that goes on returns if both parts of it do. -/
theorem bind_eq_ok {α β : Type} {x : Except Error α} {f : α → Except Error β} {b : β} :
    (x >>= f) = .ok b ↔ ∃ a, x = .ok a ∧ f a = .ok b := by
  cases x with
  | error e =>
    constructor
    · intro h
      cases h
    · rintro ⟨a, h, -⟩
      cases h
  | ok a =>
    constructor
    · exact fun h ↦ ⟨a, rfl, h⟩
    · rintro ⟨a', h, h'⟩
      cases h
      exact h'

namespace Payload

variable {Key : Type}

/-! ## Reading back -/

attribute [simp] length_signature length_salt length_dataHash

/-- The constructor takes the fields as they are written. -/
theorem init_packed (p : Payload Key) :
    init p.signature p.salt p.dataHash (packed p.version) (packed p.length) (packed p.loadAddress)
      (packed p.entryPoint) p.data p.key = .ok p := by
  rw [init, dif_pos p.length_signature, dif_pos p.length_salt, dif_pos p.length_dataHash]
  simp only [fromBytes_packed]

/-- The fields are where they are read. -/
theorem toBytes_fields (p : Payload Key) :
    p.toBytes.extract 0x10 0x110 = p.signature.reverse ∧ p.toBytes.extract 0x110 0x130 = p.salt ∧
    p.toBytes.extract 0x130 0x150 = p.dataHash ∧ p.toBytes.extract 0x150 0x154 = packed p.version ∧
    p.toBytes.extract 0x154 0x158 = packed p.length ∧
    p.toBytes.extract 0x158 0x15c = packed p.loadAddress ∧
    p.toBytes.extract 0x15c 0x160 = packed p.entryPoint ∧ p.toBytes.drop 0x170 = p.data := by
  refine ⟨?_, ?_, ?_, ?_, ?_, ?_, ?_, List.drop_left' (by simp)⟩ <;>
    simp only [toBytes, extract_append_of_le, extract_append_self, List.length_append,
      List.length_reverse, length_zeros, length_packed, length_signature, length_salt,
      length_dataHash, Nat.reduceAdd, Nat.reduceLeDiff]

/-- **What is read is what was written.** -/
theorem fromBytes_toBytes (p : Payload Key) : fromBytes p.toBytes p.key = .ok p := by
  obtain ⟨h, h₁, h₂, h₃, h₄, h₅, h₆, h₇⟩ := p.toBytes_fields
  rw [fromBytes, h, h₁, h₂, h₃, h₄, h₅, h₆, h₇, List.reverse_reverse]
  exact p.init_packed

/-! ## What is signed -/

/-- Fields of the sizes they have in the header. -/
structure Fields.Sized (f : Fields) : Prop where
  salt : f.salt.length = 0x20
  dataHash : f.dataHash.length = 0x20
  version : f.version.length = 4
  length : f.length.length = 4
  loadAddress : f.loadAddress.length = 4
  entryPoint : f.entryPoint.length = 4

section
variable {c : Crypto Key} {a : Args} {data : List UInt8} {f : Fields}

theorem Args.length_encodeSalt {l : List UInt8} (h : a.encodeSalt = .ok l) : l.length = 0x20 := by
  rw [encodeSalt] at h
  split at h
  · exact length_of_toBytes32 h
  · cases h
    rfl

theorem Args.length_encodeHash {l : List UInt8} (h : a.encodeHash c data = .ok l) :
    l.length = 0x20 := by
  rw [encodeHash] at h
  split at h
  · split at h
    · cases h
    · next hlen =>
      cases h
      exact Decidable.not_not.mp hlen
  · cases h
    exact (c.sha256 data).2

/-- What the fields are encoded from. -/
theorem Args.encode_eq_ok (h : a.encode c data = .ok f) :
    pack ((given a.entryPoint).getD ((given a.loadAddress).getD 0x40010000)) = .ok f.entryPoint ∧
    pack ((given a.loadAddress).getD 0x40010000) = .ok f.loadAddress ∧
    pack ((given a.length).getD data.length) = .ok f.length ∧
    pack ((given a.version).getD 19) = .ok f.version ∧
    a.encodeSalt = .ok f.salt ∧ a.encodeHash c data = .ok f.dataHash := by
  simp only [encode, bind_eq_ok] at h
  obtain ⟨entryPoint, hentry, loadAddress, hload, length, hlength, version, hversion, salt, hsalt,
    dataHash, hhash, hf⟩ := h
  cases hf
  exact ⟨hentry, hload, hlength, hversion, hsalt, hhash⟩

theorem Args.encode_sized (h : a.encode c data = .ok f) : f.Sized := by
  obtain ⟨hentry, hload, hlength, hversion, hsalt, hhash⟩ := Args.encode_eq_ok h
  exact ⟨length_encodeSalt hsalt, length_encodeHash hhash, length_of_pack hversion,
    length_of_pack hlength, length_of_pack hload, length_of_pack hentry⟩

/-- What the constructor makes of its arguments. -/
theorem init_eq_ok {signature salt dataHash version length loadAddress entryPoint : List UInt8}
    {key : Key} {p : Payload Key}
    (h : init signature salt dataHash version length loadAddress entryPoint data key = .ok p) :
    (p.signature = signature ∧ p.salt = salt ∧ p.dataHash = dataHash) ∧
    (p.version = Image.fromBytes version ∧ p.length = Image.fromBytes length ∧
      p.loadAddress = Image.fromBytes loadAddress ∧ p.entryPoint = Image.fromBytes entryPoint) ∧
    p.data = data ∧ p.key = key := by
  rw [init] at h
  split at h
  · split at h
    · split at h
      · cases h
        exact ⟨⟨rfl, rfl, rfl⟩, ⟨rfl, rfl, rfl, rfl⟩, rfl, rfl⟩
      · cases h
    · cases h
  · cases h

theorem init_isOk {signature salt dataHash version length loadAddress entryPoint : List UInt8}
    {key : Key} (hsignature : signature.length = 0x100) (hsalt : salt.length = 0x20)
    (hhash : dataHash.length = 0x20) :
    ∃ p, init signature salt dataHash version length loadAddress entryPoint data key = .ok p := by
  rw [init, dif_pos hsignature, dif_pos hsalt, dif_pos hhash]
  exact ⟨_, rfl⟩

/-- **The two ways to put together what is signed agree.** -/
theorem Fields.Sized.init_getDataToSign (hf : f.Sized) {signature : List UInt8} {key : Key}
    {p : Payload Key} (hp : init signature f.salt f.dataHash f.version f.length f.loadAddress
      f.entryPoint data key = .ok p) : p.getDataToSign = f.dataToSign := by
  obtain ⟨⟨-, hsalt, hhash⟩, ⟨hversion, hlength, hload, hentry⟩, -, -⟩ := init_eq_ok hp
  rw [getDataToSign, dataToSign, hsalt, hhash, hversion, hlength, hload, hentry,
    packed_fromBytes hf.version, packed_fromBytes hf.length, packed_fromBytes hf.loadAddress,
    packed_fromBytes hf.entryPoint]

/-- A length that has been encoded is read as it was. -/
theorem fromBytes_of_pack {n : ℕ} {l : List UInt8} (h : pack n = .ok l) :
    (Image.fromBytes l).toNat = n := by
  rw [pack] at h
  split at h
  · next hrange =>
    cases h
    have hlt : n < 256 ^ 4 := by omega
    rw [Image.fromBytes, Int.toNat_natCast, ofLe_le hlt, UInt32.toNat_ofNat_of_lt' hlt]
  · cases h

/-- A package verifies if its hash, its signature and its length are right. -/
theorem verify_of_valid {p : Payload Key} (hhash : p.isHashValid c = true)
    (hsignature : p.isSignatureValid c = true) (hlength : p.length.toNat = p.data.length) :
    p.verify c = .ok true := by
  have herrs : p.errs c = [] := by
    rw [errs, if_pos hhash, if_pos hsignature, if_pos hlength]
    rfl
  rw [verify, if_pos herrs]

end

section
variable (c : Crypto Key) (data : List UInt8) (entryPoint loadAddress version salt : Option ℤ)
  (key : Key)

/-- The arguments of a package without explicit length, hash or signature. -/
def Args.plain : Args where
  entryPoint := entryPoint
  loadAddress := loadAddress
  length := none
  version := version
  salt := salt
  signature := none
  dataHash := none

theorem Args.encodeSalt_isOk_iff (a : Args) :
    (∃ l, a.encodeSalt = .ok l) ↔ ∀ x ∈ given a.salt, 0 ≤ x ∧ x < 256 ^ 32 := by
  rw [encodeSalt]
  cases given a.salt with
  | none => exact iff_of_true ⟨_, rfl⟩ fun x hx ↦ by cases hx
  | some x => simpa using toBytes32_isOk_iff

/-- **Which packages are built**: those whose fields fit their places in the header. -/
theorem fromComponents_isOk_iff :
    (∃ p, fromComponents c data (.plain entryPoint loadAddress version salt) key = .ok p) ↔
      (∀ x ∈ [(given entryPoint).getD ((given loadAddress).getD 0x40010000),
          (given loadAddress).getD 0x40010000, (given version).getD 19], 0 ≤ x ∧ x < 2 ^ 32) ∧
        data.length < 2 ^ 32 ∧ ∀ x ∈ given salt, 0 ≤ x ∧ x < 256 ^ 32 := by
  have hsalt := (Args.plain entryPoint loadAddress version salt).encodeSalt_isOk_iff
  simp only [List.forall_mem_cons, List.not_mem_nil, false_imp_iff, implies_true, and_true]
  constructor
  · rintro ⟨p, hp⟩
    rw [fromComponents, bind_eq_ok] at hp
    obtain ⟨f, hf, -⟩ := hp
    obtain ⟨h, h₁, h₂, h₃, h₄, -⟩ := Args.encode_eq_ok hf
    have hlength := pack_isOk_iff.mp ⟨_, h₂⟩
    refine ⟨⟨pack_isOk_iff.mp ⟨_, h⟩, pack_isOk_iff.mp ⟨_, h₁⟩, pack_isOk_iff.mp ⟨_, h₃⟩⟩, ?_,
      hsalt.mp ⟨_, h₄⟩⟩
    exact Int.ofNat_lt.mp hlength.2
  · rintro ⟨⟨h, h₁, h₃⟩, h₂, h₄⟩
    obtain ⟨entry, hentry⟩ := pack_isOk_iff.mpr h
    obtain ⟨load, hload⟩ := pack_isOk_iff.mpr h₁
    obtain ⟨length, hlength⟩ := pack_isOk_iff.mpr ⟨Int.natCast_nonneg _, Int.ofNat_lt.mpr h₂⟩
    obtain ⟨number, hnumber⟩ := pack_isOk_iff.mpr h₃
    obtain ⟨bytes, hbytes⟩ := hsalt.mpr h₄
    have hf : (Args.plain entryPoint loadAddress version salt).encode c data =
        .ok ⟨bytes, (c.sha256 data).1, number, length, load, entry⟩ := by
      simp only [Args.encode, bind_eq_ok]
      exact ⟨entry, hentry, load, hload, length, hlength, number, hnumber, bytes, hbytes, _, rfl,
        rfl⟩
    have hsized := Args.encode_sized hf
    simp only [fromComponents, bind_eq_ok]
    obtain ⟨p, hp⟩ := init_isOk (c.sign key (c.sha256 _)).2 hsized.salt hsized.dataHash
    exact ⟨p, _, hf, _, rfl, hp⟩

variable {c data entryPoint loadAddress version salt key}

/-- **A package that is built verifies after it has been read back.**  Reading what has been written
gives the same package; it verifies; and what has been signed for it is what is put together again
to verify the signature. -/
theorem fromComponents_roundTrip (hverify : ∀ h, c.verify key h (c.sign key h).1 = true)
    {p : Payload Key}
    (hp : fromComponents c data (.plain entryPoint loadAddress version salt) key = .ok p) :
    ∃ f q, (Args.plain entryPoint loadAddress version salt).encode c data = .ok f ∧
      p.signature = (c.sign key (c.sha256 f.dataToSign)).1 ∧
      fromBytes p.toBytes key = .ok q ∧ q = p ∧ q.getDataToSign = f.dataToSign ∧
      q.verify c = .ok true := by
  rw [fromComponents, bind_eq_ok] at hp
  obtain ⟨f, hf, hp⟩ := hp
  rw [bind_eq_ok] at hp
  obtain ⟨signature, hsignature, hp⟩ := hp
  cases hsignature
  have hmessage := (Args.encode_sized hf).init_getDataToSign hp
  obtain ⟨⟨hsignature, -, hdigest⟩, ⟨-, hlen, -, -⟩, hdata, hkey⟩ := init_eq_ok hp
  obtain ⟨-, -, hpack, -, -, hhash⟩ := Args.encode_eq_ok hf
  have hhash : (c.sha256 data).1 = f.dataHash := Except.ok.inj hhash
  have hlength : p.length.toNat = p.data.length := by
    rw [hlen, hdata]
    exact fromBytes_of_pack hpack
  have hread : fromBytes p.toBytes key = .ok p := hkey ▸ p.fromBytes_toBytes
  refine ⟨f, p, hf, hsignature, hread, rfl, hmessage, verify_of_valid ?_ ?_ hlength⟩
  · rw [isHashValid, hlength, List.take_length, hdigest, hdata, hhash, beq_self_eq_true]
  · rw [isSignatureValid, hmessage, hsignature, hkey]
    exact hverify _

end

/-- A signature with the key of the script. -/
def sampleSignature : List UInt8 :=
  [0xb6fd5366ab4a0d535234a7bcc7a17e82202564a8acc9f163266f3b04e7184da2,
    0xe7c4e1e88ed67164fa8f17a3b8f1a8419b2e36b0f5545f1c1468df5c66d88309,
    0xb2fc1b9ff95e6fcbbda6e51cb0b8c71f8c3207019f1eb2d5fe583fcdf9649c94,
    0xb422d10fa8b32ded0742ed32bb399399257f96cb2577bb0e2cba6f8c1f86d235,
    0xc0587920958fbb0978b696afb0de6274f0cd90ec3a5442fe0528f084632a09d7,
    0x53adbcbe19f8ed88f7473c92d3d73d20ccd186852d7499ad99d77e088a8e20a7,
    0x4800b3fe2b862e51fb428569da40771cc7f59b62bdadcf8f9d30a7c0d7727f8b,
    0x2d1b11d1922150ae7075c58f5bf96ccc18e2c9862aa2f09e52479ea3b20473b8].flatMap (le 0x20)

theorem length_sampleSignature : sampleSignature.length = 0x100 := by
  simp [sampleSignature]

/-- The library, as it is where a package of three bytes is built: the digests of these bytes and of
what is signed, and a signature of the latter. -/
def sampleCrypto : Crypto Unit where
  sha256 l :=
    if l = [1, 2, 3] then
      ⟨le 0x20 0x81fb1c01a2a1847d28d5ceccab780fcc77ef144d0a3b532c49cbc0f2c6589003, length_le _ _⟩
    else ⟨le 0x20 0x3bcd944cba2cd0a946a8f2beea2c90e65815f5f7066cb327686420c0dc41212a, length_le _ _⟩
  sign _ _ := ⟨sampleSignature, length_sampleSignature⟩
  verify _ _ s := s == sampleSignature
  rsaKeyCustom := ()

/-- Three bytes, with an entry point, a version and a salt. -/
theorem fromComponents_roundTrip_sample :
    ∃ p, fromComponents sampleCrypto [1, 2, 3]
      (.plain (some 0x40010040) none (some 20) (some 5)) () =
      .ok p ∧ ∃ f q, (Args.plain (some 0x40010040) none (some 20) (some 5)).encode sampleCrypto
        [1, 2, 3] = .ok f ∧
      p.signature = (sampleCrypto.sign () (sampleCrypto.sha256 f.dataToSign)).1 ∧
      fromBytes p.toBytes () = .ok q ∧ q = p ∧ q.getDataToSign = f.dataToSign ∧
      q.verify sampleCrypto = .ok true := by
  obtain ⟨p, hp⟩ := (fromComponents_isOk_iff sampleCrypto [1, 2, 3] (some 0x40010040) none (some 20)
    (some 5) ()).mpr (by decide)
  exact ⟨p, hp, fromComponents_roundTrip (fun _ ↦ beq_self_eq_true _) hp⟩

end Payload

end Image
end SdLoader
