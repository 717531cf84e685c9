import SdLoader.Lib.Bytes

/-!
# The packer of boot images

The classes of `check.py` that build and read the images the boot ROM accepts: `Payload`, the
package with a signed header; `EristaBlEntry`, the entry of a bootloader in the boot configuration
table; and `EristaBct`, that table.

SHA-256 and RSASSA-PSS come from a library and are a parameter, `Crypto`.  A `bytearray` is a list
of bytes, `l[a:b]` is `l.extract a b`, and a function that raises returns in `Except`.  A field that
has come out of `int.from_bytes` of four bytes is a 32-bit number.
-/

set_option autoImplicit false

namespace SdLoader

namespace Image

open Bytes

/-- What is raised. -/
inductive Error
  /-- `struct.error`: an argument does not fit its format. -/
  | struct
  /-- `OverflowError`: an integer does not fit the bytes it is to be converted to. -/
  | overflow
  /-- `ValueError` -/
  | value (msg : String)
  deriving DecidableEq

/-- A digest of SHA-256. -/
def Digest : Type := {l : List UInt8 // l.length = 0x20}

/-- An RSA signature. -/
def Signature : Type := {l : List UInt8 // l.length = 0x100}

/-- The library. -/
structure Crypto (Key : Type) where
  /-- `get_sha256(data).digest()` -/
  sha256 : List UInt8 → Digest
  /-- `get_cipher_pss(key).sign(h)` -/
  sign : Key → Digest → Signature
  /-- Whether `get_cipher_pss(key).verify(h, signature)` returns without raising. -/
  verify : Key → Digest → List UInt8 → Bool
  /-- `rsa_key_custom` -/
  rsaKeyCustom : Key

/-- `rsa_n_custom.to_bytes(length = 0x100, byteorder = "little")` -/
def rsaNCustom : List UInt8 := 0x59 :: (List.replicate 254 0x69 ++ [0xff])

/-! ## Integers and bytes -/

/-- `bytearray(n)` -/
def zeros (n : ℕ) : List UInt8 := List.replicate n 0

/-- `struct.pack("<I", x)` -/
def pack (x : ℤ) : Except Error (List UInt8) :=
  if 0 ≤ x ∧ x < 2 ^ 32 then .ok (le 4 x.toNat) else .error .struct

/-- `struct.pack("<I", w)` of a number that fits. -/
def packed (w : UInt32) : List UInt8 := le 4 w.toNat

/-- `int.from_bytes(l, byteorder = 'little')` of at most four bytes. -/
def fromBytes (l : List UInt8) : UInt32 := UInt32.ofNat (ofLe l)

/-- `x.to_bytes(0x20, byteorder = 'little')` -/
def toBytes32 (x : ℤ) : Except Error (List UInt8) :=
  if 0 ≤ x ∧ x < 256 ^ 32 then .ok (le 0x20 x.toNat) else .error .overflow

/-- An optional integer, unless it is absent or zero. -/
def given : Option ℤ → Option ℤ
  | some 0 => none
  | x => x

/-- Optional bytes, unless they are absent or empty. -/
def givenBytes : Option (List UInt8) → Option (List UInt8)
  | some [] => none
  | x => x

/-! ## Packages -/

/-- `Payload`, with what its constructor checks. -/
@[ext] structure Payload (Key : Type) where
  signature : List UInt8
  salt : List UInt8
  dataHash : List UInt8
  version : UInt32
  length : UInt32
  loadAddress : UInt32
  entryPoint : UInt32
  data : List UInt8
  key : Key
  length_signature : signature.length = 0x100
  length_salt : salt.length = 0x20
  length_dataHash : dataHash.length = 0x20

namespace Payload

variable {Key : Type}

/-- `Payload.__init__` -/
def init (signature salt dataHash version length loadAddress entryPoint data : List UInt8)
    (key : Key) : Except Error (Payload Key) :=
  if hsignature : signature.length = 0x100 then
    if hsalt : salt.length = 0x20 then
      if hhash : dataHash.length = 0x20 then
        .ok
          { signature, salt, dataHash, data, key
            version := fromBytes version
            length := fromBytes length
            loadAddress := fromBytes loadAddress
            entryPoint := fromBytes entryPoint
            length_signature := hsignature
            length_salt := hsalt
            length_dataHash := hhash }
      else .error (.value "Size != 32")
    else .error (.value "Size != 32")
  else .error (.value "Size != 256")

/-- `Payload.from_bytes` -/
def fromBytes (bytes : List UInt8) (key : Key) : Except Error (Payload Key) :=
  init (bytes.extract 0x10 0x110).reverse (bytes.extract 0x110 0x130) (bytes.extract 0x130 0x150)
    (bytes.extract 0x150 0x154) (bytes.extract 0x154 0x158) (bytes.extract 0x158 0x15c)
    (bytes.extract 0x15c 0x160) (bytes.drop 0x170) key

/-- The optional arguments of `Payload.from_components`. -/
structure Args where
  entryPoint : Option ℤ
  loadAddress : Option ℤ
  length : Option ℤ
  version : Option ℤ
  salt : Option ℤ
  signature : Option (List UInt8)
  dataHash : Option (List UInt8)

/-- The fields of the header as `Payload.from_components` encodes them, the signature apart. -/
structure Fields where
  salt : List UInt8
  dataHash : List UInt8
  version : List UInt8
  length : List UInt8
  loadAddress : List UInt8
  entryPoint : List UInt8

/-- `data_to_sign` of `Payload.from_components` -/
def Fields.dataToSign (f : Fields) : List UInt8 :=
  f.salt ++ f.dataHash ++ f.version ++ f.length ++ f.loadAddress ++ f.entryPoint ++ zeros 0x10

/-- The salt of a package that is not given one. -/
def defaultSalt : List UInt8 :=
  [0xf7, 0x23, 0xf4, 0x25, 0xb4, 0x71, 0xf8, 0x59, 0xfc, 0xf4, 0xd3, 0xda, 0x0a, 0xf7, 0x63, 0x3c,
    0x38, 0xbe, 0xbd, 0x51, 0xee, 0xb7, 0x0c, 0xca, 0x54, 0x28, 0xde, 0xd2, 0xfc, 0xe6, 0x17, 0x69]

variable (c : Crypto Key)

/-- The salt, encoded. -/
def Args.encodeSalt (a : Args) : Except Error (List UInt8) :=
  match given a.salt with
  | some x => toBytes32 x
  | none => .ok defaultSalt

/-- The hash, checked or calculated. -/
def Args.encodeHash (a : Args) (data : List UInt8) : Except Error (List UInt8) :=
  match givenBytes a.dataHash with
  | some h =>
    if h.length ≠ 0x20 then .error (.value "Data hash must be a 64 byte SHA256 hash") else .ok h
  | none => .ok (c.sha256 data).1

/-- `Payload.from_components`, as far as the signature. -/
def Args.encode (a : Args) (data : List UInt8) : Except Error Fields := do
  let loadAddress := (given a.loadAddress).getD 0x40010000
  let entryPoint ← pack ((given a.entryPoint).getD loadAddress)
  let loadAddress ← pack loadAddress
  let length ← pack ((given a.length).getD data.length)
  let version ← pack ((given a.version).getD 19)
  let salt ← a.encodeSalt
  let dataHash ← a.encodeHash c data
  return { salt, dataHash, version, length, loadAddress, entryPoint }

/-- The signature, checked or made. -/
def Args.encodeSignature (a : Args) (f : Fields) (key : Key) : Except Error (List UInt8) :=
  match givenBytes a.signature with
  | some s =>
    if s.length ≠ 0x100 then .error (.value "Signature must be a 256 byte RSASSA-PSS signature")
    else .ok s
  | none => .ok (c.sign key (c.sha256 f.dataToSign)).1

/-- `Payload.from_components`, with `data` what `payload.to_bytes()` returns. -/
def fromComponents (data : List UInt8) (a : Args) (key : Key) : Except Error (Payload Key) := do
  let f ← a.encode c data
  let signature ← a.encodeSignature c f key
  init signature f.salt f.dataHash f.version f.length f.loadAddress f.entryPoint data key

/-- `Payload.to_bytes` -/
def toBytes (p : Payload Key) : List UInt8 :=
  zeros 0x10 ++ p.signature.reverse ++ p.salt ++ p.dataHash ++ packed p.version ++
    packed p.length ++ packed p.loadAddress ++ packed p.entryPoint ++ zeros 0x10 ++ p.data

/-- `Payload.get_data_to_sign` -/
def getDataToSign (p : Payload Key) : List UInt8 :=
  p.salt ++ p.dataHash ++ packed p.version ++ packed p.length ++ packed p.loadAddress ++
    packed p.entryPoint ++ zeros 0x10

/-- `Payload.is_signature_valid` -/
def isSignatureValid (p : Payload Key) : Bool :=
  c.verify p.key (c.sha256 p.getDataToSign) p.signature

/-- `Payload.is_hash_valid` -/
def isHashValid (p : Payload Key) : Bool :=
  p.dataHash == (c.sha256 (p.data.take p.length.toNat)).1

/-- What `Payload.verify` collects. -/
def errs (p : Payload Key) : List Error :=
  (if p.isHashValid c then [] else [.value "Invalid hash"]) ++
    (if p.isSignatureValid c then [] else [.value "Invalid signature"]) ++
    if p.length.toNat = p.data.length then [] else [.value "Invalid length"]

/-- `Payload.verify`: the errors are raised in a group. -/
def verify (p : Payload Key) : Except (List Error) Bool :=
  if p.errs c = [] then .ok true else .error (p.errs c)

end Payload

/-! ## Bootloader entries -/

/-- `EristaBlEntry` -/
structure EristaBlEntry where
  version : UInt32
  startBlock : UInt32
  length : UInt32
  loadAddress : UInt32
  entryPoint : UInt32
  attributes : UInt32
  payload : List UInt8
  signature : List UInt8
  deriving DecidableEq

namespace EristaBlEntry

/-- `EristaBlEntry.from_bytes` -/
def fromBytes (data payload : List UInt8) : EristaBlEntry where
  version := Image.fromBytes (data.extract 0 0x4)
  startBlock := Image.fromBytes (data.extract 0x4 0x8)
  length := Image.fromBytes (data.extract 0xc 0x10)
  loadAddress := Image.fromBytes (data.extract 0x10 0x14)
  entryPoint := Image.fromBytes (data.extract 0x14 0x18)
  attributes := Image.fromBytes (data.extract 0x18 0x1c)
  signature := (data.extract 0x20 0x120).reverse
  payload := payload

/-- `EristaBlEntry.to_bytes` -/
def toBytes (e : EristaBlEntry) : List UInt8 :=
  packed e.version ++ packed e.startBlock ++ packed 0 ++ packed e.length ++ packed e.loadAddress ++
    packed e.entryPoint ++ packed e.attributes ++ zeros 0x10 ++ e.signature.reverse

end EristaBlEntry

/-! ## The boot configuration table -/

/-- `EristaBct`, but for its signature, which `to_bytes` does not use. -/
structure EristaBct where
  blEntry : EristaBlEntry
  loadersUsed : UInt32
  entriesUsed : UInt32
  virtualBlockSizeLog2 : UInt8
  blockSizeLog2 : UInt8
  bootDataVersion : UInt32
  partitionSize : UInt32
  numParamSets : UInt32
  type : UInt32
  pageSizeLog2 : UInt32
  clockDivider : UInt32
  dataWidth : UInt32

namespace EristaBct

/-- `EristaBct.__init__` -/
def init (blEntry : EristaBlEntry) : EristaBct where
  blEntry := blEntry
  loadersUsed := 1
  entriesUsed := 0x200
  virtualBlockSizeLog2 := 0xf
  blockSizeLog2 := 0xe
  bootDataVersion := 0x210001
  partitionSize := 0x1000000
  numParamSets := 0x1
  type := 0x4
  pageSizeLog2 := 0x9
  clockDivider := 0x9
  dataWidth := 0x2

/-- `EristaBct.data_to_sign` -/
def dataToSign (t : EristaBct) : List UInt8 :=
  zeros 0x10 ++ zeros 0x10 ++ packed t.bootDataVersion ++ packed t.blockSizeLog2.toUInt32 ++
    packed t.pageSizeLog2 ++ packed t.partitionSize ++ packed t.numParamSets ++ packed t.type ++
    packed t.clockDivider ++ packed t.dataWidth ++ zeros (0x40 - 0x8) ++ zeros 0x4 ++ zeros 0x768 ++
    zeros 0x768 ++ zeros 0x768 ++ zeros 0x768 ++ packed t.loadersUsed ++ t.blEntry.toBytes ++
    zeros 0x12c ++ zeros 0x12c ++ zeros 0x12c ++ zeros 1 ++ zeros 4 ++ zeros 4 ++
    packed 0x80000000 ++ zeros 0x13

/-- `EristaBct.to_bytes` -/
def toBytes {Key : Type} (c : Crypto Key) (t : EristaBct) : List UInt8 :=
  packed t.entriesUsed ++ [t.virtualBlockSizeLog2] ++ [t.blockSizeLog2] ++ zeros 0x200 ++
    zeros 0xa ++ rsaNCustom ++ zeros 0x10 ++
    (c.sign c.rsaKeyCustom (c.sha256 t.dataToSign)).1.reverse ++ zeros 0x4 ++ zeros 0x20 ++
    zeros 0xc4 ++ zeros 0x4 ++ zeros 0x4 ++ t.dataToSign

/-- What `EristaBct.write_bl_entry_to_file` writes. -/
def blEntryBytes {Key : Type} (c : Crypto Key) (t : EristaBct) : List UInt8 :=
  (t.toBytes c).extract 0x2330 0x245c

end EristaBct

end Image
end SdLoader
