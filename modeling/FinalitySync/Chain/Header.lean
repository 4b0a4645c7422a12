import FinalitySync.Chain.Basic
import FinalitySync.Crypto.Primitives

/-!
Block headers and the digest items that they carry.
-/

namespace FinalitySync

/-- Four bytes that name a consensus engine. -/
@[ext]
structure EngineId extends Octets 4
deriving DecidableEq

namespace EngineId

instance : Inhabited EngineId := ⟨⟨Octets.zero 4⟩⟩

def codec : Scale.Codec EngineId :=
  (Scale.Codec.octets 4).via EngineId.mk EngineId.toOctets

def form : Form EngineId where
  write engine := Form.word8.list.write engine.toList
  read? document := do
    let bytes ← Form.word8.list.read? document
    return ⟨← Octets.ofList? 4 bytes⟩

end EngineId

inductive DigestItem
  | preRuntime (engine : EngineId) (data : Bytes)
  | consensus (engine : EngineId) (data : Bytes)
  | seal (engine : EngineId) (data : Bytes)
  | other (data : Bytes)
  | runtimeEnvironmentUpdated
deriving DecidableEq, Inhabited

namespace DigestItem

/-- The payload of a variant that names an engine. -/
def engineCodec (variant : String) : Scale.Codec (EngineId × Bytes) :=
  (EngineId.codec.component ("DigestItem::" ++ variant ++ ".0")).followedBy
    (Scale.Codec.byteVector.component ("DigestItem::" ++ variant ++ ".1"))

def otherCodec : Scale.Codec Bytes :=
  Scale.Codec.byteVector.component "DigestItem::Other.0"

def encode : DigestItem → Bytes
  | .preRuntime engine data => 6 :: (engineCodec "PreRuntime").encode (engine, data)
  | .consensus engine data => 4 :: (engineCodec "Consensus").encode (engine, data)
  | .seal engine data => 5 :: (engineCodec "Seal").encode (engine, data)
  | .other data => 0 :: otherCodec.encode data
  | .runtimeEnvironmentUpdated => [8]

def decode (input : Bytes) : Except Scale.Failure (DigestItem × Bytes) := do
  let (variant, rest) ← (Scale.Codec.word8.inside (.variantByte "DigestItem")).decode input
  if variant = 6 then
    let ((engine, data), rest) ← (engineCodec "PreRuntime").decode rest
    return (.preRuntime engine data, rest)
  else if variant = 4 then
    let ((engine, data), rest) ← (engineCodec "Consensus").decode rest
    return (.consensus engine data, rest)
  else if variant = 5 then
    let ((engine, data), rest) ← (engineCodec "Seal").decode rest
    return (.seal engine data, rest)
  else if variant = 0 then
    let (data, rest) ← otherCodec.decode rest
    return (.other data, rest)
  else if variant = 8 then
    return (.runtimeEnvironmentUpdated, rest)
  else
    throw (.ofCause (.unknownVariant "DigestItem"))

def codec : Scale.Codec DigestItem where
  encode := encode
  decode := decode

def write : DigestItem → Document
  | .preRuntime engine data => engineDocument "PreRuntime" engine data
  | .consensus engine data => engineDocument "Consensus" engine data
  | .seal engine data => engineDocument "Seal" engine data
  | .other data => .record [("Other", Form.word8.list.write data)]
  | .runtimeEnvironmentUpdated => .ofText "RuntimeEnvironmentUpdated"
where
  engineDocument (variant : String) (engine : EngineId) (data : Bytes) : Document :=
    .record [(variant, .array [EngineId.form.write engine, Form.word8.list.write data])]

/-- A variant without payload may be a text of its own or a name with nothing behind it. -/
def read? : Document → Option DigestItem
  | .text (some "RuntimeEnvironmentUpdated") => some .runtimeEnvironmentUpdated
  | .object [(some "RuntimeEnvironmentUpdated", .null)] => some .runtimeEnvironmentUpdated
  | .object [(some "Other", data)] => do
      return .other (← Form.word8.list.read? data)
  | .object [(some variant, .array [engine, data])] => do
      let engine ← EngineId.form.read? engine
      let data ← Form.word8.list.read? data
      if variant = "PreRuntime" then return .preRuntime engine data
      else if variant = "Consensus" then return .consensus engine data
      else if variant = "Seal" then return .seal engine data
      else none
  | _ => none

def form : Form DigestItem where
  write := write
  read? := read?

end DigestItem

structure Digest where
  logs : List DigestItem
deriving DecidableEq, Inhabited

namespace Digest

def codec : Scale.Codec Digest :=
  (DigestItem.codec.vector.component "Digest::logs").via Digest.mk Digest.logs

def form : Form Digest :=
  Form.fields ["logs"] (fun digest => [DigestItem.form.list.write digest.logs])
    fun
      | [logs] => do
          return ⟨← DigestItem.form.list.read? logs⟩
      | _ => none

end Digest

structure Header where
  parentHash : Hash
  number : BlockNumber
  stateRoot : Hash
  extrinsicsRoot : Hash
  digest : Digest
deriving DecidableEq, Inhabited

namespace Header

def codec : Scale.Codec Header :=
  ((Hash.codec.component "BlockHeader::parent_hash").followedBy
    ((Scale.Codec.compact.component "BlockHeader::number").followedBy
      ((Hash.codec.component "BlockHeader::state_root").followedBy
        ((Hash.codec.component "BlockHeader::extrinsics_root").followedBy
          (Digest.codec.component "BlockHeader::digest"))))).via
    (fun (parentHash, number, stateRoot, extrinsicsRoot, digest) =>
      ⟨parentHash, number, stateRoot, extrinsicsRoot, digest⟩)
    (fun header =>
      (header.parentHash, header.number, header.stateRoot, header.extrinsicsRoot, header.digest))

def form : Form Header :=
  Form.fields ["parent_hash", "number", "state_root", "extrinsics_root", "digest"]
    (fun header =>
      [Hash.form.write header.parentHash, Form.word32.write header.number,
        Hash.form.write header.stateRoot, Hash.form.write header.extrinsicsRoot,
        Digest.form.write header.digest])
    fun
      | [parentHash, number, stateRoot, extrinsicsRoot, digest] => do
          return ⟨← Hash.form.read? parentHash, ← Form.word32.read? number,
            ← Hash.form.read? stateRoot, ← Hash.form.read? extrinsicsRoot,
            ← Digest.form.read? digest⟩
      | _ => none

/-- A header is known by the hash of its encoding. -/
def hash (primitives : Primitives) (header : Header) : Hash :=
  primitives.hash (codec.encode header)

/-- The payloads of one engine's consensus items, in order. -/
def consensusLogs (engine : EngineId) (header : Header) : List Bytes :=
  header.digest.logs.filterMap fun
    | .consensus itemEngine data => if itemEngine = engine then some data else none
    | _ => none

end Header

end FinalitySync
