import FinalitySync.Chain.Authority
import FinalitySync.Chain.Header
import FinalitySync.Text.Decimal

/-!
GRANDPA messages: what a finalized header tells its voters, in the payloads of its consensus
items. A payload is one format byte and the fields of that format, with nothing after them.
-/

namespace FinalitySync.Grandpa

inductive Message
  /-- New authorities, so many blocks after the announcing block. -/
  | scheduledChange (authorities : List Authority) (delay : BlockNumber)
  /-- New authorities without regard to scheduled ones, delayed by an offset on top. -/
  | forcedChange (offset : BlockNumber) (authorities : List Authority) (delay : BlockNumber)
  /-- An authority that stops voting, by its position in the current set. -/
  | authorityDisabled (index : UInt64)
  | pause (delay : BlockNumber)
  | resume (delay : BlockNumber)
deriving DecidableEq, Inhabited

namespace Message

/-- The engine whose consensus items carry messages. -/
def engine : EngineId := ⟨⟨[70, 82, 78, 75], rfl⟩⟩

/-- Why a payload is refused. -/
inductive Refusal
  | unknownFormat (format : UInt8)
  | missingOffset
  | malformed (failure : Scale.Failure)
deriving DecidableEq, Repr

def Refusal.message : Refusal → String
  | .unknownFormat format =>
      "Unknown GRANDPA consensus message format " ++ Decimal.encode format.toNat
  | .missingOffset => "Forced authority set change is missing its additional offset"
  | .malformed failure => "Cannot decode GRANDPA consensus message: " ++ failure.message

def changeCodec : Scale.Codec (List Authority × BlockNumber) :=
  Authority.codec.vector.followedBy Scale.Codec.word32

def encode : Message → Bytes
  | .scheduledChange authorities delay => 1 :: changeCodec.encode (authorities, delay)
  | .forcedChange offset authorities delay =>
      2 :: Scale.Codec.word32.encode offset ++ changeCodec.encode (authorities, delay)
  | .authorityDisabled index => 3 :: Scale.Codec.word64.encode index
  | .pause delay => 4 :: Scale.Codec.word32.encode delay
  | .resume delay => 5 :: Scale.Codec.word32.encode delay

/-- The fields of a format, and the bytes after them. -/
def decodeFields (format : UInt8) (input : Bytes) : Except Refusal (Message × Bytes) :=
  if format = 1 then
    match changeCodec.decode input with
    | .ok ((authorities, delay), rest) => .ok (.scheduledChange authorities delay, rest)
    | .error failure => .error (.malformed failure)
  else if format = 2 then
    match Scale.Codec.word32.decode input with
    | .ok (offset, afterOffset) =>
        match changeCodec.decode afterOffset with
        | .ok ((authorities, delay), rest) => .ok (.forcedChange offset authorities delay, rest)
        | .error failure => .error (.malformed failure)
    | .error _ => .error .missingOffset
  else if format = 3 then
    match Scale.Codec.word64.decode input with
    | .ok (index, rest) => .ok (.authorityDisabled index, rest)
    | .error failure => .error (.malformed failure)
  else if format = 4 then
    match Scale.Codec.word32.decode input with
    | .ok (delay, rest) => .ok (.pause delay, rest)
    | .error failure => .error (.malformed failure)
  else if format = 5 then
    match Scale.Codec.word32.decode input with
    | .ok (delay, rest) => .ok (.resume delay, rest)
    | .error failure => .error (.malformed failure)
  else .error (.unknownFormat format)

/-- The message that a payload is the encoding of. -/
def decode : Bytes → Except Refusal Message
  | [] => .error (.malformed (.ofCause .endOfInput))
  | format :: input =>
      match decodeFields format input with
      | .ok (message, []) => .ok message
      | .ok (_, _ :: _) => .error (.malformed (.ofCause (.trailingBytes "GRANDPA digest")))
      | .error refusal => .error refusal

/-- The messages of a header in order, or why the first payload that is none is refused. -/
def ofHeader (header : Header) : Except Refusal (List Message) :=
  (header.consensusLogs engine).mapM decode

end Message

end FinalitySync.Grandpa
