import RingOverlay.Message.Encode
import RingOverlay.Message.Decode

/-!
# Message — frames on a stream

A stream is a sequence of frames: four bytes of length, then a payload of that length.  The receive
loop hands over one message after the other until the stream ends or a frame is refused; nothing
after a refused frame is looked at.  A stream that ends inside a length ends cleanly, one that ends
inside a payload was cut short.
-/

namespace RingOverlay

namespace Frame

/-- The number of bytes in front of a payload. -/
def lengthOctets : Nat := 4

/-- The longest payload that is accepted unless configured otherwise: 16 MiB. -/
def defaultLimit : Nat := 16 * 1024 * 1024

/-- The refusal of a frame that announces more than the limit. -/
structure TooLarge where
  length : Nat
  limit : Nat
  deriving DecidableEq, Repr

/-- The refusal in words. -/
def TooLarge.message (e : TooLarge) : String :=
  s!"A frame of {e.length} bytes exceeds the limit of {e.limit} bytes"

/-- The payload length that the bytes in front announce, if it is within the limit. -/
def length (front : List UInt8) (limit : Nat) : Except TooLarge Nat :=
  let n := Bytes.value front
  if limit < n then .error ⟨n, limit⟩ else .ok n

/-- How a stream of frames ends. -/
inductive Ending where
  | clean
  | tooLarge (refusal : TooLarge)
  | cutShort
  | malformed (error : DecodeError)
  deriving DecidableEq, Repr

/-- The fault that ends a stream, in words; a clean end has none. -/
def Ending.message? : Ending → Option String
  | clean => none
  | tooLarge refusal => some ("The peer sent a malformed frame: " ++ refusal.message)
  | cutShort => some "I/O error on the connection: early eof"
  | malformed error => some ("The peer sent a malformed frame: " ++ error.message)

/-- What one frame's worth of a stream brings: a message and the stream after it, or the end. -/
inductive Next where
  | message (m : Message) (rest : List UInt8)
  | ending (e : Ending)

/-- Reads one frame off a stream. -/
def next (limit : Nat) (stream : List UInt8) : Next :=
  match Bytes.Read.take lengthOctets stream with
  | (none, _) => .ending .clean
  | (some front, rest) =>
    match length front limit with
    | .error refusal => .ending (.tooLarge refusal)
    | .ok n =>
      match Bytes.Read.take n rest with
      | (none, _) => .ending .cutShort
      | (some payload, rest') =>
        match Message.decode payload with
        | .error e => .ending (.malformed e)
        | .ok m => .message m rest'

/-- Reads at most `fuel` frames. -/
def receiveWithin (limit : Nat) : (fuel : Nat) → List UInt8 → List Message × Ending
  | 0, _ => ([], .clean)
  | fuel + 1, stream =>
    match next limit stream with
    | .ending e => ([], e)
    | .message m rest =>
      let (ms, e) := receiveWithin limit fuel rest
      (m :: ms, e)

/-- The messages that a stream brings, and how it ends.  Every frame takes at least one byte, so
the length of the stream bounds their number. -/
def receive (limit : Nat) (stream : List UInt8) : List Message × Ending :=
  receiveWithin limit (stream.length + 1) stream

end Frame

end RingOverlay
