import CqlClient.Bytes.Basic
import CqlClient.Message.Error

/-!
Frames: a header of nine octets and a body. The stream of a frame ties a response to the request
that carried the same one.
-/

namespace CqlClient

structure Frame where
  version : UInt8
  flags : UInt8
  stream : Int16
  opcode : Opcode
  body : Bytes
  deriving DecidableEq, Repr

namespace Frame

/-- The version in requests. -/
def requestVersion : UInt8 := 0x04

/-- The version in responses: that of requests with the direction bit set. -/
def responseVersion : UInt8 := 0x84

/-- The longest body a frame may have. -/
def maxBody : Nat := 256 * 1024 * 1024

/-- The stream of events, which no request uses. -/
def eventStream : Int16 := -1

def request (stream : Int16) (opcode : Opcode) (body : Bytes) : Frame :=
  ⟨requestVersion, 0, stream, opcode, body⟩

def response (stream : Int16) (opcode : Opcode) (body : Bytes) : Frame :=
  ⟨responseVersion, 0, stream, opcode, body⟩

def isResponse (frame : Frame) : Bool := frame.version &&& 0x80 != 0

/-- The octets of a frame. -/
def encode (frame : Frame) : Bytes :=
  [frame.version, frame.flags] ++ Bytes.ofInt16 frame.stream ++ [frame.opcode.code] ++
    Bytes.ofNat 4 frame.body.length ++ frame.body

/-- The frame at the front of a stream and what follows it, or nothing if the stream so far ends
inside the frame. A bad header is refused before its body has arrived. -/
def scan (bytes : Bytes) : Except ProtocolError (Option (Frame × Bytes)) :=
  match bytes with
  | version :: flags :: s0 :: s1 :: code :: l0 :: l1 :: l2 :: l3 :: rest =>
    if version ≠ requestVersion ∧ version ≠ responseVersion then
      .error (.unsupportedVersion version)
    else
      match Opcode.ofCode? code with
      | none => .error (.unknownOpcode code)
      | some opcode =>
        let length := Bytes.toNat [l0, l1, l2, l3]
        if maxBody < length then .error (.frameTooLarge length)
        else
          match Bytes.split? length rest with
          | none => .ok none
          | some (body, rest) =>
            .ok (some (⟨version, flags, Bytes.toInt16 [s0, s1], opcode, body⟩, rest))
  | _ => .ok none

/-- What the transport says when a stream ends inside a frame. -/
def earlyEnd : String := "early eof"

/-- The frame at the front of a stream that has ended. -/
def read (bytes : Bytes) : Except ProtocolError (Frame × Bytes) :=
  match scan bytes with
  | .error err => .error err
  | .ok none => .error (.io earlyEnd)
  | .ok (some found) => .ok found

theorem length_lt_of_scan {bytes rest : Bytes} {frame : Frame}
    (h : scan bytes = .ok (some (frame, rest))) : rest.length < bytes.length := by
  unfold scan at h
  split at h
  · split at h
    · cases h
    · split at h
      · cases h
      · dsimp only at h
        split at h
        · cases h
        · split at h
          · cases h
          · next found =>
            cases h
            have := (Bytes.split?_eq_some_iff.mp found).1
            subst this
            simp only [List.length_cons, List.length_append]
            omega
  · cases h

theorem length_lt_of_read {bytes rest : Bytes} {frame : Frame}
    (h : read bytes = .ok (frame, rest)) : rest.length < bytes.length := by
  unfold read at h
  split at h
  · cases h
  · cases h
  · next found => cases h; exact length_lt_of_scan found

/-- All frames of a stream that has ended, each with the number of octets after it, and the error
that ends them. -/
def readAll (bytes : Bytes) : List (Frame × Nat) × ProtocolError :=
  match _ : read bytes with
  | .error err => ([], err)
  | .ok (frame, rest) =>
    let (frames, err) := readAll rest
    ((frame, rest.length) :: frames, err)
termination_by bytes.length
decreasing_by exact length_lt_of_read (by assumption)

/-- The whole frames at the front of a stream that may go on, and what is left of it: the octets of
a frame that has not ended, or the error that ends the frames. -/
def cut (bytes : Bytes) : List Frame × Except ProtocolError Bytes :=
  match _ : scan bytes with
  | .error err => ([], .error err)
  | .ok none => ([], .ok bytes)
  | .ok (some (frame, rest)) =>
    let (frames, left) := cut rest
    (frame :: frames, left)
termination_by bytes.length
decreasing_by exact length_lt_of_scan (by assumption)

end Frame

end CqlClient
