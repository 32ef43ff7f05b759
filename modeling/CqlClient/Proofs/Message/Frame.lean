import CqlClient.Message.Frame
import CqlClient.Proofs.Bytes.Length
import Mathlib.Data.List.Basic

/-!
Frames on a stream. A header says where its frame ends, so a reader keeps in step with the writer:
it finds the frames that were written, in their order, and each read takes the octets of one frame
and no more. A stream that is cut short loses the frame that the cut goes through and those behind
it, and nothing else.
-/

namespace CqlClient.Frame

/-- A frame that may be on a stream: one of a known version whose body is not too long. -/
structure Sendable (frame : Frame) : Prop where
  version_eq : frame.version = requestVersion ∨ frame.version = responseVersion
  body_le : frame.body.length ≤ maxBody

/-- The octets of frames one behind the other. -/
def octets (frames : List Frame) : Bytes := frames.flatMap encode

theorem octets_cons (frame : Frame) (frames : List Frame) :
    octets (frame :: frames) = frame.encode ++ octets frames := List.flatMap_cons

/-! ## One frame -/

/-- The nine octets in front of a body. -/
def header (frame : Frame) : Bytes :=
  [frame.version, frame.flags] ++ Bytes.ofInt16 frame.stream ++ [frame.opcode.code] ++
    Bytes.ofNat 4 frame.body.length

theorem encode_eq (frame : Frame) : frame.encode = frame.header ++ frame.body := rfl

theorem length_header (frame : Frame) : frame.header.length = 9 := by
  simp [header, Bytes.ofInt16]

theorem length_encode (frame : Frame) : frame.encode.length = 9 + frame.body.length := by
  rw [encode_eq, List.length_append, length_header]

/-- A good header is followed by as many octets as it says, or they are still to come. -/
theorem scan_header_append {frame : Frame} (h : frame.Sendable) (rest : Bytes) :
    scan (frame.header ++ rest) = match Bytes.split? frame.body.length rest with
      | none => .ok none
      | some (body, rest) => .ok (some ({ frame with body }, rest)) := by
  obtain ⟨s0, s1, hstream⟩ := List.length_eq_two.mp (Bytes.length_ofWord16 frame.stream.toUInt16)
  obtain ⟨l0, l1, l2, l3, hlength⟩ :=
    List.length_eq_four.mp (Bytes.length_ofNat 4 frame.body.length)
  have hread : Bytes.toNat [l0, l1, l2, l3] = frame.body.length := by
    have hmax := h.body_le
    rw [← hlength]
    apply Bytes.toNat_ofNat_of_lt
    show frame.body.length < 4294967296
    simp only [maxBody] at hmax
    omega
  have hnumber : Bytes.toInt16 [s0, s1] = frame.stream := by
    rw [← hstream]
    exact Bytes.toInt16_ofInt16 frame.stream
  have hheader : frame.header ++ rest = frame.version :: frame.flags :: s0 :: s1 ::
      frame.opcode.code :: l0 :: l1 :: l2 :: l3 :: rest := by
    simp [header, Bytes.ofInt16, hstream, hlength]
  have hversion : ¬ (frame.version ≠ requestVersion ∧ frame.version ≠ responseVersion) :=
    Decidable.or_iff_not_not_and_not.mp h.version_eq
  rw [hheader, scan, if_neg hversion, Opcode.ofCode?_code]
  show (if maxBody < Bytes.toNat [l0, l1, l2, l3] then _ else _) = _
  rw [hread, hnumber]
  exact if_neg (Nat.not_lt.mpr h.body_le)

theorem scan_encode_append {frame : Frame} (h : frame.Sendable) (rest : Bytes) :
    scan (frame.encode ++ rest) = .ok (some (frame, rest)) := by
  rw [encode_eq, List.append_assoc, scan_header_append h, Bytes.split?_append]

theorem scan_of_length_lt {bytes : Bytes} (h : bytes.length < 9) : scan bytes = .ok none := by
  unfold scan
  split
  · simp only [List.length_cons] at h
    omega
  · rfl

/-- A frame of which octets are missing is no frame yet, wherever it breaks off. -/
theorem scan_take_encode {frame : Frame} (h : frame.Sendable) {n : Nat}
    (hn : n < frame.encode.length) : scan (frame.encode.take n) = .ok none := by
  rw [length_encode] at hn
  by_cases hheader : n < 9
  · apply scan_of_length_lt
    rw [List.length_take]
    omega
  · have hmissing : Bytes.split? frame.body.length (frame.body.take (n - 9)) = none := by
      rw [Bytes.split?_eq_none_iff, List.length_take]
      omega
    rw [encode_eq, List.take_append, length_header,
      List.take_of_length_le (by rw [length_header]; omega), scan_header_append h, hmissing]

/-- What is read as a frame is a frame that may be sent, followed by what is left. -/
theorem scan_eq_some {bytes rest : Bytes} {frame : Frame}
    (h : scan bytes = .ok (some (frame, rest))) :
    frame.Sendable ∧ bytes = frame.encode ++ rest := by
  unfold scan at h
  split at h
  · next version flags s0 s1 code l0 l1 l2 l3 tail =>
    split at h
    · cases h
    next hversion =>
    split at h
    · cases h
    next opcode hopcode =>
    dsimp only at h
    split at h
    · cases h
    next hmax =>
    split at h
    · cases h
    next body left hsplit =>
    cases h
    obtain ⟨htail, hbody⟩ := Bytes.split?_eq_some_iff.mp hsplit
    have hstream : Bytes.ofInt16 (Bytes.toInt16 [s0, s1]) = [s0, s1] := Bytes.ofInt16_toInt16 rfl
    have hlength : Bytes.ofNat 4 body.length = [l0, l1, l2, l3] := by
      rw [hbody]
      exact Bytes.ofNat_toNat [l0, l1, l2, l3]
    refine ⟨⟨Decidable.or_iff_not_not_and_not.mpr hversion, ?_⟩, ?_⟩
    · show body.length ≤ maxBody
      omega
    · simp [encode, hstream, hlength, Opcode.code_of_ofCode? hopcode, htail]
  · cases h

/-! ## A stream that has ended -/

theorem read_eq_ok {bytes rest : Bytes} {frame : Frame} :
    read bytes = .ok (frame, rest) ↔ frame.Sendable ∧ bytes = frame.encode ++ rest := by
  constructor
  · intro h
    unfold read at h
    split at h
    · cases h
    · cases h
    · next found hscan =>
      cases h
      exact scan_eq_some hscan
  · rintro ⟨h, rfl⟩
    rw [read, scan_encode_append h]

theorem readAll_of_ok {bytes rest : Bytes} {frame : Frame} (h : read bytes = .ok (frame, rest)) :
    readAll bytes = ((frame, rest.length) :: (readAll rest).1, (readAll rest).2) := by
  rw [readAll]
  split
  · next herr => rw [h] at herr; cases herr
  · next hok => rw [h] at hok; cases hok; rfl

theorem readAll_of_error {bytes : Bytes} {err : ProtocolError} (h : read bytes = .error err) :
    readAll bytes = ([], err) := by
  rw [readAll]
  split
  · next herr => rw [h] at herr; cases herr; rfl
  · next hok => rw [h] at hok; cases hok

/-- The frames that are read off a stream before the first failure. -/
def framesOf (bytes : Bytes) : List Frame := (readAll bytes).1.map Prod.fst

theorem framesOf_of_ok {bytes rest : Bytes} {frame : Frame} (h : read bytes = .ok (frame, rest)) :
    framesOf bytes = frame :: framesOf rest := by
  rw [framesOf, readAll_of_ok h]
  rfl

theorem framesOf_of_error {bytes : Bytes} {err : ProtocolError} (h : read bytes = .error err) :
    framesOf bytes = [] := by
  rw [framesOf, readAll_of_error h]
  rfl

/-! ### Cut short -/

/-- A cut behind the first frame cuts the others. -/
theorem read_take_of_le {frame : Frame} (h : frame.Sendable) (frames : List Frame) {n : Nat}
    (hn : frame.encode.length ≤ n) :
    read ((octets (frame :: frames)).take n) =
      .ok (frame, (octets frames).take (n - frame.encode.length)) := by
  rw [read_eq_ok, octets_cons, List.take_append, List.take_of_length_le hn]
  exact ⟨h, rfl⟩

/-- A cut through the first frame leaves nothing to read. -/
theorem read_take_of_lt {frame : Frame} (h : frame.Sendable) (frames : List Frame) {n : Nat}
    (hn : n < frame.encode.length) :
    read ((octets (frame :: frames)).take n) = .error (.io earlyEnd) := by
  rw [octets_cons, List.take_append_of_le_length (Nat.le_of_lt hn), read, scan_take_encode h hn]

theorem read_nil : read [] = .error (.io earlyEnd) := rfl

/-- The frame at a place is read if and only if it ends before the cut. -/
theorem getElem?_framesOf_take {frames : List Frame} (h : ∀ frame ∈ frames, frame.Sendable)
    (n i : Nat) :
    (framesOf ((octets frames).take n))[i]? =
      if (octets (frames.take (i + 1))).length ≤ n then frames[i]? else none := by
  induction frames generalizing n i with
  | nil =>
      have hnil : (octets []).take n = [] := List.take_nil
      rw [hnil, framesOf_of_error read_nil]
      simp
  | cons frame frames ih =>
      obtain ⟨hframe, hframes⟩ := List.forall_mem_cons.mp h
      rw [List.take_succ_cons, octets_cons frame (frames.take i), List.length_append]
      by_cases hn : frame.encode.length ≤ n
      · rw [framesOf_of_ok (read_take_of_le hframe frames hn)]
        cases i with
        | zero => simp [octets, hn]
        | succ i =>
            rw [List.getElem?_cons_succ, List.getElem?_cons_succ, ih hframes]
            have hbound : (octets (frames.take (i + 1))).length ≤ n - frame.encode.length ↔
                frame.encode.length + (octets (frames.take (i + 1))).length ≤ n := by omega
            simp only [hbound]
      · rw [framesOf_of_error (read_take_of_lt hframe frames (by omega)), if_neg (by omega)]
        rfl

/-- The reads end where the stream ends, never with a complaint about a frame. -/
theorem readAll_take_snd {frames : List Frame} (h : ∀ frame ∈ frames, frame.Sendable) (n : Nat) :
    (readAll ((octets frames).take n)).2 = .io earlyEnd := by
  induction frames generalizing n with
  | nil =>
      have hnil : (octets []).take n = [] := List.take_nil
      rw [hnil, readAll_of_error read_nil]
  | cons frame frames ih =>
      obtain ⟨hframe, hframes⟩ := List.forall_mem_cons.mp h
      by_cases hn : frame.encode.length ≤ n
      · rw [readAll_of_ok (read_take_of_le hframe frames hn)]
        exact ih hframes _
      · rw [readAll_of_error (read_take_of_lt hframe frames (by omega))]

/-! ### Anything at all -/

/-- The octets of the frames that are read stand at the front of the stream, and the read that fails
is the one at the octets behind them. -/
theorem eq_octets_framesOf_append (bytes : Bytes) :
    ∃ rest, bytes = octets (framesOf bytes) ++ rest ∧ read rest = .error (readAll bytes).2 := by
  induction bytes using readAll.induct with
  | case1 bytes err hread =>
      refine ⟨bytes, ?_, ?_⟩
      · rw [framesOf_of_error hread]
        rfl
      · rw [readAll_of_error hread, hread]
  | case2 bytes frame left hread _ _ _ ih =>
      obtain ⟨rest, hleft, hfail⟩ := ih
      refine ⟨rest, ?_, ?_⟩
      · rw [framesOf_of_ok hread, octets_cons, List.append_assoc, ← hleft]
        exact (read_eq_ok.mp hread).2
      · rw [readAll_of_ok hread, hfail]

/-- What a read leaves is the stream without the frames up to the one it has read. -/
theorem length_octets_add_left {bytes : Bytes} {i left : Nat} {frame : Frame}
    (h : (readAll bytes).1[i]? = some (frame, left)) :
    (octets ((framesOf bytes).take (i + 1))).length + left = bytes.length := by
  induction bytes using readAll.induct generalizing i with
  | case1 bytes err hread =>
      rw [readAll_of_error hread] at h
      cases h
  | case2 bytes first rest hread _ _ _ ih =>
      rw [readAll_of_ok hread] at h
      rw [framesOf_of_ok hread, List.take_succ_cons, octets_cons, (read_eq_ok.mp hread).2,
        List.length_append, List.length_append]
      cases i with
      | zero =>
          cases h
          simp [octets]
      | succ i =>
          have hrest := ih h
          omega

/-- However a stream of frames is cut, the frames that end before the cut are read, in their order
and as they were, and then the stream is found to have ended. And whatever the octets of a stream,
the frames that are read off it stand at its front, and every read takes one of them and no more. -/
theorem framesOf_take_and_append :
    (∀ frames : List Frame, (∀ frame ∈ frames, frame.Sendable) → ∀ n,
      (∀ i, (framesOf ((octets frames).take n))[i]? =
        if (octets (frames.take (i + 1))).length ≤ n then frames[i]? else none) ∧
      (readAll ((octets frames).take n)).2 = .io earlyEnd) ∧
    ∀ bytes : Bytes,
      (∃ rest, bytes = octets (framesOf bytes) ++ rest ∧
        read rest = .error (readAll bytes).2) ∧
      ∀ i frame left, (readAll bytes).1[i]? = some (frame, left) →
        (octets ((framesOf bytes).take (i + 1))).length + left = bytes.length := by
  constructor
  · intro frames h n
    exact ⟨getElem?_framesOf_take h n, readAll_take_snd h n⟩
  · intro bytes
    exact ⟨eq_octets_framesOf_append bytes, fun _ _ _ => length_octets_add_left⟩

/-- Of two frames, of ten octets and of nine, the first is read from all octets but the last one. -/
theorem framesOf_take_eighteen :
    let frames := [request (-3) .query [7], response eventStream .event []]
    (∀ frame ∈ frames, frame.Sendable) ∧
      (framesOf ((octets frames).take 18))[0]? = some (request (-3) .query [7]) ∧
      (framesOf ((octets frames).take 18))[1]? = none ∧
      (readAll ((octets frames).take 18)).2 = .io earlyEnd := by
  intro frames
  have hfirst : (request (-3) .query [7]).Sendable := ⟨.inl rfl, by decide⟩
  have hsecond : (response eventStream .event []).Sendable := ⟨.inr rfl, by decide⟩
  have h : ∀ frame ∈ frames, frame.Sendable :=
    List.forall_mem_cons.mpr ⟨hfirst, List.forall_mem_singleton.mpr hsecond⟩
  obtain ⟨hframes, hend⟩ := framesOf_take_and_append.1 frames h 18
  refine ⟨h, ?_, ?_, hend⟩
  · rw [hframes 0]
    rfl
  · rw [hframes 1]
    rfl

end CqlClient.Frame
