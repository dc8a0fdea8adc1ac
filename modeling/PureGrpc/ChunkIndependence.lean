import PureGrpc.TruncationDetection

/-!
When the way a body is cut does not show. `parse` is a parser of the frame grammar: it reads a
whole byte string at once, frame by frame, and goes on behind a frame whose payload the decoder
makes nothing of. The stream does not: it asks the decoder again whenever the body has been
polled, about the bytes that are now behind the header, and how often that is depends on the cut.
-/
namespace ChunkIndependence
open LengthFraming GrpcMetadata GrpcStatus GrpcCompression GrpcCodec PolledMachines HttpBodies
open StreamingDecode StreamingScan TruncationDetection

def Consumes {δ T : Type} (dec : Decoder δ T) : Prop :=
  ∀ d view msg, (dec.decode d view).result = .ok (some msg) →
    (dec.decode d view).consumed = view.length

variable {δ T : Type} (dec : Decoder δ T) (z : Compressors)
  (encoding : Option CompressionEncoding) (maxMessageSize : Option Nat)

def behind (bytes : Bytes) : Bytes :=
  match readFrame bytes with
  | some (_, rest) => rest
  | none => []

theorem behind_frame {bytes rest : Bytes} {f : Framed} (frame : readFrame bytes = some (f, rest)) :
    behind bytes = rest := by
  rw [behind, frame]

section Frames
variable {d next : δ} {bytes rest : Bytes}

theorem scan_payload_message {view : Bytes} {left : Nat → Bytes} {msg : T}
    (consumes : Consumes dec) (scan : scanPayload dec d view left = .message msg next rest) :
    rest = left view.length := by
  unfold scanPayload at scan
  split at scan
  · cases scan
  · cases scan
  · rename_i result
    cases scan
    rw [consumes _ _ _ result]

theorem scan_frame_complete
    (done : (scanFrame dec z encoding maxMessageSize d bytes).rest = some rest) :
    ∃ f after, readFrame bytes = some (f, after) ∧
      (Consumes dec → ∀ msg next, scanFrame dec z encoding maxMessageSize d bytes =
        .message msg next rest → rest = after) := by
  unfold scanFrame at done ⊢
  unfold readFrame
  cases header : LengthFraming.readHeader bytes with
  | none => simp [header, Scan.rest] at done
  | some triple =>
    obtain ⟨flag, len, tail⟩ := triple
    simp only [header] at done ⊢
    cases flagged : compressionOf encoding flag with
    | error status => simp [flagged, Scan.rest] at done
    | ok compression =>
      cases within : lengthWithin maxMessageSize len with
      | error status => simp [flagged, within, Scan.rest] at done
      | ok _ =>
        simp only [flagged, within, scanBody] at done ⊢
        by_cases fewer : tail.length < len
        · simp [fewer, Scan.rest] at done
        · simp only [fewer, if_false] at done ⊢
          refine ⟨_, _, rfl, ?_⟩
          intro consumes msg next scan
          cases compression with
          | none =>
            have size : (tail.take len).length = len := by
              rw [List.length_take]
              omega
            have left := scan_payload_message dec consumes scan
            rwa [size] at left
          | some encoding =>
            simp only at scan
            split at scan
            · cases scan
            · exact scan_payload_message dec consumes scan

theorem behind_shorter
    (done : (scanFrame dec z encoding maxMessageSize d bytes).rest = some rest) :
    (behind bytes).length < bytes.length := by
  obtain ⟨f, after, frame, _⟩ := scan_frame_complete dec z encoding maxMessageSize done
  rw [behind_frame frame]
  exact read_frame_shrinks frame

end Frames

/-- The messages of the frames, and the rejection or the bytes of no whole frame behind them. -/
def parse (d : δ) (bytes : Bytes) : List T × Fate :=
  match _h : scanFrame dec z encoding maxMessageSize d bytes with
  | .short => ([], .finished bytes)
  | .bad status => ([], .bad status)
  | .stall next _ => parse next (behind bytes)
  | .message msg next _ =>
    (msg :: (parse next (behind bytes)).1, (parse next (behind bytes)).2)
termination_by bytes.length
decreasing_by
  all_goals exact behind_shorter dec z encoding maxMessageSize (by rw [_h]; rfl)

section Parsing
variable {d next : δ} {bytes rest : Bytes}

end Parsing

def SameEnd (one other : Fate) : Prop :=
  ∀ direction tail, one.verdict direction tail = other.verdict direction tail

/-- An empty gzip stream, and a message of fifteen bytes behind it. -/
def gzippedEmpty : Bytes := [31, 139, 8, 0, 0, 0, 0, 0, 2, 255, 3, 0, 0, 0, 0, 0, 0, 0, 0, 0]

def twoFrames : Bytes :=
  [1, 0, 0, 0, 20] ++ gzippedEmpty ++ [0, 0, 0, 0, 15] ++ List.replicate 15 7

end ChunkIndependence
