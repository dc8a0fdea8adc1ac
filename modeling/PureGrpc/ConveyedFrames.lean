import PureGrpc.EncoderBuffer
import PureGrpc.FrameIsolation
import PureGrpc.GrpcHandler

/-!
What one end sends and the other can read. All the bytes of a sender are whole
frames with its flag, each made of a message; its failures are those of its source,
its encoder or a limit. Such frames unpack to what was encoded, so a reader fails
only at a limit, by its decoder, or as the body ends.
-/
namespace ConveyedFrames
open LengthFraming GrpcMetadata GrpcStatus GrpcCompression GrpcCodec PolledMachines HttpBodies
open MessageEncoding EncodeOrder EncoderBuffer StreamingDecode StreamingScan FrameIsolation
open GrpcHandler

section Sending
variable {σ T : Type} (enc : Encoder σ T) (z : Compressors)
  (encoding : Option CompressionEncoding) (maxMessageSize : Option Nat)

def Made (bytes : Bytes) : Prop :=
  ∃ frames, bytes = writeAll frames ∧
    ∀ f ∈ frames, ∃ encoder msg, frameOf enc z encoding maxMessageSize encoder msg = .ok f

/-- A failure to send that lies with the source, the encoder or a limit. -/
inductive SendFailure (source : List (SourceEvent T)) : Status → Prop where
  | source {s} (h : .item (.error s) ∈ source) : SendFailure source s
  | encoder {e m err} (h : (enc.encode e m).result = .error err) :
      SendFailure source (.internal ("Error encoding: " ++ err))
  | limit {payload s} (h : sealPayload encoding maxMessageSize payload = .error s) :
      SendFailure source s

/-- Nothing but whole frames of one flag. -/
structure Flagged (flag : UInt8) (bytes : Bytes) : Prop where
  whole : Whole bytes
  flags : ∀ f ∈ (splitFrames bytes).1, f.flag = flag

theorem made_nil : Made enc z encoding maxMessageSize [] :=
  ⟨[], rfl, by intro f none; cases none⟩

theorem made_append {front back : Bytes} (first : Made enc z encoding maxMessageSize front)
    (second : Made enc z encoding maxMessageSize back) :
    Made enc z encoding maxMessageSize (front ++ back) := by
  obtain ⟨fs, rfl, left⟩ := first
  obtain ⟨gs, rfl, right⟩ := second
  refine ⟨fs ++ gs, (write_all_append fs gs).symm, ?_⟩
  intro f mem
  rcases List.mem_append.mp mem with mem | mem
  · exact left f mem
  · exact right f mem

theorem made_write {encoder : σ} {msg : T} {f : Framed}
    (made : frameOf enc z encoding maxMessageSize encoder msg = .ok f) :
    Made enc z encoding maxMessageSize f.write := by
  refine ⟨[f], (write_all_single f).symm, ?_⟩
  intro g mem
  rw [List.mem_singleton.mp mem]
  exact ⟨encoder, msg, made⟩

/-- The payload these bytes are sent as: packed where an encoding is set. -/
def Packs : Option CompressionEncoding → Bytes → Bytes → Prop
  | none, written, payload => payload = written
  | some e, written, payload => z.compress e written = .ok payload

theorem frame_of_ok {encoder : σ} {msg : T} {f : Framed}
    (made : frameOf enc z encoding maxMessageSize encoder msg = .ok f) :
    (enc.encode encoder msg).result = .ok () ∧ f.payload.length < 2 ^ 32 ∧
      f.flag = compressionFlag encoding ∧ Packs z encoding (enc.encode encoder msg).written f.payload := by
  obtain ⟨encoded, packed, fits, written⟩ := frame_of_payload enc z _ _ made []
  have flag : f.flag = compressionFlag encoding := (List.cons.inj written).1
  refine ⟨encoded, fits, flag, ?_⟩
  cases encoding with
  | none => exact (Except.ok.inj packed).symm
  | some e => exact packed

theorem made_flagged {bytes : Bytes} (made : Made enc z encoding maxMessageSize bytes) :
    Flagged (compressionFlag encoding) bytes := by
  obtain ⟨frames, rfl, of⟩ := made
  have fit : ∀ f ∈ frames, f.payload.length < 2 ^ 32 := by
    intro f mem
    obtain ⟨encoder, msg, framed⟩ := of f mem
    exact frame_fits enc z encoding maxMessageSize framed
  have run := split_writes frames fit []
  rw [List.append_nil, split_nil, List.append_nil] at run
  constructor
  · rw [Whole, writeAll, run]
  · intro f mem
    rw [writeAll, run] at mem
    obtain ⟨encoder, msg, framed⟩ := of f mem
    exact (frame_of_ok enc z encoding maxMessageSize framed).2.2.1

/-- Compressing does not fail, so a message that cannot be sent was refused by the
    encoder or is too large. -/
theorem frame_of_error (total : ∀ e plain, ∃ packed, z.compress e plain = .ok packed)
    (source : List (SourceEvent T)) {encoder : σ} {msg : T} {s : Status}
    (failed : frameOf enc z encoding maxMessageSize encoder msg = .error s) :
    SendFailure enc encoding maxMessageSize source s := by
  unfold frameOf at failed
  split at failed
  · rename_i refused
    cases failed
    exact .encoder refused
  · split at failed
    · exact .limit failed
    · rename_i e
      obtain ⟨packed, packing⟩ := total e (enc.encode encoder msg).written
      rw [packing] at failed
      exact .limit failed

def Sends (source : List (SourceEvent T)) : Poll (Option (Except Status Bytes)) → Prop
  | .ready (some (.ok bytes)) => Made enc z encoding maxMessageSize bytes
  | .ready (some (.error s)) => SendFailure enc encoding maxMessageSize source s
  | _ => True

/-- A sender of this source with these settings, holding nothing but whole frames. -/
structure Sender (source : List (SourceEvent T)) (inner : EncodedBytes σ T) : Prop where
  compression : inner.compressionEncoding = encoding
  limit : inner.maxMessageSize = maxMessageSize
  buffered : Made enc z encoding maxMessageSize inner.buf
  ahead : ∀ event ∈ inner.source, event ∈ source
  stored : ∀ s, inner.error = some s → SendFailure enc encoding maxMessageSize source s

theorem state_trailers_sent (state : EncodeState) (clear : state.error = none) :
    (state.trailers.1 = none ∨
      state.trailers.1 = some (.ok (trailersOrDefault (.ok "")))) ∧ state.trailers.2.error = none := by
  obtain ⟨map, written, _⟩ := to_header_map_written (.ok "")
  unfold EncodeState.trailers
  split
  · exact ⟨.inl rfl, clear⟩
  · split
    · exact ⟨.inl rfl, clear⟩
    · refine ⟨.inr ?_, rfl⟩
      rw [clear, Option.getD_none, written, trailersOrDefault, written]

section Polls
variable (total : ∀ e plain, ∃ packed, z.compress e plain = .ok packed)
  {source : List (SourceEvent T)}
include total

theorem poll_source_sends (yieldThreshold : Nat) (events : List (SourceEvent T))
    (ahead : ∀ event ∈ events, event ∈ source) (self : EncodedBytes σ T)
    (sender : Sender enc z encoding maxMessageSize source self) :
    Sends enc z encoding maxMessageSize source (self.pollSource enc z yieldThreshold events).1 ∧
      Sender enc z encoding maxMessageSize source
        (self.pollSource enc z yieldThreshold events).2 := by
  have none := made_nil enc z encoding maxMessageSize
  have run := polled enc z yieldThreshold events self
  generalize self.pollSource enc z yieldThreshold events = result at run ⊢
  induction run with
  | ends empty =>
    obtain ⟨compression, limit, buffered, _, stored⟩ := sender
    exact ⟨trivial, compression, limit, buffered, ahead, stored⟩
  | endsLater filled =>
    obtain ⟨compression, limit, buffered, _, stored⟩ := sender
    exact ⟨buffered, compression, limit, none, ahead, stored⟩
  | waits empty =>
    obtain ⟨compression, limit, buffered, _, stored⟩ := sender
    exact ⟨trivial, compression, limit, buffered, (List.forall_mem_cons.mp ahead).2, stored⟩
  | waitsLater filled =>
    obtain ⟨compression, limit, buffered, _, stored⟩ := sender
    exact ⟨buffered, compression, limit, none, (List.forall_mem_cons.mp ahead).2, stored⟩
  | fails empty =>
    obtain ⟨compression, limit, buffered, _, stored⟩ := sender
    obtain ⟨here, later⟩ := List.forall_mem_cons.mp ahead
    exact ⟨.source here, compression, limit, buffered, later, stored⟩
  | failsLater filled =>
    obtain ⟨compression, limit, buffered, _, _⟩ := sender
    obtain ⟨here, later⟩ := List.forall_mem_cons.mp ahead
    refine ⟨buffered, compression, limit, none, later, ?_⟩
    rintro s same
    cases same
    exact .source here
  | refused framed =>
    obtain ⟨compression, limit, buffered, _, stored⟩ := sender
    subst compression limit
    exact ⟨frame_of_error enc z _ _ total source framed, rfl, rfl, buffered,
      (List.forall_mem_cons.mp ahead).2, stored⟩
  | full framed enough =>
    obtain ⟨compression, limit, buffered, _, stored⟩ := sender
    subst compression limit
    exact ⟨made_append enc z _ _ buffered (made_write enc z _ _ framed), rfl, rfl, none,
      (List.forall_mem_cons.mp ahead).2, stored⟩
  | buffers framed _ ih =>
    obtain ⟨compression, limit, buffered, before, stored⟩ := sender
    subst compression limit
    exact ih (List.forall_mem_cons.mp ahead).2 ⟨rfl, rfl,
      made_append enc z _ _ buffered (made_write enc z _ _ framed), before, stored⟩

theorem poll_next_sends (self : EncodedBytes σ T)
    (sender : Sender enc z encoding maxMessageSize source self) :
    Sends enc z encoding maxMessageSize source (self.pollNext enc z).1 ∧
      Sender enc z encoding maxMessageSize source (self.pollNext enc z).2 := by
  unfold EncodedBytes.pollNext
  split
  · rename_i s held
    obtain ⟨compression, limit, buffered, ahead, stored⟩ := sender
    refine ⟨stored s held, compression, limit, buffered, ahead, ?_⟩
    intro s' none
    cases none
  · exact poll_source_sends enc z encoding maxMessageSize total _ _ sender.ahead self sender

def SendsFrame (source : List (SourceEvent T)) : FramePoll Status → Prop
  | .ready (some (.ok (.data bytes))) => Made enc z encoding maxMessageSize bytes
  | .ready (some (.ok (.trailers map))) => ∃ s, map = trailersOrDefault s ∧
      (s = .ok "" ∨ SendFailure enc encoding maxMessageSize source s)
  | .ready (some (.error s)) => SendFailure enc encoding maxMessageSize source s
  | _ => True

/-- A body over such a sender; no part of the program sets an error in its state. -/
def BodySender (source : List (SourceEvent T)) (body : EncodeBody σ T) : Prop :=
  Sender enc z encoding maxMessageSize source body.inner ∧ body.state.error = none

theorem poll_frame_sends (body : EncodeBody σ T)
    (sender : BodySender enc z encoding maxMessageSize source body) :
    SendsFrame enc z encoding maxMessageSize source (body.pollFrame enc z).1 ∧
      BodySender enc z encoding maxMessageSize source (body.pollFrame enc z).2 := by
  obtain ⟨inner, clear⟩ := sender
  obtain ⟨sends, next⟩ := poll_next_sends enc z encoding maxMessageSize total body.inner inner
  unfold EncodeBody.pollFrame
  generalize body.inner.pollNext enc z = answer at sends next
  obtain ⟨poll, inner'⟩ := answer
  cases poll with
  | pending => exact ⟨trivial, next, clear⟩
  | ready item =>
    cases item with
    | none =>
      obtain ⟨trailers, kept⟩ := state_trailers_sent body.state clear
      rcases trailers with none | written
      · refine ⟨?_, next, kept⟩
        simp only [none, Option.map_none]
        trivial
      · refine ⟨?_, next, kept⟩
        simp only [written, Option.map_some, Except.map]
        exact ⟨_, rfl, .inl rfl⟩
    | some result =>
      cases result with
      | ok bytes => exact ⟨sends, next, clear⟩
      | error s =>
        dsimp only
        split
        · exact ⟨sends, next, clear⟩
        · exact ⟨⟨s, rfl, .inr sends⟩, next, clear⟩

def ResponseSender (source : List (SourceEvent T)) : ResponseBody σ T → Prop
  | .empty => True
  | .encoded body => BodySender enc z encoding maxMessageSize source body

theorem response_frame_sends (body : ResponseBody σ T)
    (sender : ResponseSender enc z encoding maxMessageSize source body) :
    SendsFrame enc z encoding maxMessageSize source (body.pollFrame enc z).1 ∧
      ResponseSender enc z encoding maxMessageSize source (body.pollFrame enc z).2 := by
  cases body with
  | empty => exact ⟨trivial, trivial⟩
  | encoded body => exact poll_frame_sends enc z encoding maxMessageSize total body sender

end Polls

theorem body_sender_new (encoder : σ) (source : List (SourceEvent T)) (state : EncodeState)
    (clear : state.error = none) :
    BodySender enc z encoding maxMessageSize source
      ⟨.new encoder source encoding maxMessageSize, state⟩ := by
  refine ⟨⟨rfl, rfl, made_nil enc z encoding maxMessageSize, fun _ mem => mem, ?_⟩, clear⟩
  intro s none
  cases none

section Conveyed
variable {τ : Type} {poll : τ → FramePoll Status × τ} {keep : τ → Prop}
  {source : List (SourceEvent T)}
  (step : ∀ s, keep s → SendsFrame enc z encoding maxMessageSize source (poll s).1 ∧ keep (poll s).2)
include step

theorem data_flagged {s : τ} (start : keep s) (n : Nat) (bytes : Bytes)
    (data : answerAt poll s n = .ready (some (.ok (.data bytes)))) :
    Flagged (compressionFlag encoding) bytes := by
  have sends := polls_keep poll step start n
  rw [data] at sends
  exact made_flagged enc z encoding maxMessageSize sends

def EndsSent (source : List (SourceEvent T)) : Tail Status → Prop
  | .eof => True
  | .trailers map => ∃ s, map = trailersOrDefault s ∧
      (s = .ok "" ∨ SendFailure enc encoding maxMessageSize source s)
  | .error s => SendFailure enc encoding maxMessageSize source s

theorem carries_made {s : τ} {bytes : Bytes} {tail : Tail Status} (start : keep s)
    (carries : Carries poll s bytes tail) :
    Made enc z encoding maxMessageSize bytes ∧
      EndsSent enc encoding maxMessageSize source tail := by
  have none := made_nil enc z encoding maxMessageSize
  induction carries with
  | eof h => exact ⟨none, trivial⟩
  | trailers h =>
    have sends := (step _ start).1
    rw [h] at sends
    exact ⟨none, sends⟩
  | error h =>
    have sends := (step _ start).1
    rw [h] at sends
    exact ⟨none, sends⟩
  | wait h _ ih =>
    have next := (step _ start).2
    rw [h] at next
    exact ih next
  | data h _ ih =>
    obtain ⟨sends, next⟩ := step _ start
    rw [h] at sends next
    obtain ⟨made, ends⟩ := ih next
    exact ⟨made_append enc z encoding maxMessageSize sends made, ends⟩

end Conveyed

end Sending

section Receiving
variable {σ δ T U : Type} (enc : Encoder σ T) (dec : Decoder δ U) (z : Compressors)
  (encoding : Option CompressionEncoding) (sendLimit recvLimit : Option Nat)

/-- A frame that unpacks to what the encoder wrote for some message, wherever its
    length is allowed. -/
def Readable (f : Framed) : Prop :=
  ∃ encoder msg, (enc.encode encoder msg).result = .ok () ∧
    ∀ limit, lengthWithin limit f.payload.length = .ok () →
      Delivers z encoding limit f (enc.encode encoder msg).written

inductive ReadFailure : Status → Prop where
  | limit {len s} (h : lengthWithin recvLimit len = .error s) : ReadFailure s
  | decoder {d view s} (h : (dec.decode d view).result = .error s) : ReadFailure s

theorem made_readable (inverse : z.Inverse) {bytes : Bytes}
    (made : Made enc z encoding sendLimit bytes) :
    ∃ frames, bytes = writeAll frames ∧ ∀ f ∈ frames, Readable enc z encoding f := by
  obtain ⟨frames, same, of⟩ := made
  refine ⟨frames, same, ?_⟩
  intro f mem
  obtain ⟨encoder, msg, framed⟩ := of f mem
  obtain ⟨encoded, fits, flag, payload⟩ := frame_of_ok enc z encoding sendLimit framed
  refine ⟨encoder, msg, encoded, ?_⟩
  intro limit within
  refine ⟨fits, within, ?_⟩
  cases encoding with
  | none => exact .inl ⟨flag, payload⟩
  | some e => exact .inr ⟨flag, e, rfl, inverse _ _ _ payload⟩

theorem readable_too_long {f : Framed} (readable : Readable enc z encoding f) {s : Status}
    (long : lengthWithin recvLimit f.payload.length = .error s) (d : δ) (more : Bytes) :
    scanFrame dec z encoding recvLimit d (f.write ++ more) = .bad s := by
  obtain ⟨encoder, msg, _, delivers⟩ := readable
  have carried := delivers (some f.payload.length) (length_within_ok (Nat.le_refl _))
  have header := read_header_frame f carried.1 more
  obtain ⟨compression, flagged⟩ := delivers_flag z encoding _ carried
  simp only [scanFrame, header, flagged, long]

theorem scanned_readable (whole : dec.Whole) (frames : List Framed)
    (readable : ∀ f ∈ frames, Readable enc z encoding f) (d : δ) :
    ∃ msgs o, Scanned dec z encoding recvLimit d (writeAll frames) msgs o ∧
      (o = .short [] ∨ ∃ s, o = .bad s ∧ ReadFailure dec recvLimit s) := by
  induction frames generalizing d with
  | nil => exact ⟨[], _, .short rfl, .inl rfl⟩
  | cons f frames ih =>
    have first := readable f List.mem_cons_self
    rw [writeAll, List.flatMap_cons, ← writeAll]
    cases within : lengthWithin recvLimit f.payload.length with
    | error s =>
      exact ⟨[], _, .bad (readable_too_long enc dec z encoding recvLimit first within d _),
        .inr ⟨s, rfl, .limit within⟩⟩
    | ok _ =>
      obtain ⟨encoder, msg, _, delivers⟩ := first
      rcases whole d (enc.encode encoder msg).written with ⟨s, refused⟩ | ⟨consumed, m, answer⟩
      · have scan := (delivered_frame dec z encoding recvLimit (delivers _ within)
          (writeAll frames)).2 d
        simp only [scanPayload, refused] at scan
        exact ⟨[], _, .bad scan, .inr ⟨s, rfl, .decoder refused⟩⟩
      · have scan := taken_frame dec z encoding recvLimit (delivers _ within) answer
          (fun _ => consumed) (writeAll frames)
        obtain ⟨msgs, o, later, fate⟩ := ih (fun g mem => readable g (List.mem_cons_of_mem f mem))
          (dec.decode d (enc.encode encoder msg).written).next
        exact ⟨m :: msgs, o, .message scan later, fate⟩

/-- What one end sends in an encoding, the other reads in it: the header is accepted,
    every frame unpacks to what was encoded, and no error comes of the compression. -/
structure Understood (source : List (SourceEvent T)) (headers : HeaderMap)
    (accepted : EnabledCompressionEncodings) (body : Body Status) : Prop where
  named : CompressionEncoding.fromEncodingHeader headers accepted = .ok encoding
  frames : ∃ frames, body.data = writeAll frames ∧ ∀ f ∈ frames, Readable enc z encoding f
  ends : EndsSent enc encoding sendLimit source body.tail
  reads : dec.Whole → ∀ decoder direction, ∃ msgs o t, Reads (Streaming.pollNext dec z)
    (.new decoder body direction encoding recvLimit) msgs o t ∧
      ∀ s, o = some s → ReadFailure dec recvLimit s ∨ ending direction body.tail [] = some s

theorem conveyed_understood {τ : Type} {poll : τ → FramePoll Status × τ} {keep : τ → Prop}
    (inverse : z.Inverse) {source : List (SourceEvent T)}
    (step : ∀ s, keep s → SendsFrame enc z encoding sendLimit source (poll s).1 ∧ keep (poll s).2)
    {s : τ} {body : Body Status} (start : keep s) (carries : Carries poll s body.data body.tail)
    {headers : HeaderMap} {accepted : EnabledCompressionEncodings}
    (named : CompressionEncoding.fromEncodingHeader headers accepted = .ok encoding) :
    Understood enc dec z encoding sendLimit recvLimit source headers accepted body := by
  obtain ⟨made, ends⟩ := carries_made enc z encoding sendLimit step start carries
  obtain ⟨frames, data, readable⟩ := made_readable enc z encoding sendLimit inverse made
  refine ⟨named, ⟨frames, data, readable⟩, ends, ?_⟩
  intro whole decoder direction
  obtain ⟨msgs, o, scanned, fate⟩ :=
    scanned_readable enc dec z encoding recvLimit whole frames readable decoder
  rw [← data] at scanned
  obtain ⟨t, reads, _⟩ := new_reads dec z encoding recvLimit decoder body direction scanned
  refine ⟨msgs, _, t, reads, ?_⟩
  intro s failed
  rcases fate with rfl | ⟨s', rfl, failure⟩
  · exact .inr failed
  · cases failed
    exact .inl failure

end Receiving

end ConveyedFrames
