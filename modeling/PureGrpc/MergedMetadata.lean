import PureGrpc.UnaryCardinality
import PureGrpc.SurvivingMetadata

/-!
The metadata of a call for one message. Response headers and trailers are merged, the
trailers into the headers of a success and the headers into the metadata of an error; a
key of the map that is merged in replaces what the key had.
-/
namespace MergedMetadata
open KeyedMultimap GrpcMetadata GrpcStatus GrpcCompression GrpcCodec PolledMachines HttpBodies
open MessageEncoding StreamingDecode StreamingScan AwaitedMessages GrpcHandler InterceptedMetadata
open GrpcClient UnaryCardinality

/-- What each key has after another map was merged in. -/
def Overlaid (base incoming merged : HeaderMap) : Prop :=
  ∀ key, getAll merged key = if containsKey incoming key then getAll incoming key
    else getAll base key

theorem merge_overlaid (md other : MetadataMap) :
    Overlaid md.headers other.headers (md.merge other).headers := merge_values md other

section Overlays
variable {base incoming merged : HeaderMap} (overlaid : Overlaid base incoming merged)
include overlaid

theorem overlaid_incoming {key : HeaderName} {value : HeaderValue}
    (given : value ∈ getAll incoming key) : value ∈ getAll merged key := by
  have present : containsKey incoming key = true :=
    (contains_key_iff incoming key).mpr (List.ne_nil_of_mem given)
  rw [overlaid key, if_pos present]
  exact given

theorem overlaid_base {key : HeaderName} (free : containsKey incoming key = false) :
    getAll merged key = getAll base key := by
  rw [overlaid key, free]
  rfl

theorem nothing_lost_iff :
    (∀ key value, value ∈ getAll base key ∨ value ∈ getAll incoming key →
      value ∈ getAll merged key) ↔
    ∀ key, containsKey incoming key = true → getAll base key ⊆ getAll incoming key := by
  constructor
  · intro kept key shared value held
    have still := kept key value (.inl held)
    rwa [overlaid key, if_pos shared] at still
  · intro again key value given
    rcases given with held | incoming_value
    · rw [overlaid key]
      split
      · exact again key (by assumption) held
      · exact held
    · exact overlaid_incoming overlaid incoming_value

end Overlays

section Calls
variable {X σ δ T U : Type} (dec : Decoder δ U) (z : Compressors) (client : GrpcClient.Grpc σ δ)

theorem created_metadata {response : HttpResponse (Body Status)} {metadata : MetadataMap}
    {s : Streaming δ} (created : client.createResponse response = .ok ⟨metadata, s⟩) :
    metadata = ⟨response.headers⟩ := by
  unfold GrpcClient.Grpc.createResponse at created
  repeat' split at created
  all_goals cases created
  all_goals rfl

theorem success_overlaid {transport : Transport X σ T} {request : Request X (List (Option T))}
    {path : String} {sent : HttpRequest X (EncodeBody σ T)} {response : HttpResponse (Body Status)}
    {trailers : HeaderMap} {got : Response U}
    (prepared : client.prepareRequest (client.encodeRequest request) path = .ok sent)
    (conveyed : transport sent = .ok response) (ends : response.body.tail = .trailers trailers)
    (called : client.clientStreaming dec z transport request path = .ok got) :
    Overlaid response.headers trailers got.metadata.headers := by
  have streamed : client.streaming transport request path = client.createResponse response := by
    simp only [GrpcClient.Grpc.streaming, prepared, conveyed]
  unfold GrpcClient.Grpc.clientStreaming at called
  rw [streamed] at called
  split at called
  · cases called
  · rename_i metadata body created
    have headers := created_metadata client created
    obtain ⟨direction, encoding, limit, rfl⟩ := created_stream client created
    have underway : Underway (.trailers trailers)
        (Streaming.new client.decoder response.body direction encoding limit).inner :=
      ⟨rfl, ends, rfl⟩
    split at called
    · cases called
    · cases called
    · rename_i message after first
      have later := (message_underway dec z _ underway).1 _ _ first
      split at called
      · cases called
      · rename_i fetched
        have found := trailers_underway dec z later fetched
        cases found
      · rename_i found last fetched
        have same := trailers_underway dec z later fetched
        cases same
        cases called
        rw [headers]
        exact merge_overlaid ⟨response.headers⟩ ⟨trailers⟩

theorem failure_overlaid {transport : Transport X σ T} {request : Request X (List (Option T))}
    {path : String} {sent : HttpRequest X (EncodeBody σ T)} {response : HttpResponse (Body Status)}
    {metadata : MetadataMap} {body t : Streaming δ} {status : Status}
    (prepared : client.prepareRequest (client.encodeRequest request) path = .ok sent)
    (conveyed : transport sent = .ok response)
    (created : client.createResponse response = .ok ⟨metadata, body⟩)
    (failed : Streaming.message dec z body = (.error status, t)) :
    ∃ e, client.clientStreaming dec z transport request path = .error e ∧ e.Agrees status ∧
      Overlaid status.metadata.headers response.headers e.metadata.headers := by
  have streamed : client.streaming transport request path = .ok ⟨metadata, body⟩ := by
    simp only [GrpcClient.Grpc.streaming, prepared, conveyed, created]
  have headers := created_metadata client created
  refine ⟨{ status with metadata := status.metadata.merge metadata }, ?_, ⟨rfl, rfl, rfl⟩, ?_⟩
  · simp only [GrpcClient.Grpc.clientStreaming, streamed, failed]
  · rw [headers]
    exact merge_overlaid status.metadata ⟨response.headers⟩

theorem read_overlaid {trailers headers merged : HeaderMap} {status : Status}
    (read : Status.fromHeaderMap trailers = some status)
    (whole : ∀ value, getKey trailers grpcStatusDetails = some value →
      Base64Groups.decode .indifferent value.bytes ≠ none)
    (overlaid : Overlaid status.metadata.headers headers merged) {key : HeaderName}
    (user : ¬ (key = grpcStatus ∨ key = grpcMessage ∨ key = grpcStatusDetails))
    (free : containsKey headers key = false) (single : (getAll trailers key).length ≤ 1) :
    getAll merged key = getAll trailers key := by
  rw [overlaid_base overlaid free, SurvivingMetadata.read_last_value read whole, if_neg user]
  exact (last_alone _).mpr single

/-- The metadata of a call for one message: of a key that headers and trailers share, a success
    has the trailers' values and an error the headers'; every other key has all it had. -/
theorem response_metadata_overlaid (transport : Transport X σ T)
    (request : Request X (List (Option T))) (path : String) (sent : HttpRequest X (EncodeBody σ T))
    (response : HttpResponse (Body Status))
    (prepared : client.prepareRequest (client.encodeRequest request) path = .ok sent)
    (conveyed : transport sent = .ok response) :
    (∀ trailers got, response.body.tail = .trailers trailers →
      client.clientStreaming dec z transport request path = .ok got →
      Overlaid response.headers trailers got.metadata.headers) ∧
    (∀ metadata body t status, client.createResponse response = .ok ⟨metadata, body⟩ →
      Streaming.message dec z body = (.error status, t) →
      ∃ e, client.clientStreaming dec z transport request path = .error e ∧ e.Agrees status ∧
        Overlaid status.metadata.headers response.headers e.metadata.headers ∧
        ∀ trailers, Status.fromHeaderMap trailers = some status →
          (∀ value, getKey trailers grpcStatusDetails = some value →
            Base64Groups.decode .indifferent value.bytes ≠ none) →
          ∀ key, ¬ (key = grpcStatus ∨ key = grpcMessage ∨ key = grpcStatusDetails) →
            containsKey response.headers key = false → (getAll trailers key).length ≤ 1 →
            getAll e.metadata.headers key = getAll trailers key) ∧
    ∀ single : Request X T, request = single.map (fun message => [some message]) →
      client.unary dec z transport single path =
        client.clientStreaming dec z transport request path := by
  refine ⟨?_, ?_, ?_⟩
  · intro trailers got ends called
    exact success_overlaid dec z client prepared conveyed ends called
  · intro metadata body t status created failed
    obtain ⟨e, called, agrees, overlaid⟩ :=
      failure_overlaid dec z client prepared conveyed created failed
    refine ⟨e, called, agrees, overlaid, ?_⟩
    intro trailers read whole key user free single
    exact read_overlaid read whole overlaid user free single
  · intro single same
    rw [same]
    rfl

end Calls

section Retries

def retryKey : HeaderName := "x-retry"
def soon : HeaderValue := fromStatic "in a moment" (by decide)
def late : HeaderValue := fromStatic "tomorrow" (by decide)

def retryTrailers (code : Code) : HeaderMap := [(grpcStatus, code.toHeaderValue), (retryKey, late)]

/-- Headers that say soon, two messages, and trailers that say late. -/
def retryResponse : HttpResponse (Body Status) :=
  ⟨200, [(retryKey, soon)], twoBody (.trailers (retryTrailers .ok))⟩

def refusedResponse : HttpResponse (Body Status) :=
  ⟨200, [(retryKey, soon)], ⟨[], .trailers (retryTrailers .notFound)⟩⟩

def refusal : Status := ⟨.notFound, "", [], ⟨[(retryKey, late)]⟩⟩

theorem retry_answered : ∃ got, echoClient.clientStreaming echoDecoder plainCompressors
    (fun _ => .ok retryResponse) twoRequests "/greeter" = .ok got := by
  have good : ending (.response 200) (.trailers (retryTrailers .ok)) [] = none := by decide
  have streamed : echoClient.streaming (fun _ => .ok retryResponse) twoRequests "/greeter" =
      .ok ⟨⟨[(retryKey, soon)]⟩,
        .new () (twoBody (.trailers (retryTrailers .ok))) (.response 200) none none⟩ := rfl
  have same := takes_answers echoDecoder plainCompressors echoClient streamed
    (two_taken (.response 200) (.trailers (retryTrailers .ok)) good)
  cases answer : echoClient.clientStreaming echoDecoder plainCompressors
      (fun _ => .ok retryResponse) twoRequests "/greeter" with
  | error e =>
    rw [answer] at same
    exact same.elim
  | ok got => exact ⟨got, rfl⟩

theorem refused_message : ∃ t, Streaming.message echoDecoder plainCompressors
    (.new () refusedResponse.body (.response 200) none none) = (.error refusal, t) := by
  obtain ⟨t, reads, _⟩ := new_reads echoDecoder plainCompressors none none () refusedResponse.body
    (.response 200) (.short rfl)
  have verdict : (Outcome.short refusedResponse.body.data).verdict (.response 200)
      refusedResponse.body.tail = some refusal := by decide
  rw [verdict] at reads
  exact ⟨t, message_reads echoDecoder plainCompressors reads⟩

/-- The headers' value is lost in the success, and the trailers' in the error. -/
theorem shared_key_loses_values :
    (∃ got, echoClient.clientStreaming echoDecoder plainCompressors (fun _ => .ok retryResponse)
        twoRequests "/greeter" = .ok got ∧
      soon ∈ getAll retryResponse.headers retryKey ∧ soon ∉ getAll got.metadata.headers retryKey) ∧
    ∃ e, echoClient.clientStreaming echoDecoder plainCompressors (fun _ => .ok refusedResponse)
        twoRequests "/greeter" = .error e ∧
      late ∈ getAll (retryTrailers .notFound) retryKey ∧
      late ∉ getAll e.metadata.headers retryKey := by
  constructor
  · obtain ⟨got, answered⟩ := retry_answered
    have overlaid := success_overlaid echoDecoder plainCompressors echoClient rfl rfl rfl answered
    have values : getAll got.metadata.headers retryKey = [late] := overlaid retryKey
    refine ⟨got, answered, by decide, ?_⟩
    rw [values]
    decide
  · obtain ⟨t, failed⟩ := refused_message
    obtain ⟨e, answered, _, overlaid⟩ : ∃ e, echoClient.clientStreaming echoDecoder
        plainCompressors (fun _ => .ok refusedResponse) twoRequests "/greeter" = .error e ∧
        e.Agrees refusal ∧ Overlaid refusal.metadata.headers refusedResponse.headers
          e.metadata.headers :=
      failure_overlaid echoDecoder plainCompressors echoClient rfl rfl rfl failed
    have values : getAll e.metadata.headers retryKey = [soon] := overlaid retryKey
    refine ⟨e, answered, by decide, ?_⟩
    rw [values]
    decide

/-- The overlays of the answered call and of the refused one. -/
theorem response_metadata_overlaid_retry :
    (∃ got, echoClient.clientStreaming echoDecoder plainCompressors (fun _ => .ok retryResponse)
        twoRequests "/greeter" = .ok got ∧
      Overlaid [(retryKey, soon)] (retryTrailers .ok) got.metadata.headers) ∧
    ∃ e, echoClient.clientStreaming echoDecoder plainCompressors (fun _ => .ok refusedResponse)
        twoRequests "/greeter" = .error e ∧
      Overlaid [(retryKey, late)] [(retryKey, soon)] e.metadata.headers := by
  constructor
  · obtain ⟨got, answered⟩ := retry_answered
    obtain ⟨success, _, _⟩ := response_metadata_overlaid echoDecoder plainCompressors echoClient
      (fun _ => .ok retryResponse) twoRequests "/greeter" _ retryResponse rfl rfl
    exact ⟨got, answered, success _ got rfl answered⟩
  · obtain ⟨t, failed⟩ := refused_message
    obtain ⟨_, failure, _⟩ := response_metadata_overlaid echoDecoder plainCompressors echoClient
      (fun _ => .ok refusedResponse) twoRequests "/greeter" _ refusedResponse rfl rfl
    obtain ⟨e, answered, _, overlaid, _⟩ := failure _ _ t refusal rfl failed
    exact ⟨e, answered, overlaid⟩

end Retries

end MergedMetadata
