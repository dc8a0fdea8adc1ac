import PureGrpc.FallibleLoops

/-!
A service descriptor as the generator's service definition, and the stubs generated
for it: a server module and a client module.
-/
namespace ProtoServices
open FallibleLoops

structure MethodDescriptorProto where
  name : Option String
  inputType : Option String
  outputType : Option String
  clientStreaming : Option Bool
  serverStreaming : Option Bool
  deriving DecidableEq, Repr

structure ServiceDescriptorProto where
  name : Option String
  method : List MethodDescriptorProto
  deriving DecidableEq, Repr

inductive StreamingType where
  | none
  | client
  | server
  | bidi
  deriving DecidableEq, Repr

def StreamingType.ofFlags : Bool → Bool → StreamingType
  | false, false => .none
  | true, false => .client
  | false, true => .server
  | true, true => .bidi

structure MethodDef where
  name : String
  inputType : String
  outputType : String
  streaming : StreamingType
  codecPath : String
  deriving DecidableEq, Repr

structure ServiceDef where
  name : String
  package : Option String
  methods : List MethodDef
  deriving DecidableEq, Repr

def defaultCodecPath : String := "grpc_core::codec::prost_codec::ProstCodec"

def required (field : Option String) (missing : String) : Except String String :=
  match field.filter (· ≠ "") with
  | some value => .ok value
  | none => .error missing

/-- The type's last segment under the module prefix; the package is dropped. -/
def resolveType (protoType protoPath : String) : String :=
  let cleaned := match protoType.toList with
    | '.' :: rest => rest
    | all => all
  protoPath ++ "::" ++ String.ofList (cleaned.reverse.takeWhile (· ≠ '.')).reverse

def methodFromProto (proto : MethodDescriptorProto) (protoPath : String) :
    Except String MethodDef := do
  let protoName ← required proto.name "method descriptor is missing a name"
  let inputType ← required proto.inputType
    ("method `" ++ protoName ++ "` is missing an input_type")
  let outputType ← required proto.outputType
    ("method `" ++ protoName ++ "` is missing an output_type")
  return ⟨protoName, resolveType inputType protoPath, resolveType outputType protoPath,
    .ofFlags (proto.clientStreaming.getD false) (proto.serverStreaming.getD false),
    defaultCodecPath⟩

def serviceFromProto (proto : ServiceDescriptorProto) (package protoPath : String) :
    Except String ServiceDef := do
  let name ← required proto.name "service descriptor is missing a name"
  let methods ← gather (fun m => do return [← methodFromProto m protoPath]) proto.method
  return ⟨name, some package, methods⟩

theorem required_ok {field : Option String} {missing value : String}
    (run : required field missing = .ok value) : field = some value := by
  unfold required at run
  split at run
  next found =>
    cases run
    exact (Option.filter_eq_some_iff.mp found).1
  · cases run

theorem service_from_proto_ok {proto : ServiceDescriptorProto} {package protoPath : String}
    {service : ServiceDef} (run : serviceFromProto proto package protoPath = .ok service) :
    proto.name = some service.name ∧ service.package = some package := by
  obtain ⟨name, named, run⟩ := bind_ok run
  obtain ⟨methods, _, run⟩ := bind_ok run
  cases run
  exact ⟨required_ok named, rfl⟩

inductive Stub where
  | server (service : ServiceDef)
  | client (service : ServiceDef)
  deriving DecidableEq, Repr

def Stub.service : Stub → ServiceDef
  | .server service => service
  | .client service => service

end ProtoServices
