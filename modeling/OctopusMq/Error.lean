import OctopusMq.Text

set_option autoImplicit false

/- How reading the settings can fail. -/
namespace OctopusMq

/-- The exceptions of the set-up, and a null pointer that is followed. -/
inductive SetupError where
  | runtimeError (what : Text)
  | fieldTypeError (fieldName : Text)
  | missingFieldError (fieldName : Text)
  | unknownProtocolError (protocolName : Text)
  | adapterBindingError (bindingName firstAdapterName secondAdapterName : Text)
  /-- Of the constructors of `scope`. -/
  | scope (fault : Fault)
  /-- `nlohmann::json::type_error`, which is no `std::runtime_error`. -/
  | jsonTypeError
  /-- `boost::bad_lexical_cast`, which is no `std::runtime_error`. -/
  | badLexicalCast
  | nullPointer
deriving DecidableEq, Repr

namespace SetupError

/-- What `catch (const std::runtime_error &)` sees of it. -/
def what : SetupError → Option Text
  | runtimeError what => some what
  | fieldTypeError fieldName => some (bytes "field '" ++ fieldName ++ bytes "' has a wrong type.")
  | missingFieldError fieldName =>
      some (bytes "filed '" ++ fieldName ++ bytes "' is missing from settings.")
  | unknownProtocolError protocolName =>
      some (bytes "unknown protocol: '" ++ protocolName ++ bytes "'.")
  | adapterBindingError bindingName firstAdapterName secondAdapterName =>
      some (bytes "binding collision in '" ++ secondAdapterName ++ bytes "' and '" ++
        firstAdapterName ++ bytes "': " ++ bindingName ++ bytes ".")
  | scope (.invalidTopicFilter topic) =>
      some (bytes "invalid topic filter '" ++ topic ++ bytes "'.")
  | _ => none

end SetupError

end OctopusMq
