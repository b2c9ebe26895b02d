import RecordBridge.Error

/-!
# Plugin errors

Why a request to the plugin gives no file.
-/

namespace RecordBridge

/-- Why a request gives no file. -/
inductive PluginError where
  /-- The parameter is malformed or incomplete. -/
  | parameter (reason : String)
  | messageNotFound (name : String)
  /-- A field has no counterpart in a schema. -/
  | unsupported (field reason : String)
  | generation (cause : GenerationError)
  deriving DecidableEq, Repr

/-- The wording of an error. -/
def PluginError.message : PluginError → String
  | .parameter reason => "invalid parameter: " ++ reason
  | .messageNotFound name => "message not found: " ++ name
  | .unsupported field reason => "unsupported field " ++ field ++ ": " ++ reason
  | .generation cause => cause.message

end RecordBridge
