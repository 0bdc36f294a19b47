import ScriptHost.Text.Quoted

/-!
# Faults of scopes

Why the names for a script cannot be assembled.
-/

namespace ScriptHost

/-- What a supplied helper can disagree about; `helper` stands for what is no helper at all. -/
inductive HelperField where
  | helper
  | request
  | response
  | resource
  | resolver
  deriving DecidableEq, Repr

def HelperField.name : HelperField → String
  | .helper => "helper"
  | .request => "request"
  | .response => "response"
  | .resource => "resource"
  | .resolver => "resolver"

inductive ScopeError where
  | reservedKey (key : String)
  | inconsistentHelper (field : HelperField)
  | missingResponse
  | provider (name message : String)
  deriving DecidableEq, Repr

def ScopeError.message : ScopeError → String
  | .reservedKey key =>
    "binding " ++ Text.quoted key ++ " is reserved and cannot be overwritten or removed"
  | .inconsistentHelper field => "supplied " ++ field.name ++ " disagrees with the script helper"
  | .missingResponse => "a request was supplied without a response"
  | .provider name message => "bindings provider " ++ name ++ " failed: " ++ message

end ScriptHost
