/-!
# Reserved names

The names that every script with a request sees and that only the host gives a meaning. The name
that asks for a final flush is not one of them.
-/

namespace ScriptHost

namespace Reserved

def helper : String := "sling"
def request : String := "request"
def response : String := "response"
def resource : String := "resource"
def resolver : String := "resolver"
def reader : String := "reader"
def out : String := "out"
def log : String := "log"
def script : String := "script"

/-- The name that asks for the output to be flushed after a run. -/
def flush : String := "flush"

def names : List String :=
  [helper, request, response, resource, resolver, reader, out, log, script]

end Reserved

def isReserved (name : String) : Bool :=
  Reserved.names.contains name

end ScriptHost
