import ScriptHost.Provider

/-!
# Sample providers

Providers that carry out a list of simple actions, and stop at the first that fails.
-/

namespace ScriptHost.Sample

inductive Action where
  | put (name : String) (value : BindingValue)
  | remove (name : String)
  /-- Binds a name to what another one stands for, if that is bound. -/
  | copy (source target : String)
  | has (name target : String)
  | count (target : String)
  /-- Binds the labels of the services that the scope's helper finds. -/
  | acquire (q : Query) (target : String)
  | fail (message : String)
  | sleep (millis : Nat)

/-- Goes on after a write, unless it failed. -/
def proceed {α : Type} (next : Provision) : Except ScopeError α → Provision
  | .ok _ => next
  | .error e => .fail e

def bind (name : String) (value : BindingValue) (next : Provision) : Provision :=
  .put name value (proceed next)

/-- The steps of a list of actions, taken by the provider of a name. -/
def provision (provider : String) : List Action → Provision
  | [] => .done
  | a :: rest =>
    let next := provision provider rest
    match a with
    | .put name value => bind name value next
    | .remove name => .take name (proceed next)
    | .copy source target => .read fun b =>
      match b.get? source with
      | some value => bind target value next
      | none => next
    | .has name target => .read fun b => bind target (.data (.bool (b.contains name))) next
    | .count target => .read fun b => bind target (.data (.int b.size)) next
    | .acquire q target => .read fun b =>
      match (b.get? Reserved.helper).bind BindingValue.asHelper? with
      | none => .fail (.provider provider "no helper")
      | some h => .acquire h q fun services =>
        bind target (.data (.list (services.map fun s => .text s.label))) next
    | .fail message => .fail (.provider provider message)
    | .sleep millis => .pause (millis * 1000) next

end ScriptHost.Sample
