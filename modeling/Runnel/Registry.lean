import Runnel.Host.Listing
import Runnel.Text.Escaped
import Runnel.Utility.Handler

/-!
# Runnel.Registry

Names of commands and what stands behind them.

* `Registration`: the proof that a name was registered by a certain call.
* `Registry.register`: enters a handler under a name, in place of an older one, whose registration
  is worth nothing from then on.
* `Registry.unregister?`: takes a name away again, but only from the call that has it now.

All registries draw their serial numbers from one source, so a registration of one registry is worth
nothing in another.
-/

namespace Runnel

/-- The proof that a name was registered by a certain call. -/
structure Registration where
  /-- The name. -/
  name : String
  /-- The number of the call. -/
  serial : Nat
  deriving Repr, DecidableEq

/-- A handler and the call that registered it. -/
structure RegistryEntry where
  /-- The handler. -/
  handler : Handler
  /-- The number of the call. -/
  serial : Nat

/-- Handlers by name. -/
structure Registry where
  /-- Each name at most once. -/
  entries : List (String × RegistryEntry)

namespace Registry

/-- No name is registered. -/
def empty : Registry := ⟨[]⟩

/-- The entry of a name. -/
def entry? (r : Registry) (name : String) : Option RegistryEntry :=
  r.entries.lookup name

/-- The handler of a name. -/
def get? (r : Registry) (name : String) : Option Handler :=
  (r.entry? name).map RegistryEntry.handler

/-- The name is registered. -/
def contains (r : Registry) (name : String) : Bool :=
  (r.entry? name).isSome

/-- The entries without a name. -/
def erase (r : Registry) (name : String) : Registry :=
  ⟨r.entries.filter fun e => e.1 != name⟩

/-- Registers a name in the call of this number. -/
def register (r : Registry) (serial : Nat) (name : String) (handler : Handler) :
    Registration × Registry :=
  (⟨name, serial⟩, ⟨(r.erase name).entries ++ [(name, ⟨handler, serial⟩)]⟩)

/-- Takes a name away if the call of the registration has it. -/
def unregister? (r : Registry) (registration : Registration) : Option Registry :=
  match r.entry? registration.name with
  | some entry =>
    if entry.serial = registration.serial then some (r.erase registration.name) else none
  | none => none

/-- All names, sorted. -/
def names (r : Registry) : List String :=
  Disk.sortedNames (r.entries.map Prod.fst)

/-- Registers handlers one after the other, from the call of this number on. -/
def registerAll (r : Registry) (serial : Nat) (handlers : List (String × Handler)) : Registry :=
  (handlers.foldl (fun (s, r) e => (s + 1, (r.register s e.1 e.2).2)) (serial, r)).2

/-- A description for people. -/
def describe (r : Registry) : String :=
  "CommandRegistry \x7b commands: " ++ Text.bracketed (r.names.map Text.escaped) ++ " \x7d"

end Registry
end Runnel
