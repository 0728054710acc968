import Switchboard.Json.Basic

/-!
# Switchboard.Context

The ambient context: a value that is configured once and handed to every
resolver and every error hook.
-/

namespace Switchboard

structure Context where
  value : Json
  deriving Inhabited

namespace Context

/-- The context of a server that configures none. -/
def empty : Context := ⟨.object []⟩

instance : EmptyCollection Context := ⟨empty⟩

/-- The member of a context under a key, if the context is an object. -/
def get? (c : Context) (key : String) : Option Json := c.value.member? key

end Context

end Switchboard
