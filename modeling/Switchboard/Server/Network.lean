import Switchboard.Server.Basic

/-!
# Switchboard.Server.Network

The endpoints of this host that are held by servers.  An endpoint can be bound
while nobody else holds it; port zero stands for any port that is free.
-/

namespace Switchboard.Server

structure Network where
  taken : List Endpoint := []

namespace Network

/-- Where the search for a free port begins. -/
def firstFreePort : Nat := 49152

/-- Do two addresses overlap? -/
def overlap (a b : Address) : Bool := a = b || a = .unspecified || b = .unspecified

/-- Does somebody hold an endpoint already? -/
def isTaken (n : Network) (e : Endpoint) : Bool :=
  n.taken.any fun t => t.port = e.port && overlap t.host e.host

/-- The first free port from one on, on a given host. -/
def freePort (n : Network) (host : Address) (port : Nat) : (steps : Nat) → Nat
  | 0 => port
  | steps + 1 => if n.isTaken ⟨host, port⟩ then n.freePort host (port + 1) steps else port

/-- What comes of binding an address and a port. -/
def bind (n : Network) (host : Address) (port : UInt16) : Bound :=
  let number :=
    if port = 0 then n.freePort host firstFreePort (n.taken.length + 1) else port.toNat
  if n.isTaken ⟨host, number⟩ then .refused "Address already in use (os error 98)"
  else .held ⟨host, number⟩

/-- The endpoints that are held after a deed. -/
def after (n : Network) : Deed → Network
  | .bind (.held e) => ⟨e :: n.taken⟩
  | .shutdown e => ⟨n.taken.erase e⟩
  | _ => n

end Network

end Switchboard.Server
