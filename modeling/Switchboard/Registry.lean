import Switchboard.Script
import Switchboard.Text.Quoted

/-!
# Switchboard.Registry

Which resolver answers which command.  Resolvers are registered under names,
and a later registration of a name takes the place of an earlier one; so a
name resolves to the last resolver that was registered under it.
-/

namespace Switchboard

/-- Answers a command from its payload and the ambient context. -/
abbrev Resolver (σ : Type) := Json → Context → Job σ Answer

/-- Resolvers under their names, in the order of registration. -/
abbrev Interpreters (σ : Type) := List (String × Resolver σ)

/-- A list of texts, each quoted. -/
def quotedList (items : List String) : String :=
  "[" ++ ", ".intercalate (items.map Text.quoted) ++ "]"

namespace Interpreters

variable {σ : Type}

def names (rs : Interpreters σ) : List String := rs.map (·.1)

/-- How a list of interpreters shows itself: its names in order. -/
def described (rs : Interpreters σ) : String := quotedList rs.names

end Interpreters

/-- The resolvers that are in force. -/
structure Registry (σ : Type) where
  resolvers : Dict (Resolver σ)

namespace Registry

variable {σ : Type}

def empty : Registry σ := ⟨.empty⟩

def register (r : Registry σ) (name : String) (resolver : Resolver σ) : Registry σ :=
  ⟨r.resolvers.insert name resolver⟩

/-- Register resolvers one after another. -/
def extend (r : Registry σ) (more : Interpreters σ) : Registry σ :=
  ⟨r.resolvers.insertAll more⟩

/-- The base resolvers with others over them. -/
def merge (base overrides : Interpreters σ) : Registry σ :=
  (empty.extend base).extend overrides

def get? (r : Registry σ) (name : String) : Option (Resolver σ) := r.resolvers.get? name

def contains (r : Registry σ) (name : String) : Bool := r.resolvers.contains name

/-- The registered names, in increasing order. -/
def names (r : Registry σ) : List String := r.resolvers.keys

def size (r : Registry σ) : Nat := r.resolvers.size

def isEmpty (r : Registry σ) : Bool := r.size == 0

/-- How a registry shows itself. -/
def described (r : Registry σ) : String :=
  s!"Registry \x7b names: {quotedList r.names} \x7d"

/-- The job that answers a command, if its name is known. -/
def job? (r : Registry σ) (ambient : Context) (c : Command) : Option (Job σ Answer) :=
  (r.get? c.name).map fun resolver => resolver c.payload ambient

theorem isSome_job? (r : Registry σ) (ambient : Context) (c : Command) :
    (r.job? ambient c).isSome = r.contains c.name := by
  simp [job?, contains, get?, Dict.contains]

/-- The job that answers a command; an unknown name is answered with a
failure. -/
def resolve (r : Registry σ) (ambient : Context) (c : Command) : Job σ Answer :=
  (r.job? ambient c).getD (.done (.error (.unknownCommand c.name)))

/-- What a script is interpreted with. -/
def surroundings (r : Registry σ) (ambient : Context) : Surroundings σ :=
  ⟨ambient, r.job? ambient⟩

end Registry

end Switchboard
