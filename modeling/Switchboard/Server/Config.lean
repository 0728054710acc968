import Switchboard.Base
import Switchboard.Http.Intake
import Switchboard.Http.Layer
import Switchboard.Route.Basic
import Switchboard.Server.Address

/-!
# Switchboard.Server.Config

What a server is made from, and how it shows itself.  A configuration is
accepted if its routes can be served; everything else about it is right as it
stands.
-/

namespace Switchboard.Server

open Http

structure Config (σ : Type) where
  port : UInt16 := 3000
  host : Address := .unspecified
  routes : List (Route σ) := []
  /-- Layers around the server, the innermost first. -/
  middleware : List Layer := []
  /-- Resolvers that go before the base ones. -/
  interpreters : Interpreters σ := []
  context : Context := .empty
  reporter : Option (Reporter σ) := none
  renderer : Option (Renderer σ) := none
  disableHelmet : Bool := false
  disableCookie : Bool := false
  disableBodyParser : Bool := false
  /-- Say nothing about listening and stopping. -/
  test : Bool := false

namespace Config

variable {σ : Type}

/-- Add routes behind those that are there. -/
def addRoutes (c : Config σ) (routes : List (Route σ)) : Config σ :=
  { c with routes := c.routes ++ routes }

/-- Accept a configuration, or name the first fault of its routes. -/
def build (c : Config σ) : Except RouteFault (Config σ) :=
  (Route.checkAll c.routes).map fun () => c

/-- How a configuration shows itself. -/
def described (c : Config σ) : String :=
  s!"ServerConfig \x7b port: {c.port}, host: {c.host.text}, routes: {c.routes.length}, "
    ++ s!"middleware: {c.middleware.length}, interpreters: {c.interpreters.described}, "
    ++ s!"on_error: {c.reporter.isSome}, handle_error: {c.renderer.isSome}, "
    ++ s!"disable_helmet: {c.disableHelmet}, disable_cookie: {c.disableCookie}, "
    ++ s!"disable_body_parser: {c.disableBodyParser}, test: {c.test} \x7d"

/-- The resolvers in force: the base ones with the configured ones over
them. -/
def registry (c : Config σ) : Registry σ := .merge Base.interpreters c.interpreters

def recovery (c : Config σ) : Recovery σ := ⟨c.context, c.reporter, c.renderer⟩

def lifecycle (c : Config σ) : Lifecycle σ := ⟨c.registry, c.context, c.recovery⟩

def parsing (c : Config σ) : Parsing := ⟨!c.disableCookie, !c.disableBodyParser⟩

/-- All layers, the innermost first. -/
def layers (c : Config σ) : List Layer :=
  (if c.disableHelmet then [] else Layer.security) ++ c.middleware

end Config

end Switchboard.Server
