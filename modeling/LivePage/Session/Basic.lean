import LivePage.Config
import LivePage.Event.Bus
import LivePage.Interaction.Waiting
import LivePage.Render.Cache
import LivePage.Render.Fault

/-!
# Sessions

A session shows pages in one context over time. What it announces is collected, and given to the
bus by `deliver`.
-/

namespace LivePage

structure Session where
  config : Config
  components : Components
  host : Host
  registry : Registry := {}
  interaction : Interaction
  now : Nat := 0
  waiting : List Waiting := []
  cache : Cache Rendering
  bus : Bus
  /-- The failures of rendering with the ids of the pages. -/
  failures : List (String × RenderError) := []

namespace Session

/-- A session at time zero. -/
def start (config : Config) (components : Components) (host : Host) (context : Context) :
    Session where
  config := config
  components := components
  host := host
  interaction := { context := context }
  cache := { maxSize := config.cache.maxSize, ttl := config.cache.ttl }
  bus := Bus.ofCapacity config.executor.bufferSize

def context (s : Session) : Context := s.interaction.context

def renderer (s : Session) : Renderer := ⟨s.components, s.host.clock⟩

def setting (s : Session) : Setting := ⟨s.host, s.registry, s.now, s.config.executor.maxDepth⟩

def announce (s : Session) (n : Notice) : Session :=
  { s with interaction := s.interaction.announce n }

def notify (s : Session) (kind : EventKind) (parameters : Fields Value) : Session :=
  s.announce (.event ⟨kind, parameters⟩)

/-- Gives the bus all that was announced. -/
def deliver (s : Session) : Session :=
  { s with
    bus := s.interaction.notices.foldl Bus.announce s.bus
    interaction := { s.interaction with notices := [] } }

def assign (s : Session) (k : Namespace) (path : String) (v : Value) :
    Session × Option PathError :=
  let (c, fault) := s.context.assign k path v
  ({ s with interaction := { s.interaction with context := c } }, fault)

end Session

end LivePage
