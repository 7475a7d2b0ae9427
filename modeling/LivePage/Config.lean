import LivePage.Json.Decode

/-!
# Configuration

Every setting has a default, and a document may give any part of them.
-/

namespace LivePage

open Json (Tree DecodeError)

structure RenderOptions where
  /-- Renders even where a result is kept. -/
  debug : Bool := false
  tracking : Bool := false
deriving DecidableEq, Repr, Inhabited

structure CacheConfig where
  enabled : Bool := false
  /-- How long a result is kept, in milliseconds; zero is for ever. -/
  ttl : Nat := 60000
  maxSize : Nat := 100
deriving DecidableEq, Repr, Inhabited

structure ExecutorConfig where
  /-- How deep actions may follow from one another. -/
  maxDepth : Nat := 32
  bufferSize : Nat := 1000
deriving DecidableEq, Repr, Inhabited

structure Config where
  maxDepth : Nat := 100
  maxNodes : Nat := 10000
  options : RenderOptions := {}
  cache : CacheConfig := {}
  executor : ExecutorConfig := {}
  memory : Nat := 512
deriving DecidableEq, Repr, Inhabited

namespace RenderOptions

def spec : Json.Decode.Spec RenderOptions where
  names := ["debug", "enablePerformanceTracking"]
  write k t o :=
    match k with
    | "debug" => (Json.Decode.bool t).map fun b => { o with debug := b }
    | _ => (Json.Decode.bool t).map fun b => { o with tracking := b }

def ofTree (surplus : DecodeError) : Tree → Except DecodeError RenderOptions :=
  Json.Decode.record spec surplus {}

def toValue (o : RenderOptions) : Value :=
  .obj [("debug", .bool o.debug), ("enablePerformanceTracking", .bool o.tracking)]

end RenderOptions

namespace CacheConfig

def spec : Json.Decode.Spec CacheConfig where
  names := ["enabled", "ttl", "maxSize"]
  write k t c :=
    match k with
    | "enabled" => (Json.Decode.bool t).map fun b => { c with enabled := b }
    | "ttl" => (Json.Decode.nat t).map fun n => { c with ttl := n }
    | _ => (Json.Decode.nat t).map fun n => { c with maxSize := n }

def ofTree (surplus : DecodeError) : Tree → Except DecodeError CacheConfig :=
  Json.Decode.record spec surplus {}

def toValue (c : CacheConfig) : Value :=
  .obj [("enabled", .bool c.enabled), ("ttl", .nat c.ttl), ("maxSize", .nat c.maxSize)]

end CacheConfig

namespace ExecutorConfig

def spec : Json.Decode.Spec ExecutorConfig where
  names := ["maxChainDepth", "eventBufferSize"]
  write k t c :=
    match k with
    | "maxChainDepth" => (Json.Decode.nat t).map fun n => { c with maxDepth := n }
    | _ => (Json.Decode.nat t).map fun n => { c with bufferSize := n }

def ofTree (surplus : DecodeError) : Tree → Except DecodeError ExecutorConfig :=
  Json.Decode.record spec surplus {}

def toValue (c : ExecutorConfig) : Value :=
  .obj [("maxChainDepth", .nat c.maxDepth), ("eventBufferSize", .nat c.bufferSize)]

end ExecutorConfig

namespace Config

def spec (surplus : DecodeError) : Json.Decode.Spec Config where
  names := ["maxDepth", "maxNodes", "defaultOptions", "cache", "executor", "expressionCacheSize"]
  write k t c :=
    match k with
    | "maxDepth" => (Json.Decode.nat t).map fun n => { c with maxDepth := n }
    | "maxNodes" => (Json.Decode.nat t).map fun n => { c with maxNodes := n }
    | "defaultOptions" => (RenderOptions.ofTree surplus t).map fun o => { c with options := o }
    | "cache" => (CacheConfig.ofTree surplus t).map fun x => { c with cache := x }
    | "executor" => (ExecutorConfig.ofTree surplus t).map fun x => { c with executor := x }
    | _ => (Json.Decode.nat t).map fun n => { c with memory := n }

def ofTree (surplus : DecodeError) : Tree → Except DecodeError Config :=
  Json.Decode.record (spec surplus) surplus {}

/-- The configuration of a document. -/
def ofValue (v : Value) : Except DecodeError Config := ofTree .shape (.ofValue v)

/-- The configuration of a text. -/
def ofText (text : String) : Except DecodeError Config :=
  (Json.read text.toList).decode (ofTree Json.surplusInText)

def toValue (c : Config) : Value :=
  .obj [("maxDepth", .nat c.maxDepth), ("maxNodes", .nat c.maxNodes),
    ("defaultOptions", c.options.toValue), ("cache", c.cache.toValue),
    ("executor", c.executor.toValue), ("expressionCacheSize", .nat c.memory)]

end Config

end LivePage
