import ElasticCore.Cache.Geometry
import ElasticCore.Instruction.Isa

/-! # Settings

The parameters of a core, in three sections with a default for every value, and the
constraints they have to meet.
-/

namespace ElasticCore

structure General where
  trace : Bool := false
  deriving DecidableEq, Repr

structure PipelineShape where
  stages : UInt64 := 1
  isa : Isa := .base
  deriving DecidableEq, Repr

structure Settings where
  general : General := {}
  cache : CacheShape := {}
  pipeline : PipelineShape := {}
  deriving DecidableEq, Repr

def PipelineShape.validate (s : PipelineShape) : Except BuildError Unit :=
  if s.stages = 0 then .error .noStages else .ok ()

/-- The first violated constraint; those of the cache come first. -/
def Settings.validate (s : Settings) : Except BuildError Unit := do
  s.cache.validate
  s.pipeline.validate

end ElasticCore
