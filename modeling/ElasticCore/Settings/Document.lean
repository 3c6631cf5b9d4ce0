import ElasticCore.Json.Streaming
import ElasticCore.Settings.Basic

/-! # Settings documents

Settings as a JSON text, with one record for each section. A text is accepted when a
deserializer takes it as such a document and its settings are valid.
-/

namespace ElasticCore

open Json

section Records

variable (d : Deserializer)

def General.record : Record General where
  name := "GeneralConfig"
  defaults := {}
  fields := [.of "trace" d.boolean fun b s => { s with trace := b }]

def CacheShape.record : Record CacheShape where
  name := "CacheConfig"
  defaults := {}
  fields := [
    .of "data_width" d.word32 fun n s => { s with dataWidth := n },
    .of "addr_width" d.word32 fun n s => { s with addrWidth := n },
    .of "num_blocks" d.word64 fun n s => { s with numBlocks := n }]

def PipelineShape.record : Record PipelineShape where
  name := "PipelineConfig"
  defaults := {}
  fields := [
    .of "stages" d.word64 fun n s => { s with stages := n },
    .of "isa" (d.choice Isa.ofName? Isa.spellings) fun i s => { s with isa := i }]

def Settings.record : Record Settings where
  name := "Config"
  defaults := {}
  fields := [
    .of "general" (d.record (General.record d)) fun g s => { s with general := g },
    .of "cache" (d.record (CacheShape.record d)) fun c s => { s with cache := c },
    .of "pipeline" (d.record (PipelineShape.record d)) fun p s => { s with pipeline := p }]

end Records

inductive LoadError
  | document (fault : Fault)
  | parameters (error : BuildError)
  deriving DecidableEq

/-- The message of an error, unless the text is not even JSON. -/
def LoadError.message? : LoadError → Option String
  | document fault => fault.message?.map ("invalid configuration: " ++ ·)
  | parameters error => some error.message

namespace Settings

/-- The valid settings that a text describes to a deserializer. -/
def load (d : Deserializer) (text : String) : Except LoadError Settings :=
  match d.whole (d.record (record d)) text with
  | .error fault => .error (.document fault)
  | .ok s =>
    match s.validate with
    | .error e => .error (.parameters e)
    | .ok () => .ok s

def ofText (text : String) : Except LoadError Settings := load streaming text

end Settings

end ElasticCore
