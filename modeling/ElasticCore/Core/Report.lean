import ElasticCore.Core.Counters
import ElasticCore.Decimal.Fixed

/-! # Reports

The counters as a text: three parts under rules, one line for each counter. Instructions
per cycle have four decimal places and the hit rate, in percent, has two.
-/

namespace ElasticCore.Counters

def rule (c : Char) : String := "".pushn c 58

def report (c : Counters) : String :=
  "\n".intercalate [
    rule '=',
    "PIPELINE STATISTICS",
    rule '=',
    s!"sim_cycles               {c.cycles}",
    s!"sim_accepted             {c.accepted}",
    s!"sim_retired              {c.retired}",
    s!"sim_ipc                  {Decimal.fixed 4 c.ipc}",
    rule '-',
    "DATA CACHE",
    s!"  loads                  {c.loads}",
    s!"  dcache.hits            {c.cacheHits}",
    s!"  dcache.misses          {c.cacheMisses}",
    s!"  dcache.hit_rate        {Decimal.fixed 2 (c.hitRate * 100.0)}%",
    rule '-',
    "HANDSHAKE",
    s!"  sink_stall_cycles      {c.sinkStalls}",
    s!"  skid.overflows         {c.overflows}",
    s!"  skid.drains            {c.drains}"]

end ElasticCore.Counters
