import SeriesLoad.Metric.Measurement

/-!
# Measurements of services

A web server, a relational database and a key-value store.
-/

namespace SeriesLoad.Metric.Service

variable {γ : Type} [Words γ]

/-- A count that rises by uniform steps. -/
def counter (key : String) (high : Float) : Metric :=
  .int key (.monotonic (.uniform 0.0 high) 0.0)

/-- A level that starts in the middle of its bounds and moves by uniform steps. -/
def gauge (key : String) (delta : Float) (bounds : Bounds) : Metric :=
  .int key (.walk (.uniform (-delta) delta) bounds (bounds.high / 2.0))

/-- The web server. -/
def webServer (start : Instant) : Measurement where
  name := "nginx"
  time := start
  metrics :=
    [counter "accepts" 5.0, gauge "active" 1.0 .hundred, counter "handled" 5.0,
     gauge "reading" 1.0 .hundred, counter "requests" 5.0,
     gauge "waiting" 1.0 .hundred, gauge "writing" 1.0 .hundred]

/-- The relational database. Its measurement is spelled as loaders have always known it. -/
def relational (start : Instant) : Measurement where
  name := "postgresl"
  time := start
  metrics :=
    [gauge "numbackends" 5.0 (.upTo 1000.0), counter "xact_commit" 1000.0,
     counter "xact_rollback" 1000.0, counter "blks_read" 1000.0, counter "blks_hit" 1000.0,
     counter "tup_returned" 1000.0, counter "tup_fetched" 1000.0, counter "tup_inserted" 1000.0,
     counter "tup_updated" 1000.0, counter "tup_deleted" 1000.0, counter "conflicts" 1000.0,
     counter "temp_files" 1000.0, counter "temp_bytes" 1048576.0, counter "deadlocks" 1000.0,
     counter "blk_read_time" 1000.0, counter "blk_write_time" 1000.0]

/-- The memory of the key-value store: up to 8 GiB. -/
def storeSize : Bounds := .eightGiB

/-- A rate of traffic in kilobytes per second. -/
def traffic (key : String) : Metric :=
  .float key (.walk (.uniform (-10.0) 10.0) (.upTo 10000.0) 100.0)

/-- Processor time that was used. -/
def processorTime (key : String) : Metric := .float key (.monotonic (.uniform 0.0 1.0) 0.0)

/-- The key-value store. -/
def keyValueStore (start : Instant) : Draw γ Measurement := do
  let used ← Draw.between 1048576.0 8589934592.0
  return {
    name := "redis"
    time := start
    metrics :=
      [.int "uptime_in_seconds" (.monotonic (.uniform 10.0 10.0) 0.0),
       counter "total_connections_received" 10.0,
       counter "expired_keys" 100.0,
       counter "evicted_keys" 100.0,
       counter "keyspace_hits" 100.0,
       counter "keyspace_misses" 100.0,
       gauge "instantaneous_ops_per_sec" 100.0 (.upTo 10000.0),
       traffic "instantaneous_input_kbps",
       traffic "instantaneous_output_kbps",
       gauge "connected_clients" 10.0 (.upTo 10000.0),
       .int "used_memory" (.walk (.normal 0.0 1048576.0) storeSize used),
       counter "rdb_changes_since_last_save" 100.0,
       counter "sync_full" 1.0,
       counter "sync_partial_ok" 1.0,
       counter "sync_partial_err" 1.0,
       gauge "pubsub_channels" 1.0 .hundred,
       gauge "pubsub_patterns" 1.0 .hundred,
       gauge "latest_fork_usec" 100.0 (.upTo 10000.0),
       gauge "connected_slaves" 1.0 (.upTo 10.0),
       counter "master_repl_offset" 1024.0,
       .float "mem_fragmentation_ratio" (.walk (.normal 0.0 0.01) ⟨1.0, 2.0, by decide⟩ 1.1),
       processorTime "used_cpu_sys",
       processorTime "used_cpu_user"] }

end SeriesLoad.Metric.Service
