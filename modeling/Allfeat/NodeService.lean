import Allfeat.TaskManager

/-!
# The tasks the node spawns, and what their supervision gives

`startNodeImpl` lists, in order, the tasks that `new_partial` and `start_node_impl` spawn for a
configuration: their own, and those of the library calls they hand the essential spawn handle
to, which are the transaction pool, the BABE import queue and the storage monitor. `spawnTasks`
lists the tasks of Frontier's `spawn_tasks`. What `sc_service::spawn_tasks` spawns, and what the
network, the offchain workers and the block proposer spawn on the ordinary handle they are
given, is not listed, and every library call is taken to succeed. `start_node` runs
`start_node_impl` for libp2p and reaches `todo!()` for litep2p.

With the task manager's invariant: over every run that adds only best-effort tasks, the node
goes down exactly when one of its essential tasks ends; once one has ended, every task the node
launched is stopped and the shutdown path has run once; and while the node is up its
consensus tasks run. Every Frontier task is essential, the filter-pool maintenance included.
-/

namespace Allfeat

inductive NetworkBackendType
  | libp2p
  | litep2p
deriving DecidableEq, Repr

/-- What `start_node` reads of its configuration and arguments to decide what to spawn. -/
structure NodeConfig where
  telemetryEndpoints : Option (List (String × Nat))
  offchainWorkerEnabled : Bool
  noHardwareBenchmarks : Bool
  databasePath : Option String
  isAuthority : Bool
  disableGrandpa : Bool
  networkBackend : NetworkBackendType
  storageMonitorThreshold : Nat
deriving DecidableEq, Repr

namespace NodeConfig

def telemetry (cfg : NodeConfig) : Bool :=
  (cfg.telemetryEndpoints.filter fun x => !x.isEmpty).isSome

def hwbench (cfg : NodeConfig) : Bool := !cfg.noHardwareBenchmarks && cfg.databasePath.isSome

def enableGrandpa (cfg : NodeConfig) : Bool := !cfg.disableGrandpa

def storageMonitor (cfg : NodeConfig) : Bool :=
  cfg.databasePath.isSome && cfg.storageMonitorThreshold != 0

end NodeConfig

def telemetryWorker : Task := ⟨"telemetry", none, false, false⟩

/-! The tasks the libraries spawn on the essential handle: the transaction pool's background
task, the BABE worker answering epoch queries, and the import worker of BABE's `BasicQueue`. -/

def txpoolBackground : Task := ⟨"txpool-background", some "transaction-pool", true, false⟩

def babeWorker : Task := ⟨"babe-worker", some "babe", true, false⟩

def blockImportWorker : Task := ⟨"basic-block-import-worker", some "block-import", true, true⟩

def offchainWorkersRunner : Task := ⟨"offchain-workers-runner", some "offchain-work", false, false⟩

def telemetryHwbench : Task := ⟨"telemetry_hwbench", none, false, false⟩

def storageMonitor : Task := ⟨"storage-monitor", none, true, false⟩

def authorityDiscoveryWorker : Task :=
  ⟨"authority-discovery-worker", some "networking", false, false⟩

def babeProposer : Task := ⟨"babe-proposer", some "block-authoring", true, true⟩

def grandpaVoter : Task := ⟨"grandpa-voter", none, true, true⟩

def newPartial (cfg : NodeConfig) : List Task :=
  (if cfg.telemetry then [telemetryWorker] else []) ++
    [txpoolBackground, babeWorker, blockImportWorker]

def startConsensus : List Task := [authorityDiscoveryWorker, babeProposer]

def startNodeImpl (cfg : NodeConfig) : List Task :=
  newPartial cfg ++
    (if cfg.offchainWorkerEnabled then [offchainWorkersRunner] else []) ++
    (if cfg.hwbench && cfg.telemetry then [telemetryHwbench] else []) ++
    (if cfg.storageMonitor then [storageMonitor] else []) ++
    (if cfg.isAuthority then startConsensus else []) ++
    (if cfg.enableGrandpa then [grandpaVoter] else [])

/-- `start_node`: libp2p runs `start_node_impl`; litep2p reaches `todo!()`, a panic (`none`). -/
def startNode (cfg : NodeConfig) : Option (List Task) :=
  match cfg.networkBackend with
  | .libp2p => some (startNodeImpl cfg)
  | .litep2p => none

inductive FrontierBackend
  | keyValue
  | sql
deriving DecidableEq, Repr

def mappingSyncWorker : FrontierBackend → Task
  | .keyValue => ⟨"frontier-mapping-sync-worker", some "frontier", true, false⟩
  | .sql => ⟨"frontier-mapping-sync-worker", some "frontier", true, true⟩

def filterPoolTask : Task := ⟨"frontier-filter-pool", some "frontier", true, false⟩

def feeHistoryTask : Task := ⟨"frontier-fee-history", some "frontier", true, false⟩

def spawnTasks {FilterPool : Type} (backend : FrontierBackend) (filterPool : Option FilterPool) :
    List Task :=
  mappingSyncWorker backend ::
    ((match filterPool with
      | some _ => [filterPoolTask]
      | none => []) ++ [feeHistoryTask])

theorem startNode_eq_some {cfg : NodeConfig} {tasks : List Task}
    (h : startNode cfg = some tasks) : tasks = startNodeImpl cfg := by
  unfold startNode at h
  split at h
  · exact (Option.some.inj h).symm
  · cases h

theorem essential_startNodeImpl (cfg : NodeConfig) :
    (startNodeImpl cfg).filter (·.essential) =
      [txpoolBackground, babeWorker, blockImportWorker] ++
        (if cfg.storageMonitor then [storageMonitor] else []) ++
        (if cfg.isAuthority then [babeProposer] else []) ++
        (if cfg.enableGrandpa then [grandpaVoter] else []) := by
  simp only [startNodeImpl, newPartial, List.filter_append]
  split_ifs <;> rfl

theorem essential_spawnTasks {FilterPool : Type} (backend : FrontierBackend)
    (filterPool : Option FilterPool) : ∀ t ∈ spawnTasks backend filterPool, t.essential = true := by
  cases backend <;> cases filterPool <;> simp [spawnTasks, mappingSyncWorker, filterPoolTask,
    feeHistoryTask]

open TaskManager

/-- On every run of the node, the end of the GRANDPA voter's work shuts the node down. -/
theorem grandpa_voter_end_shuts_down (cfg : NodeConfig) (es : List TaskEvent)
    (hg : cfg.enableGrandpa = true) (he : .finish grandpaVoter ∈ es) :
    (run (launch (startNodeImpl cfg)) es).shutdown = true :=
  launch_finish_essential (by simp [startNodeImpl, hg]) rfl he

theorem grandpa_voter_end_shuts_down_validator :
    NodeConfig.enableGrandpa ⟨none, false, false, none, true, false, .libp2p, 0⟩ = true ∧
      TaskEvent.finish grandpaVoter ∈ [.finish grandpaVoter] ∧
      (run (launch (startNodeImpl ⟨none, false, false, none, true, false, .libp2p, 0⟩))
        [.finish grandpaVoter]).shutdown = true :=
  ⟨rfl, List.mem_singleton_self _,
    grandpa_voter_end_shuts_down _ _ rfl (List.mem_singleton_self _)⟩

/-- While the node is up, the GRANDPA voter runs unless GRANDPA is disabled, and the BABE
proposer runs on a validator. -/
theorem consensus_running_while_up (cfg : NodeConfig) (es : List TaskEvent)
    (hup : (run (launch (startNodeImpl cfg)) es).shutdown = false) :
    (cfg.enableGrandpa = true → grandpaVoter ∈ (run (launch (startNodeImpl cfg)) es).running) ∧
      (cfg.isAuthority = true → babeProposer ∈ (run (launch (startNodeImpl cfg)) es).running) := by
  have hrun : ∀ t ∈ startNodeImpl cfg, t.essential = true →
      t ∈ (run (launch (startNodeImpl cfg)) es).running := fun t hm ht =>
    (running_or_shutdown_run ht (.inl (by rw [launch_eq]; exact hm)) es).resolve_right
      (by simp [hup])
  exact ⟨fun hg => hrun _ (by simp [startNodeImpl, hg]) rfl,
    fun ha => hrun _ (by simp [startNodeImpl, startConsensus, ha]) rfl⟩

theorem consensus_running_while_up_after_offchain_end :
    (run (launch (startNodeImpl ⟨none, true, false, none, true, false, .libp2p, 0⟩))
        [.finish offchainWorkersRunner, .spawn telemetryHwbench]).shutdown = false ∧
      (NodeConfig.enableGrandpa ⟨none, true, false, none, true, false, .libp2p, 0⟩ = true →
        grandpaVoter ∈
          (run (launch (startNodeImpl ⟨none, true, false, none, true, false, .libp2p, 0⟩))
            [.finish offchainWorkersRunner, .spawn telemetryHwbench]).running) ∧
      (NodeConfig.isAuthority ⟨none, true, false, none, true, false, .libp2p, 0⟩ = true →
        babeProposer ∈
          (run (launch (startNodeImpl ⟨none, true, false, none, true, false, .libp2p, 0⟩))
            [.finish offchainWorkersRunner, .spawn telemetryHwbench]).running) :=
  have hup : (run (launch (startNodeImpl ⟨none, true, false, none, true, false, .libp2p, 0⟩))
      [.finish offchainWorkersRunner, .spawn telemetryHwbench]).shutdown = false := by decide
  ⟨hup, consensus_running_while_up _ _ hup⟩

/-- Once one of the node's essential tasks has ended, on any run after `start_node`: no task
runs, every task the node launched has ended or been stopped, and the shutdown path has run
exactly once. -/
theorem node_essential_end_stops_all (cfg : NodeConfig) (tasks : List Task)
    (h : startNode cfg = some tasks) (es : List TaskEvent) (t : Task)
    (ht : t ∈ [txpoolBackground, babeWorker, blockImportWorker] ++
      (if cfg.storageMonitor then [storageMonitor] else []) ++
      (if cfg.isAuthority then [babeProposer] else []) ++
      (if cfg.enableGrandpa then [grandpaVoter] else []))
    (he : .finish t ∈ es) :
    (run (launch tasks) es).running = [] ∧ (∀ u ∈ tasks, u ∈ (run (launch tasks) es).ended) ∧
      (run (launch tasks) es).shutdowns = 1 := by
  rw [← essential_startNodeImpl, ← startNode_eq_some h] at ht
  obtain ⟨hmem, hte⟩ := List.mem_filter.mp ht
  have hdown := launch_finish_essential hmem hte he
  have hinv : Inv (run (launch tasks) es) := (inv_run_init (tasks.map .spawn)).run es
  have hnil := hinv.running_nil hdown
  refine ⟨hnil, fun u hu => ?_, by rw [hinv.shutdowns_eq, hdown]; rfl⟩
  have hlive := mem_running_or_ended_run
    (.inl (show u ∈ (launch tasks).running by rw [launch_eq]; exact hu)) es
  exact hlive.resolve_left (hnil ▸ List.not_mem_nil u)

theorem node_essential_end_stops_all_txpool :
    startNode ⟨none, false, false, none, true, false, .libp2p, 0⟩ =
        some (startNodeImpl ⟨none, false, false, none, true, false, .libp2p, 0⟩) ∧
      txpoolBackground ∈ [txpoolBackground, babeWorker, blockImportWorker] ++
        (if NodeConfig.storageMonitor ⟨none, false, false, none, true, false, .libp2p, 0⟩
          then [storageMonitor] else []) ++
        (if NodeConfig.isAuthority ⟨none, false, false, none, true, false, .libp2p, 0⟩
          then [babeProposer] else []) ++
        (if NodeConfig.enableGrandpa ⟨none, false, false, none, true, false, .libp2p, 0⟩
          then [grandpaVoter] else []) ∧
      TaskEvent.finish txpoolBackground ∈ [.spawn telemetryHwbench, .finish txpoolBackground] ∧
      (run (launch (startNodeImpl ⟨none, false, false, none, true, false, .libp2p, 0⟩))
          [.spawn telemetryHwbench, .finish txpoolBackground]).running = [] ∧
        (∀ u ∈ startNodeImpl ⟨none, false, false, none, true, false, .libp2p, 0⟩,
          u ∈ (run (launch (startNodeImpl ⟨none, false, false, none, true, false, .libp2p, 0⟩))
            [.spawn telemetryHwbench, .finish txpoolBackground]).ended) ∧
        (run (launch (startNodeImpl ⟨none, false, false, none, true, false, .libp2p, 0⟩))
          [.spawn telemetryHwbench, .finish txpoolBackground]).shutdowns = 1 :=
  have ht : txpoolBackground ∈ [txpoolBackground, babeWorker, blockImportWorker] ++
      (if NodeConfig.storageMonitor ⟨none, false, false, none, true, false, .libp2p, 0⟩
        then [storageMonitor] else []) ++
      (if NodeConfig.isAuthority ⟨none, false, false, none, true, false, .libp2p, 0⟩
        then [babeProposer] else []) ++
      (if NodeConfig.enableGrandpa ⟨none, false, false, none, true, false, .libp2p, 0⟩
        then [grandpaVoter] else []) := by simp
  ⟨rfl, ht, by simp,
    node_essential_end_stops_all ⟨none, false, false, none, true, false, .libp2p, 0⟩ _ rfl _ _ ht
      (by simp)⟩

/-- Whatever else was launched beside them, the end of any Frontier task's work, the
filter-pool maintenance included, shuts the node down. -/
theorem frontier_task_end_shuts_down {FilterPool : Type} (backend : FrontierBackend)
    (filterPool : Option FilterPool) (pre post : List Task) (es : List TaskEvent) (t : Task)
    (ht : t ∈ spawnTasks backend filterPool) (he : .finish t ∈ es) :
    (run (launch (pre ++ spawnTasks backend filterPool ++ post)) es).shutdown = true :=
  launch_finish_essential (by simp [ht]) (essential_spawnTasks backend filterPool t ht) he

theorem filter_pool_end_shuts_down :
    filterPoolTask ∈ spawnTasks .sql (some ()) ∧
      TaskEvent.finish filterPoolTask ∈ [.finish filterPoolTask] ∧
      (run (launch ([] ++ spawnTasks .sql (some ()) ++ [])) [.finish filterPoolTask]).shutdown =
        true :=
  have ht : filterPoolTask ∈ spawnTasks .sql (some ()) := by simp [spawnTasks]
  ⟨ht, List.mem_singleton_self _,
    frontier_task_end_shuts_down _ _ _ _ _ _ ht (List.mem_singleton_self _)⟩

end Allfeat
