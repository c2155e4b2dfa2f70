import BlockWatch.Proofs.Cluster.Beside

/-!
# Logs of started processes

A machine can keep a log of the processes it started, each with the state in which it was. Nothing
that bringup does before the first launch sees the log or changes it, and a launch that is logged does
what it would do without the log.
-/

namespace BlockWatch

variable {σ : Type}

/-- A process that was started, and the state in which it was. -/
structure Started (σ : Type) where
  command : Command
  state : σ

open Op (beside mirrors_beside)

/-- The machine with a log of the processes it started. -/
def Machine.logged (machine : Machine σ) : Machine (σ × List (Started σ)) where
  exists_ path := beside (machine.exists_ path)
  readText path := beside (machine.readText path)
  writeText path text := beside (machine.writeText path text)
  makeDirectories path := beside (machine.makeDirectories path)
  removeTree path := beside (machine.removeTree path)
  copyFile source target := beside (machine.copyFile source target)
  list path := beside (machine.list path)
  createFile path := beside (machine.createFile path)
  run command := beside (machine.run command)
  start command output complaints := fun s ↦
    let (outcome, next) := (machine.start command output complaints).run.run s.1
    (outcome, (next, s.2 ++ [⟨command, s.1⟩]))
  ended? process := beside (machine.ended? process)
  kill process := beside (machine.kill process)
  await process := beside (machine.await process)

theorem Machine.adorns_logged (machine : Machine σ) : machine.logged.Adorns machine where
  exists_ _ := rfl
  readText _ := rfl
  writeText _ _ := rfl
  makeDirectories _ := rfl
  removeTree _ := rfl
  copyFile _ _ := rfl
  list _ := rfl
  run _ := rfl
  createFile _ := mirrors_beside _
  start _ _ _ := fun _ ↦ rfl
  ended? _ := mirrors_beside _
  kill _ := mirrors_beside _
  await _ := mirrors_beside _

theorem Machine.lookAfter_logged (machine : Machine σ) (process : ℕ) :
    machine.logged.lookAfter process = beside (machine.lookAfter process) := by
  funext s
  change machine.logged.lookAfter process s = ((machine.lookAfter process s.1).1,
    ((machine.lookAfter process s.1).2, s.2))
  have hended : (machine.logged.ended? process).run.run s =
      (((machine.ended? process).run.run s.1).1, ((machine.ended? process).run.run s.1).2, s.2) := rfl
  rw [lookAfter, lookAfter, hended]
  rcases (machine.ended? process).run.run s.1 with ⟨cause | status, next⟩ <;> rfl

namespace LocalCluster

/-- The cluster on the machine with a log. -/
def logged (cluster : LocalCluster σ) : LocalCluster (σ × List (Started σ)) :=
  ⟨cluster.config, cluster.machine.logged⟩

variable (cluster : LocalCluster σ)

theorem layOut_logged (layout : Layout) :
    cluster.logged.layOut layout = beside (cluster.layOut layout) :=
  cluster.machine.adorns_logged.layOut_eq layout

/-- Shutting down changes no log. -/
theorem foldl_stop_logged (tracked : List Tracked) (s : σ × List (Started σ)) :
    tracked.foldl (stop cluster.logged.machine) s =
      (tracked.foldl (stop cluster.machine) s.1, s.2) := by
  induction tracked generalizing s with
  | nil => rfl
  | cons first rest ih => exact ih _

end LocalCluster

end BlockWatch
