import BlockWatch.Proofs.Progress.Reached
import Mathlib.Data.Nat.Find

/-!
# Relaxed waits

A later deadline, a lower target or no floor change nothing about the answers of a node and when they
come, so two waits that differ in these alone go through the same ticks for as long as both go on.
Whatever lets the stricter one go on lets the other go on too, until the lower target is reached.
-/

namespace BlockWatch

namespace Wait

variable {τ κ : Type} (wait : Wait τ κ) (stage : Stage τ κ)

/-- The same wait with another limit, another height to reach and another floor. -/
def revised (limit : Span) (height : UInt64) (rateFloor : Option Binary64) : Wait τ κ :=
  { wait with
    deadline := { wait.deadline with limit }
    target := { wait.target with height, rateFloor } }

/-! ## What a revision leaves as it is -/

section

variable {limit : Span} {height : UInt64} {rateFloor : Option Binary64}

theorem opening_revised (k : ℕ) :
    (wait.revised limit height rateFloor).opening stage k = wait.opening stage k := by
  refine opening_congr ?_ (fun _ ↦ ?_) ?_ k <;> rfl

theorem arrival_revised (k : ℕ) :
    (wait.revised limit height rateFloor).arrival stage k = wait.arrival stage k := by
  refine arrival_congr ?_ (fun _ ↦ ?_) ?_ k <;> rfl

theorem progressAt_revised (k : ℕ) :
    (wait.revised limit height rateFloor).progressAt stage k = wait.progressAt stage k := by
  simp only [progressAt, samples, arrival_revised]
  rfl

theorem outcomeAt_revised (k : ℕ) :
    (wait.revised limit height rateFloor).outcomeAt stage k = wait.outcomeAt stage k := by
  simp only [outcomeAt, progressAt_revised, arrival_revised]
  rfl

end

/-! ## Ticks of a relaxed wait -/

variable {wait stage}

theorem elapsed_outcomeAt_mono {i k : ℕ} (h : i ≤ k) :
    (wait.outcomeAt stage i).elapsed ≤ (wait.outcomeAt stage k).elapsed :=
  Nat.sub_le_sub_right (arrival_mono h) _

section

variable {limit : Span} {height : UInt64} {rateFloor : Option Binary64}
  (hlimit : wait.deadline.limit ≤ limit)
  (hfloor : rateFloor = wait.target.rateFloor ∨ rateFloor = none)
include hlimit hfloor

/-- A later deadline and a kept or removed floor let every tick pass that passed before. -/
theorem Passes.revised {k : ℕ} (h : wait.Passes stage k) :
    (wait.revised limit height rateFloor).Passes stage k := by
  constructor
  · refine ⟨?_, h.polls.hasRoom⟩
    have htime := not_expiredAt_iff.mp h.polls.notExpired
    rw [not_expiredAt_iff, opening_revised]
    exact Nat.lt_of_lt_of_le htime hlimit
  · rw [arrival_revised]
    exact h.answered
  · rw [progressAt_revised]
    rcases hfloor with hkept | hremoved
    · exact hkept ▸ h.meetsFloor
    · exact hremoved ▸ Progress.meetsFloor_none

/-- A relaxed wait gives an outcome at the first tick at which its own target is reached. -/
theorem exists_run_revised {found : WaitOutcome} (hheight : height ≤ wait.target.height)
    (h : (wait.run stage).1 = .ok found) :
    ∃ i k, i ≤ k ∧ (height = wait.target.height → i = k) ∧
      wait.run stage = (.ok (wait.outcomeAt stage k),
        wait.stageWith stage (wait.arrival stage k) (k + 1) k) ∧
      (wait.revised limit height rateFloor).run stage = (.ok (wait.outcomeAt stage i),
        wait.stageWith stage (wait.arrival stage i) (i + 1) i) := by
  obtain ⟨k, hpasses, hlow, hreached⟩ := exists_passes h
  have hexists : ∃ i, height ≤ (wait.reports stage).peak (i + 1) :=
    ⟨k, UInt64.le_trans hheight hreached⟩
  have hfirst : Nat.find hexists ≤ k := Nat.find_min' hexists (UInt64.le_trans hheight hreached)
  have hsooner : ∀ i < Nat.find hexists, (wait.reports stage).peak (i + 1) < height :=
    fun i hi ↦ UInt64.not_le.mp (Nat.find_min hexists hi)
  have hrevised : ∀ i ≤ Nat.find hexists, (wait.revised limit height rateFloor).Passes stage i :=
    fun i hi ↦ (hpasses i (hi.trans hfirst)).revised hlimit hfloor
  refine ⟨Nat.find hexists, k, hfirst, ?_, run_of_passes hpasses hlow hreached, ?_⟩
  · rintro rfl
    apply hfirst.antisymm
    exact Nat.le_of_not_lt fun hlate ↦
      UInt64.not_le.mpr (hlow _ hlate) (Nat.find_spec hexists)
  · have hrun := run_of_passes hrevised hsooner (Nat.find_spec hexists)
    rwa [outcomeAt_revised, arrival_revised] at hrun

end

end Wait

/-! ## Success is kept -/

section

variable {τ κ : Type} {poller : Poller τ} {entry : Node → κ} {deadline : Deadline} {width : Span}
  {node : Node} {target : WaitTarget} {stage : Stage τ κ} {found : WaitOutcome}

/-- A wait that gives an outcome runs just the same under a later deadline, with its floor or
without one. With a lower target it gives an outcome as well, after no more polls, at no greater
height and after no longer time. -/
theorem waitForHeight_of_relaxed
    (h : (waitForHeight poller entry deadline width node target stage).1 = .ok found)
    {limit : Span} (hlimit : deadline.limit ≤ limit) {rateFloor : Option Binary64}
    (hfloor : rateFloor = target.rateFloor ∨ rateFloor = none) :
    waitForHeight poller entry { deadline with limit } width node { target with rateFloor } stage =
        waitForHeight poller entry deadline width node target stage ∧
      ∀ height ≤ target.height, ∃ sooner,
        (waitForHeight poller entry { deadline with limit } width node
          { target with height, rateFloor } stage).1 = .ok sooner ∧
        sooner.polls ≤ found.polls ∧ sooner.height ≤ found.height ∧
        sooner.elapsed ≤ found.elapsed := by
  let wait : Wait τ κ :=
    { poller, entry, deadline, width, node, target, started := stage.clock.now }
  have hrun : (wait.run stage).1 = .ok found := h
  constructor
  · obtain ⟨i, k, -, hsame, hstrict, hrevised⟩ :=
      Wait.exists_run_revised hlimit hfloor (UInt64.le_refl wait.target.height) hrun
    obtain rfl := hsame rfl
    exact hrevised.trans hstrict.symm
  · intro height hheight
    obtain ⟨i, k, hik, -, hstrict, hrevised⟩ := Wait.exists_run_revised hlimit hfloor hheight hrun
    rw [hstrict] at hrun
    obtain rfl := Except.ok.inj hrun
    exact ⟨wait.outcomeAt stage i, congrArg Prod.fst hrevised, Nat.succ_le_succ hik,
      Reports.peak_mono (Nat.succ_le_succ hik), Wait.elapsed_outcomeAt_mono hik⟩

/-- A node at heights 10, 20 and 40, asked for height 40 within five seconds at one block a second,
and for height 15 within a minute at any rate. -/
theorem waitForHeight_of_relaxed_growth :
    let poller : Poller ℕ := fun _ polls ↦
      { outcome := .ok (if polls = 0 then 10 else if polls = 1 then 20 else 40)
        next := polls + 1 }
    let address : Net.Endpoint := .v4 ⟨10, 0, 0, 4⟩ 26657
    let node : Node := ⟨4, .observer, address, address, "", ⟨"/node4"⟩⟩
    let strict : WaitTarget := ⟨40, .ofSeconds 2, some (.ofNat 1)⟩
    let stage : Stage ℕ Node := { field := 0 }
    let found : WaitOutcome := ⟨"node4", 40, 3, 0, .ofRatio false 15 2, .ofSeconds 4⟩
    let relaxed (target : WaitTarget) := waitForHeight poller id ⟨.base, .ofSeconds 60⟩
      (.ofSeconds 10) node target stage
    (waitForHeight poller id ⟨.base, .ofSeconds 5⟩ (.ofSeconds 10) node strict stage).1 =
        .ok found ∧
      (relaxed ⟨40, .ofSeconds 2, none⟩).1 = .ok found ∧
      ∃ sooner, (relaxed ⟨15, .ofSeconds 2, none⟩).1 = .ok sooner ∧ sooner.polls ≤ 3 ∧
        sooner.height ≤ 40 ∧ sooner.elapsed ≤ .ofSeconds 4 := by
  intro poller address node strict stage found relaxed
  have hrun : (waitForHeight poller id ⟨.base, .ofSeconds 5⟩ (.ofSeconds 10) node strict
      stage).1 = .ok found := by decide +kernel +zetaReduce
  have hlimit : Span.ofSeconds 5 ≤ .ofSeconds 60 := by decide
  obtain ⟨hsame, hlower⟩ := waitForHeight_of_relaxed hrun hlimit (.inr rfl)
  exact ⟨hrun, (congrArg Prod.fst hsame).trans hrun, hlower 15 (by decide)⟩

end

end BlockWatch
