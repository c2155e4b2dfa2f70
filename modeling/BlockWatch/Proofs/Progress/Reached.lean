import BlockWatch.Proofs.Progress.Ending
import BlockWatch.Scenario.Run

/-!
# Heights that were reached

A wait that gives an outcome gives it at the first tick at which the greatest height reported is the
target or more. That height is then the one reported at this very tick, unless nothing had to be
reported: before the first report the greatest height counts as zero, so a wait for height zero is
over after its first poll even if that poll fails.
-/

namespace BlockWatch

namespace Progress

variable {p : Progress} {name : String} {target : WaitTarget} {started now : Moment}

variable (p) in
/-- The rate is not known or not below the floor, if there is one. -/
def MeetsFloor (rateFloor : Option Binary64) : Prop :=
  ∀ floor, rateFloor = some floor → p.isBelow floor = false

theorem meetsFloor_none : p.MeetsFloor none := fun _ h ↦ by cases h

variable (p) in
theorem meetsFloor_or_isBelow (rateFloor : Option Binary64) :
    p.MeetsFloor rateFloor ∨ ∃ floor, rateFloor = some floor ∧ p.isBelow floor = true := by
  cases rateFloor with
  | none => exact .inl meetsFloor_none
  | some floor =>
    cases hbelow : p.isBelow floor with
    | false =>
      refine .inl ?_
      rintro _ ⟨⟩
      exact hbelow
    | true => exact .inr ⟨floor, rfl, hbelow⟩

/-- As long as the rate meets the floor, only the height counts. -/
theorem verdict?_of_meetsFloor (h : p.MeetsFloor target.rateFloor) :
    p.verdict? name target started now =
      if target.height ≤ p.latest then
        some (.ok ⟨name, p.latest, p.polls, p.failedPolls, p.window.rate, now.since started⟩)
      else none := by
  unfold verdict?
  cases hfloor : target.rateFloor with
  | none => rfl
  | some floor =>
    dsimp only
    rw [h floor hfloor]
    rfl

/-- Below the floor the height does not count. -/
theorem verdict?_of_isBelow {floor : Binary64} (hfloor : target.rateFloor = some floor)
    (h : p.isBelow floor = true) :
    p.verdict? name target started now =
      some (.error (.throughputBelowFloor name target.height p.latest p.window.rate floor)) := by
  unfold verdict?
  rw [hfloor]
  exact if_pos h

theorem verdict?_eq_ok_iff {found : WaitOutcome} :
    p.verdict? name target started now = some (.ok found) ↔
      p.MeetsFloor target.rateFloor ∧ target.height ≤ p.latest ∧
        found = ⟨name, p.latest, p.polls, p.failedPolls, p.window.rate, now.since started⟩ := by
  rcases p.meetsFloor_or_isBelow target.rateFloor with hmeets | ⟨floor, hfloor, hbelow⟩
  · rw [verdict?_of_meetsFloor hmeets]
    split_ifs with hreached
    · simp [hmeets, hreached, eq_comm]
    · simp [hreached]
  · have hmisses : ¬p.MeetsFloor target.rateFloor := fun h ↦ by simp [h floor hfloor] at hbelow
    simp [verdict?_of_isBelow hfloor hbelow, hmisses]

theorem verdict?_eq_none_iff :
    p.verdict? name target started now = none ↔
      p.MeetsFloor target.rateFloor ∧ p.latest < target.height := by
  rcases p.meetsFloor_or_isBelow target.rateFloor with hmeets | ⟨floor, hfloor, hbelow⟩
  · rw [verdict?_of_meetsFloor hmeets]
    split_ifs with hreached
    · simp [UInt64.not_lt.mpr hreached]
    · simp [hmeets, UInt64.not_le.mp hreached]
  · have hmisses : ¬p.MeetsFloor target.rateFloor := fun h ↦ by simp [h floor hfloor] at hbelow
    simp [verdict?_of_isBelow hfloor hbelow, hmisses]

/-- Only a rate that is known and below the floor lets a wait fail after a poll. -/
theorem verdict?_eq_error_iff {cause : WaitError} :
    p.verdict? name target started now = some (.error cause) ↔
      ∃ floor, target.rateFloor = some floor ∧ p.isBelow floor = true ∧
        cause = .throughputBelowFloor name target.height p.latest p.window.rate floor := by
  constructor
  · intro h
    rcases p.meetsFloor_or_isBelow target.rateFloor with hmeets | ⟨floor, hfloor, hbelow⟩
    · rw [verdict?_of_meetsFloor hmeets] at h
      split_ifs at h
      cases h
    · rw [verdict?_of_isBelow hfloor hbelow] at h
      exact ⟨floor, hfloor, hbelow, (Except.error.inj (Option.some.inj h)).symm⟩
  · rintro ⟨floor, hfloor, hbelow, rfl⟩
    exact verdict?_of_isBelow hfloor hbelow

end Progress

/-- The last poll before an outcome reported its height, and this is the target or more. -/
def WaitOutcome.IsReported (found : WaitOutcome) (target : UInt64) (reports : Reports) : Prop :=
  ∃ k height, found.polls = k + 1 ∧ reports k = .ok height ∧ target ≤ height ∧
    found.height = height

namespace Wait

variable {τ κ : Type} {wait : Wait τ κ} {stage : Stage τ κ}

theorem peak_lt_of_goesOn {k : ℕ} (h : wait.GoesOn stage k) :
    (wait.reports stage).peak (k + 1) < wait.target.height :=
  (Progress.verdict?_eq_none_iff.mp h.undecided).2

variable (wait stage) in
/-- What a wait finds that ends at tick `k`. -/
def outcomeAt (k : ℕ) : WaitOutcome where
  node := wait.node.name
  height := (wait.reports stage).peak (k + 1)
  polls := k + 1
  failedPolls := (wait.reports stage).failures (k + 1)
  rate := (wait.progressAt stage (k + 1)).window.rate
  elapsed := (Moment.ofNanos (wait.arrival stage k)).since wait.started

variable (wait stage) in
/-- Tick `k` comes before the deadline, its poll is answered, and the rate then meets the floor. -/
structure Passes (k : ℕ) : Prop where
  polls : wait.PollsAt stage k
  answered : wait.arrival stage k < Moment.limit
  meetsFloor : (wait.progressAt stage (k + 1)).MeetsFloor wait.target.rateFloor

theorem passes_of_goesOn {k : ℕ} (hroom : k < maxPolls) (h : wait.GoesOn stage k) :
    wait.Passes stage k :=
  ⟨⟨h.notExpired, hroom⟩, h.answered, (Progress.verdict?_eq_none_iff.mp h.undecided).1⟩

section

variable {k : ℕ} (hpasses : ∀ i ≤ k, wait.Passes stage i)
  (hlow : ∀ i < k, (wait.reports stage).peak (i + 1) < wait.target.height)
include hpasses hlow

/-- Ticks that pass end in sleep as long as the target is not reached. -/
theorem goesOn_of_passes : ∀ i < k, wait.GoesOn stage i := by
  intro i hi
  have hpass := hpasses i hi.le
  have hnext : wait.opening stage (i + 1) ≤ wait.arrival stage (i + 1) := Nat.le_add_right _ _
  exact ⟨hpass.polls.notExpired, hpass.answered,
    Progress.verdict?_eq_none_iff.mpr ⟨hpass.meetsFloor, hlow i hi⟩,
    hnext.trans_lt (hpasses (i + 1) hi).answered⟩

/-- A wait whose ticks pass gives an outcome at the first one at which the target is reached. -/
theorem run_of_passes (hreached : wait.target.height ≤ (wait.reports stage).peak (k + 1)) :
    wait.run stage = (.ok (wait.outcomeAt stage k),
      wait.stageWith stage (wait.arrival stage k) (k + 1) k) := by
  have hpass := hpasses k le_rfl
  exact run_of_verdictAt (goesOn_of_passes hpasses hlow) hpass.polls hpass.answered
    (Progress.verdict?_eq_ok_iff.mpr ⟨hpass.meetsFloor, hreached, rfl⟩)

end

/-- All ticks of a wait that gives an outcome pass. -/
theorem exists_passes {found : WaitOutcome} (h : (wait.run stage).1 = .ok found) :
    ∃ k, (∀ i ≤ k, wait.Passes stage i) ∧
      (∀ i < k, (wait.reports stage).peak (i + 1) < wait.target.height) ∧
      wait.target.height ≤ (wait.reports stage).peak (k + 1) := by
  obtain ⟨k, -, hbefore, hends⟩ := wait.exists_endsAt stage
  rw [h] at hends
  obtain ⟨hpolls, hanswered, hverdict, -⟩ := hends.of_ok
  obtain ⟨hmeets, hreached, -⟩ := Progress.verdict?_eq_ok_iff.mp hverdict
  refine ⟨k, fun i hi ↦ ?_, fun i hi ↦ peak_lt_of_goesOn (hbefore i hi), hreached⟩
  rcases hi.lt_or_eq with hearlier | rfl
  · exact passes_of_goesOn (hearlier.trans hpolls.hasRoom) (hbefore i hearlier)
  · exact ⟨hpolls, hanswered, hmeets⟩

/-- A wait that gives an outcome ends at the first tick at which the target was reached. -/
theorem exists_outcomeAt {found : WaitOutcome} (h : (wait.run stage).1 = .ok found) :
    ∃ k, (∀ i < k, wait.GoesOn stage i) ∧ wait.PollsAt stage k ∧
      wait.arrival stage k < Moment.limit ∧
      wait.target.height ≤ (wait.reports stage).peak (k + 1) ∧ found = wait.outcomeAt stage k ∧
      (wait.run stage).2 = wait.stageWith stage (wait.arrival stage k) (k + 1) k := by
  obtain ⟨k, hpasses, hlow, hreached⟩ := exists_passes h
  have hpass := hpasses k le_rfl
  have hrun := run_of_passes hpasses hlow hreached
  rw [hrun] at h
  exact ⟨k, goesOn_of_passes hpasses hlow, hpass.polls, hpass.answered, hreached,
    (Except.ok.inj h).symm, congrArg Prod.snd hrun⟩

section First

variable {k : ℕ} (hbefore : ∀ i < k, wait.GoesOn stage i)
include hbefore

/-- A wait for height zero does not go on after its first poll. -/
theorem eq_zero_of_target_eq_zero (htarget : wait.target.height = 0) : k = 0 := by
  by_contra hk
  have hlow := peak_lt_of_goesOn (hbefore 0 (Nat.pos_of_ne_zero hk))
  rw [htarget] at hlow
  exact UInt64.not_lt_zero hlow

/-- Before a tick the greatest height is too low, or there is none. -/
theorem peak_lt_or_eq_zero : (wait.reports stage).peak k < wait.target.height ∨ k = 0 := by
  cases k with
  | zero => exact .inr rfl
  | succ k => exact .inl (peak_lt_of_goesOn (hbefore k (Nat.lt_succ_self k)))

theorem report_of_reached (hreached : wait.target.height ≤ (wait.reports stage).peak (k + 1))
    (hfirst : wait.target.height = 0 → ∃ height, wait.reports stage 0 = .ok height) :
    ∃ height, wait.reports stage k = .ok height := by
  cases hreport : wait.reports stage k with
  | ok height => exact ⟨height, rfl⟩
  | error cause =>
    rw [Reports.peak_succ_of_error hreport] at hreached
    rcases peak_lt_or_eq_zero hbefore with hlow | rfl
    · exact absurd hreached (UInt64.not_le.mpr hlow)
    · obtain ⟨height, hheight⟩ := hfirst (UInt64.le_zero_iff.mp hreached)
      rw [hheight] at hreport
      cases hreport

/-- The report that reaches the target is the greatest so far. -/
theorem peak_succ_of_reached {height : UInt64} (hreport : wait.reports stage k = .ok height)
    (hreached : wait.target.height ≤ (wait.reports stage).peak (k + 1)) :
    (wait.reports stage).peak (k + 1) = height := by
  rw [Reports.peak_succ_of_ok hreport, Reports.max_eq_ite] at hreached ⊢
  split_ifs at hreached ⊢ with hregress
  · rcases peak_lt_or_eq_zero hbefore with hlow | rfl
    · exact absurd hreached (UInt64.not_le.mpr hlow)
    · exact absurd hregress UInt64.not_lt_zero
  · rfl

theorem isReported_outcomeAt_iff
    (hreached : wait.target.height ≤ (wait.reports stage).peak (k + 1)) :
    (wait.outcomeAt stage k).IsReported wait.target.height (wait.reports stage) ↔
      (wait.target.height = 0 → ∃ height, wait.reports stage 0 = .ok height) := by
  constructor
  · rintro ⟨last, height, hpolls, hreport, -, -⟩ htarget
    obtain rfl : k = last := Nat.succ.inj hpolls
    obtain rfl := eq_zero_of_target_eq_zero hbefore htarget
    exact ⟨height, hreport⟩
  · intro hfirst
    obtain ⟨height, hreport⟩ := report_of_reached hbefore hreached hfirst
    have hpeak := peak_succ_of_reached hbefore hreport hreached
    exact ⟨k, height, rfl, hreport, hpeak ▸ hreached, hpeak⟩

end First

end Wait

/-! ## Outcomes and the last report -/

section

variable {τ κ : Type} {poller : Poller τ} {entry : Node → κ} {deadline : Deadline} {width : Span}
  {node : Node} {target : WaitTarget} {stage : Stage τ κ} {found : WaitOutcome}

/-- The last poll of a wait that gives an outcome reported its height, and this is the target or
more. The only exception are waits for height zero whose first poll fails. -/
theorem isReported_iff_of_waitForHeight
    (h : (waitForHeight poller entry deadline width node target stage).1 = .ok found) :
    (waitForHeight poller entry deadline width node target stage).2.calls =
        stage.calls ++ List.replicate found.polls (entry node) ∧
      (found.IsReported target.height (poller.reports node stage.field) ↔
        (target.height = 0 → ∃ height, poller.reports node stage.field 0 = .ok height)) := by
  let wait : Wait τ κ :=
    { poller, entry, deadline, width, node, target, started := stage.clock.now }
  have hrun : (wait.run stage).1 = .ok found := h
  obtain ⟨k, hbefore, -, -, hreached, rfl, hlast⟩ := Wait.exists_outcomeAt hrun
  have hcalls : (wait.run stage).2.calls =
      stage.calls ++ List.replicate (k + 1) (entry node) := congrArg Stage.calls hlast
  exact ⟨hcalls, Wait.isReported_outcomeAt_iff hbefore hreached⟩

/-- A node that reports height 5 at the second poll. -/
theorem isReported_iff_of_second_poll :
    let poller : Poller ℕ := fun node polls ↦
      { outcome := if polls = 0 then .error (.timeout node.name 2000) else .ok 5
        next := polls + 1 }
    let address : Net.Endpoint := .v4 ⟨10, 0, 0, 4⟩ 26657
    let node : Node := ⟨4, .observer, address, address, "", ⟨"/node4"⟩⟩
    let found : WaitOutcome := ⟨"node4", 5, 2, 1, .zero, .ofSeconds 2⟩
    (waitForHeight poller id ⟨.base, .ofSeconds 60⟩ (.ofSeconds 7) node ⟨3, .ofSeconds 2, none⟩
        { field := 0 }).1 = .ok found ∧
      found.IsReported 3 (poller.reports node 0) := by
  intro poller address node found
  have hrun : (waitForHeight poller id ⟨.base, .ofSeconds 60⟩ (.ofSeconds 7) node
      ⟨3, .ofSeconds 2, none⟩ { field := 0 }).1 = .ok found := by decide +kernel +zetaReduce
  have hreported := (isReported_iff_of_waitForHeight hrun).2.mpr fun hzero ↦ by cases hzero
  exact ⟨hrun, hreported⟩

/-- A node that never answers passes a wait for the small height of a valid configuration. -/
theorem not_isReported_of_silent_node :
    let config : ScenarioConfig := { smallHeight := 0 }
    let poller : Poller Unit := fun node _ ↦
      { outcome := .error (.timeout node.name 2000), next := () }
    let address : Net.Endpoint := .v4 ⟨10, 0, 0, 4⟩ 26657
    let node : Node := ⟨4, .observer, address, address, "", ⟨"/node4"⟩⟩
    let found : WaitOutcome := ⟨"node4", 0, 1, 1, .zero, .zero⟩
    config.validate = .ok () ∧
      (waitForHeight poller id ⟨.base, config.deadline⟩ config.window node
        (Scenario.smallTarget config) { field := () }).1 = .ok found ∧
      ¬found.IsReported config.smallHeight (poller.reports node ()) := by
  intro config poller address node found
  refine ⟨by decide +kernel +zetaReduce, by decide +kernel +zetaReduce, ?_⟩
  rintro ⟨k, height, -, hreport, -⟩
  cases hreport

end

end BlockWatch
