import BlockWatch.Proofs.Cluster.LayingOut

/-!
# Ports of a cluster

A node listens on two ports, which lie its ordinal past the two first ports of the configuration. It
has none exactly if one of them would lie past the last port. If the last node has both then all
nodes have, so asking for the last one is enough, and no two nodes share a port of one kind. The
ports of the two kinds stay apart exactly if one range of ports ends before the other one starts.
-/

namespace BlockWatch

/-! ## One node -/

theorem isSome_checkedSum_iff {a b : UInt16} :
    (checkedSum a b).isSome = true ↔ a.toNat + b.toNat < UInt16.size := by
  have hsum := UInt16.toNat_add a b
  have ha := a.toNat_lt
  have hb := b.toNat_lt
  have hwraps : a + b < a ↔ ¬a.toNat + b.toNat < UInt16.size := by
    rw [UInt16.lt_iff_toNat_lt, UInt16.size]
    omega
  rw [checkedSum]
  split_ifs with h
  · exact iff_of_false Bool.false_ne_true (hwraps.mp h)
  · exact iff_of_true rfl (not_not.mp fun hlarge ↦ h (hwraps.mpr hlarge))

namespace HarnessConfig

variable {c : HarnessConfig} {nodes ordinal : ℕ}

/-- A node has ports if neither of them lies past the last port. -/
theorem isSome_portsFor_iff : (c.portsFor ordinal).isSome = true ↔
    c.basePort.toNat + ordinal < UInt16.size ∧ c.rpcBasePort.toNat + ordinal < UInt16.size := by
  by_cases hordinal : ordinal < UInt16.size
  · have hoffset : (UInt16.ofNat ordinal).toNat = ordinal := UInt16.toNat_ofNat_of_lt hordinal
    have hport := isSome_checkedSum_iff (a := c.basePort) (b := UInt16.ofNat ordinal)
    have hrpcPort := isSome_checkedSum_iff (a := c.rpcBasePort) (b := UInt16.ofNat ordinal)
    rw [hoffset] at hport hrpcPort
    rw [portsFor, if_pos hordinal, ← hport, ← hrpcPort]
    dsimp only
    generalize checkedSum c.basePort (UInt16.ofNat ordinal) = port
    generalize checkedSum c.rpcBasePort (UInt16.ofNat ordinal) = rpcPort
    cases port <;> cases rpcPort <;> simp
  · rw [portsFor, if_neg hordinal]
    simp only [Option.isSome_none, Bool.false_eq_true, false_iff]
    omega

theorem portsFor_eq_some_iff {port rpcPort : UInt16} :
    c.portsFor ordinal = some (port, rpcPort) ↔
      port.toNat = c.basePort.toNat + ordinal ∧ rpcPort.toNat = c.rpcBasePort.toNat + ordinal := by
  constructor
  · exact toNat_portsFor
  · rintro ⟨hport, hrpcPort⟩
    have hroom : port.toNat < UInt16.size := port.toNat_lt
    have hrpcRoom : rpcPort.toNat < UInt16.size := rpcPort.toNat_lt
    have hsome : (c.portsFor ordinal).isSome = true := isSome_portsFor_iff.mpr (by omega)
    obtain ⟨⟨first, second⟩, hports⟩ := Option.isSome_iff_exists.mp hsome
    obtain ⟨hfirst, hsecond⟩ := toNat_portsFor hports
    rw [hports, UInt16.toNat_inj.mp (hport.trans hfirst.symm),
      UInt16.toNat_inj.mp (hrpcPort.trans hsecond.symm)]

theorem portsFor_eq_none_iff : c.portsFor ordinal = none ↔
    65535 < c.basePort.toNat + ordinal ∨ 65535 < c.rpcBasePort.toNat + ordinal := by
  rw [← Option.not_isSome_iff_eq_none, isSome_portsFor_iff, UInt16.size]
  omega

theorem validate_eq_ok_iff :
    c.validate nodes = .ok () ↔ (c.portsFor (nodes - 1)).isSome = true := by
  rw [validate]
  cases c.portsFor (nodes - 1) <;> simp

/-- If the last node has ports, so have those before it. -/
theorem exists_portsFor (h : c.validate nodes = .ok ()) (hordinal : ordinal < nodes) :
    ∃ port rpcPort, c.portsFor ordinal = some (port, rpcPort) ∧
      port.toNat = c.basePort.toNat + ordinal ∧ rpcPort.toNat = c.rpcBasePort.toNat + ordinal := by
  obtain ⟨hport, hrpcPort⟩ := isSome_portsFor_iff.mp (validate_eq_ok_iff.mp h)
  have hsome : (c.portsFor ordinal).isSome = true := isSome_portsFor_iff.mpr (by omega)
  obtain ⟨⟨port, rpcPort⟩, hports⟩ := Option.isSome_iff_exists.mp hsome
  exact ⟨port, rpcPort, hports, toNat_portsFor hports⟩

/-- The last node stands for all of them. Where there is none the first node is asked for, which
always has ports. -/
theorem validate_eq_ok_iff_forall :
    c.validate nodes = .ok () ↔ ∀ ordinal < nodes, (c.portsFor ordinal).isSome = true := by
  constructor
  · intro h ordinal hordinal
    obtain ⟨port, rpcPort, hports, -⟩ := exists_portsFor h hordinal
    exact Option.isSome_of_eq_some hports
  · intro h
    apply validate_eq_ok_iff.mpr
    cases nodes with
    | zero => exact isSome_portsFor_iff.mpr ⟨c.basePort.toNat_lt, c.rpcBasePort.toNat_lt⟩
    | succ last => exact h last (Nat.lt_succ_self last)

/-! ## All nodes -/

/-- The ports of the first nodes, two for each of them. -/
def listening (c : HarnessConfig) (nodes : ℕ) : List UInt16 :=
  (List.range nodes).flatMap fun ordinal ↦
    match c.portsFor ordinal with
    | some (port, rpcPort) => [port, rpcPort]
    | none => []

theorem map_toNat_listening (h : c.validate nodes = .ok ()) :
    (c.listening nodes).map UInt16.toNat = (List.range nodes).flatMap fun ordinal ↦
      [c.basePort.toNat + ordinal] ++ [c.rpcBasePort.toNat + ordinal] := by
  rw [listening, List.map_flatMap]
  apply List.flatMap_congr
  intro ordinal hordinal
  obtain ⟨port, rpcPort, hports, hport, hrpcPort⟩ :=
    exists_portsFor h (List.mem_range.mp hordinal)
  simp [hports, hport, hrpcPort]

/-- Two ranges of numbers share none exactly if one of them ends before the other one starts. -/
theorem disjoint_ranges_iff {a b n : ℕ} :
    List.Disjoint ((List.range n).map (a + ·)) ((List.range n).map (b + ·)) ↔
      a + n ≤ b ∨ b + n ≤ a := by
  simp only [List.Disjoint, List.mem_map, List.mem_range]
  constructor
  · intro hdisjoint
    by_contra hclose
    -- the greater start lies in both ranges
    exact hdisjoint ⟨max a b - a, by omega, rfl⟩ ⟨max a b - b, by omega, by omega⟩
  · rintro hapart _ ⟨i, hi, rfl⟩ ⟨j, hj, hij⟩
    omega

theorem nodup_listening (h : c.validate nodes = .ok ()) : (c.listening nodes).Nodup ↔
    c.basePort.toNat + nodes ≤ c.rpcBasePort.toNat ∨
      c.rpcBasePort.toNat + nodes ≤ c.basePort.toNat := by
  have hperm := List.flatMap_append_perm (List.range nodes)
    (fun ordinal ↦ [c.basePort.toNat + ordinal]) fun ordinal ↦ [c.rpcBasePort.toNat + ordinal]
  have hinjective (first : ℕ) : Function.Injective (first + ·) := add_right_injective first
  rw [← List.nodup_map_iff fun _ _ ↦ UInt16.toNat_inj.mp, map_toNat_listening h, ← hperm.nodup_iff,
    ← List.map_eq_flatMap, ← List.map_eq_flatMap, List.nodup_append', ← disjoint_ranges_iff]
  simp only [List.nodup_range.map (hinjective _), true_and]

end HarnessConfig

/-! ## Endpoints -/

namespace LocalCluster

open HarnessConfig (exists_portsFor)

variable {σ : Type}

theorem exists_addresses_iff (cluster : LocalCluster σ) (ordinal : ℕ) :
    (∃ ends, cluster.addresses ordinal = .ok ends) ↔
      (cluster.config.portsFor ordinal).isSome = true := by
  rw [addresses]
  cases cluster.config.portsFor ordinal <;> simp

/-- A number of nodes is accepted exactly if each of them has ports, which are then the first ports
moved on by its ordinal, and exactly if each of them has addresses. A node has no ports exactly if
one of them would lie past the last port. -/
theorem validate_iff_addresses (cluster : LocalCluster σ) (nodes : ℕ) :
    let config := cluster.config
    (config.validate nodes = .ok () ↔
      ∀ ordinal < nodes, (config.portsFor ordinal).isSome = true) ∧
    (config.validate nodes = .ok () ↔
      ∀ ordinal < nodes, ∃ ends, cluster.addresses ordinal = .ok ends) ∧
    ∀ ordinal,
      (∀ port rpcPort, config.portsFor ordinal = some (port, rpcPort) ↔
        port.toNat = config.basePort.toNat + ordinal ∧
          rpcPort.toNat = config.rpcBasePort.toNat + ordinal) ∧
      (config.portsFor ordinal = none ↔
        65535 < config.basePort.toNat + ordinal ∨ 65535 < config.rpcBasePort.toNat + ordinal) := by
  intro config
  refine ⟨HarnessConfig.validate_eq_ok_iff_forall, ?_, fun ordinal ↦
    ⟨fun _ _ ↦ HarnessConfig.portsFor_eq_some_iff, HarnessConfig.portsFor_eq_none_iff⟩⟩
  simp only [exists_addresses_iff]
  exact HarnessConfig.validate_eq_ok_iff_forall

/-- Two nodes on the last two ports are accepted, a third one is not, and the ordinals past a 16-bit
word do not come round to the first ports. -/
theorem validate_iff_addresses_of_last_ports :
    let cluster : LocalCluster Bench :=
      { config := { basePort := 65534 }, machine := Bench.machine }
    (∀ ordinal < 2, (cluster.config.portsFor ordinal).isSome = true) ∧
      cluster.config.validate 2 = .ok () ∧
      (∃ ends, cluster.addresses 1 = .ok ends) ∧
      cluster.config.portsFor 1 = some (65535, 3041) ∧
      cluster.config.portsFor 2 = none ∧ cluster.config.validate 3 ≠ .ok () ∧
      cluster.config.portsFor 65536 = none := by
  intro cluster
  obtain ⟨hports, haddresses, hexact⟩ := validate_iff_addresses cluster 2
  obtain ⟨hmore, -, -⟩ := validate_iff_addresses cluster 3
  have hboth : ∀ ordinal < 2, (cluster.config.portsFor ordinal).isSome = true := by decide
  have haccepted := hports.mpr hboth
  have hthird : cluster.config.portsFor 2 = none := (hexact 2).2.mpr (.inl (by decide))
  refine ⟨hboth, haccepted, haddresses.mp haccepted 1 (by decide),
    ((hexact 1).1 65535 3041).mpr (by decide), hthird, fun h ↦ ?_, (hexact 65536).2.mpr ?_⟩
  · have hsome := hmore.mp h 2 (by decide)
    rw [hthird] at hsome
    cases hsome
  · exact .inl (by decide)

/-- Where the first nodes listen, two endpoints for each of them. -/
def endpoints (cluster : LocalCluster σ) (nodes : ℕ) : List Net.Endpoint :=
  (List.range nodes).flatMap fun ordinal ↦
    match cluster.addresses ordinal with
    | .ok (address, rpcAddress) => [address, rpcAddress]
    | .error _ => []

theorem endpoints_eq_map (cluster : LocalCluster σ) (nodes : ℕ) :
    cluster.endpoints nodes =
      (cluster.config.listening nodes).map (Net.Endpoint.ofHost cluster.config.host) := by
  rw [endpoints, HarnessConfig.listening, List.map_flatMap]
  apply List.flatMap_congr
  intro ordinal _
  rw [addresses]
  cases cluster.config.portsFor ordinal <;> simp

/-- With a number of nodes that the configuration accepts, every node has its two ports, and all of
them differ exactly if the two ranges of ports are apart. -/
theorem nodup_endpoints_iff (cluster : LocalCluster σ) {nodes : ℕ}
    (h : cluster.config.validate nodes = .ok ()) :
    let config := cluster.config
    let apart := config.basePort.toNat + nodes ≤ config.rpcBasePort.toNat ∨
      config.rpcBasePort.toNat + nodes ≤ config.basePort.toNat
    (∀ ordinal < nodes, ∃ port rpcPort, config.portsFor ordinal = some (port, rpcPort) ∧
      port.toNat = config.basePort.toNat + ordinal ∧
      rpcPort.toNat = config.rpcBasePort.toNat + ordinal) ∧
    (config.listening nodes).length = 2 * nodes ∧
    ((config.listening nodes).Nodup ↔ apart) ∧ ((cluster.endpoints nodes).Nodup ↔ apart) := by
  intro config apart
  have hinjective : Function.Injective (Net.Endpoint.ofHost config.host) := fun _ _ ↦ ofHost_inj
  have hnodup := HarnessConfig.nodup_listening h
  refine ⟨fun ordinal ↦ exists_portsFor h, ?_, hnodup, ?_⟩
  · calc
      (config.listening nodes).length = ((config.listening nodes).map UInt16.toNat).length :=
        (List.length_map _).symm
      _ = 2 * nodes := by
        rw [HarnessConfig.map_toNat_listening h]
        simp [List.length_flatMap, Nat.mul_comm]
  · rw [endpoints_eq_map, List.nodup_map_iff hinjective]
    exact hnodup

/-- Three nodes on the last six ports, the one range right before the other one. -/
theorem nodup_endpoints_iff_of_last_ports :
    let cluster : LocalCluster Bench :=
      { config := { basePort := 65530, rpcBasePort := 65533 }, machine := Bench.machine }
    cluster.config.validate 3 = .ok () ∧ (cluster.config.listening 3).length = 6 ∧
      (cluster.config.listening 3).Nodup ∧ (cluster.endpoints 3).Nodup := by
  intro cluster
  have haccepted : cluster.config.validate 3 = .ok () := by decide
  have hapart : cluster.config.basePort.toNat + 3 ≤ cluster.config.rpcBasePort.toNat := by decide
  obtain ⟨-, hlength, hports, hendpoints⟩ := nodup_endpoints_iff cluster haccepted
  exact ⟨haccepted, hlength, hports.mpr (.inl hapart), hendpoints.mpr (.inl hapart)⟩

/-- Two nodes whose ranges of ports overlap are accepted, and share a port. -/
theorem not_nodup_endpoints_of_overlap :
    let cluster : LocalCluster Bench :=
      { config := { basePort := 3040, rpcBasePort := 3041 }, machine := Bench.machine }
    cluster.config.validate 2 = .ok () ∧ ¬(cluster.config.listening 2).Nodup ∧
      ¬(cluster.endpoints 2).Nodup := by
  decide

end LocalCluster

end BlockWatch
