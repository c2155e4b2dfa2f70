import BlockWatch.Cluster.Local
import BlockWatch.Proofs.Cluster.Operations
import BlockWatch.Proofs.Store.Rewriting

/-!
# The homes of a cluster

Each ordinal has a home of its own and ports of its own. Preparing a home patches two of its files
and touches nothing outside of it, so homes can be prepared one after the other.
-/

namespace BlockWatch

open Json.DottedPath (setAll)

/-! ## Names -/

/-- The name of the home of a node. -/
def homeName (ordinal : ℕ) : String := homePrefix ++ toString ordinal

theorem homeName_injective : Function.Injective homeName := by
  intro m n h
  have htext : Nat.repr m = Nat.repr n := (String.append_right_inj homePrefix).mp h
  have hdigits : Nat.toDigits 10 m = Nat.toDigits 10 n := by
    rw [← Nat.toList_repr, htext, Nat.toList_repr]
  calc
    m = Nat.ofDigitChars 10 (Nat.toDigits 10 m) 0 := Nat.ofDigitChars_ten_toDigits.symm
    _ = Nat.ofDigitChars 10 (Nat.toDigits 10 n) 0 := by rw [hdigits]
    _ = n := Nat.ofDigitChars_ten_toDigits

theorem properName_homeName (ordinal : ℕ) : ProperName (homeName ordinal) := by
  have hlist : (homeName ordinal).toList = 't' :: 'e' :: 's' :: 't' :: (toString ordinal).toList := by
    rw [homeName, String.toList_append]
    rfl
  have hdigits : ∀ c ∈ (toString ordinal).toList, c.isDigit = true := by
    intro c hc
    have hrepr : (toString ordinal).toList = Nat.toDigits 10 ordinal := Nat.toList_repr
    rw [hrepr] at hc
    exact Nat.isDigit_of_mem_toDigits (by decide) (by decide) hc
  have hother (name : String) (h : name.toList.head? ≠ some 't') : homeName ordinal ≠ name := by
    rintro rfl
    exact h (by rw [hlist]; rfl)
  refine ⟨by rw [hlist]; exact List.cons_ne_nil _ _, ?_, hother "." (by decide),
    hother ".." (by decide)⟩
  rw [hlist]
  intro hmem
  have hslash : '/' ∈ (toString ordinal).toList := by simpa using hmem
  exact absurd (hdigits '/' hslash) (by decide)

theorem properName_genesisFile : ProperName genesisFile :=
  ⟨by decide, by decide, by decide, by decide⟩

theorem properName_configFile : ProperName configFile :=
  ⟨by decide, by decide, by decide, by decide⟩

theorem properName_dataDirectory : ProperName dataDirectory :=
  ⟨by decide, by decide, by decide, by decide⟩

/-- Different names give different paths. -/
theorem Path.child_inj {path : Path} {a b : String} (ha : ProperName a) (hb : ProperName b)
    (h : path.child a = path.child b) : a = b := by
  have hrelative {name : String} (hname : ProperName name) :
      Path.isAbsolute ⟨name⟩ = false := Route.not_startsWith_slash hname
  have htext : (path.child a).text = (path.child b).text := congrArg Path.text h
  rw [Path.child, Path.join, hrelative ha, Path.child, Path.join, hrelative hb] at htext
  rw [if_neg Bool.false_ne_true, if_neg Bool.false_ne_true] at htext
  split_ifs at htext
  · exact (String.append_right_inj _).mp htext
  · exact (String.append_right_inj _).mp htext

theorem prefix_home_iff {base rest : List String} {a b : String} :
    base ++ [a] <+: base ++ b :: rest ↔ a = b := by
  rw [List.prefix_append_right_inj, List.cons_prefix_cons]
  simp

/-! ## Ports -/

theorem toNat_checkedSum {a b sum : UInt16} (h : checkedSum a b = some sum) :
    sum.toNat = a.toNat + b.toNat := by
  rw [checkedSum] at h
  split_ifs at h with hwraps
  obtain rfl := Option.some.inj h
  have hsum := UInt16.toNat_add a b
  have hle : ¬(a + b).toNat < a.toNat := fun hlt ↦ hwraps (UInt16.lt_iff_toNat_lt.mpr hlt)
  have ha := a.toNat_lt
  have hb := b.toNat_lt
  omega

theorem toNat_portsFor {config : HarnessConfig} {ordinal : ℕ} {port rpcPort : UInt16}
    (h : config.portsFor ordinal = some (port, rpcPort)) :
    port.toNat = config.basePort.toNat + ordinal ∧
      rpcPort.toNat = config.rpcBasePort.toNat + ordinal := by
  rw [HarnessConfig.portsFor] at h
  split_ifs at h with hordinal
  obtain ⟨first, hfirst, h⟩ := Option.bind_eq_some_iff.mp h
  obtain ⟨second, hsecond, h⟩ := Option.bind_eq_some_iff.mp h
  obtain ⟨rfl, rfl⟩ := Prod.mk.inj (Option.some.inj h)
  have hoffset : (UInt16.ofNat ordinal).toNat = ordinal := UInt16.toNat_ofNat_of_lt hordinal
  rw [toNat_checkedSum hfirst, toNat_checkedSum hsecond, hoffset]
  exact ⟨rfl, rfl⟩

namespace Store

/-- A home whose genesis file and configuration are no links. -/
structure HasHome (s : Store) (location : List String) : Prop where
  directory : ∃ entries, s.root.get? location = some (.directory entries)
  genesis : ∀ target, s.root.get? (location ++ [genesisFile]) ≠ some (.link target)
  config : ∀ target, s.root.get? (location ++ [configFile]) ≠ some (.link target)

theorem HasHome.of_rewritten {changed : List String → Prop} {s next : Store}
    {location : List String} (hhome : s.HasHome location) (h : Rewritten changed s next) :
    next.HasHome location where
  directory := by
    obtain ⟨entries, hentries⟩ := hhome.directory
    exact h.exists_directory hentries
  genesis := h.not_link hhome.genesis
  config := h.not_link hhome.config

end Store

/-! ## Preparation -/

namespace LocalCluster

open Store (Patched Rewritten)
open Op (Gives gives_bind gives_pure)

variable {σ : Type} {cluster : LocalCluster σ} {store : σ → Store} {layout : Layout}
  {base : List String} {s s' : σ}

/-- The home of a node as its ordinal determines it. -/
structure Settles (cluster : LocalCluster σ) (layout : Layout) (home : NodeHome) : Prop where
  role : home.role = layout.roleOf home.ordinal
  directory : home.directory = cluster.homeDirectory home.ordinal
  addresses : cluster.addresses home.ordinal = .ok (home.address, home.rpcAddress)

/-- The files of a home were patched. -/
structure Prepares (layout : Layout) (base : List String) (home : NodeHome)
    (before after : Store) : Prop where
  genesis : Patched (base ++ [homeName home.ordinal, genesisFile]) layout.chainOverrides
    before after
  config : Patched (base ++ [homeName home.ordinal, configFile])
    (clientChanges layout home.ordinal home.address home.rpcAddress) before after

/-- Whether something lies in the home of one of some nodes. -/
def InHomes (base : List String) (ordinals : List ℕ) (q : List String) : Prop :=
  ∃ ordinal ∈ ordinals, base ++ [homeName ordinal] <+: q

theorem inHomes_iff {ordinals : List ℕ} {ordinal : ℕ} {rest : List String} :
    InHomes base ordinals (base ++ homeName ordinal :: rest) ↔ ordinal ∈ ordinals := by
  constructor
  · rintro ⟨other, hother, hleads⟩
    obtain rfl := homeName_injective (prefix_home_iff.mp hleads)
    exact hother
  · exact fun h ↦ ⟨ordinal, h, prefix_home_iff.mpr rfl⟩

theorem InHomes.mono {ordinals more : List ℕ} {q : List String} (h : InHomes base ordinals q)
    (hmore : ∀ ordinal ∈ ordinals, ordinal ∈ more) : InHomes base more q := by
  obtain ⟨ordinal, hordinal, hleads⟩ := h
  exact ⟨ordinal, hmore ordinal hordinal, hleads⟩

/-- What is written to other homes afterwards leaves a home prepared. -/
theorem Prepares.after_rewritten {home : NodeHome} {ordinals : List ℕ} {before after next : Store}
    (h : Prepares layout base home before after)
    (hrewritten : Rewritten (InHomes base ordinals) after next) (hother : home.ordinal ∉ ordinals) :
    Prepares layout base home before next where
  genesis := h.genesis.after_rewritten hrewritten fun hin ↦ hother (inHomes_iff.mp hin)
  config := h.config.after_rewritten hrewritten fun hin ↦ hother (inHomes_iff.mp hin)

theorem Prepares.before_rewritten {home : NodeHome} {ordinals : List ℕ}
    {first before after : Store} (h : Prepares layout base home before after)
    (hrewritten : Rewritten (InHomes base ordinals) first before)
    (hother : home.ordinal ∉ ordinals) : Prepares layout base home first after where
  genesis := h.genesis.before_rewritten hrewritten fun hin ↦ hother (inHomes_iff.mp hin)
  config := h.config.before_rewritten hrewritten fun hin ↦ hother (inHomes_iff.mp hin)

section Acting

variable (hacts : cluster.machine.ActsOn store)

include hacts

theorem gives_patchFile_home {ordinal : ℕ} {file : String} {changes : List (String × Json.Value)}
    (hfile : ProperName file) (hbase : (store s).Reaches cluster.config.workDir base)
    (hhome : (store s).HasHome (base ++ [homeName ordinal]))
    (hlink : ∀ target, (store s).root.get? (base ++ [homeName ordinal] ++ [file]) ≠
      some (.link target))
    (h : Gives (patchFile cluster.machine ((cluster.homeDirectory ordinal).child file) changes)
      s () s') :
    Rewritten (· = base ++ [homeName ordinal, file]) (store s) (store s') ∧
      Patched (base ++ [homeName ordinal, file]) changes (store s) (store s') := by
  obtain ⟨members, hdocument, hwrite⟩ := gives_patchFile hacts h
  obtain ⟨entries, hdirectory⟩ := hhome.directory
  have hnames : ∀ name ∈ [homeName ordinal] ++ [file], ProperName name := by
    intro name hname
    rcases List.mem_append.mp hname with hname | hname
    · rw [List.mem_singleton.mp hname]
      exact properName_homeName ordinal
    · rw [List.mem_singleton.mp hname]
      exact hfile
  rw [List.append_assoc] at hlink
  exact Store.patched_of_writeBytes hbase hnames hdirectory hlink hdocument hwrite

theorem gives_prepareHome {ordinal : ℕ} {home : NodeHome}
    (hbase : (store s).Reaches cluster.config.workDir base)
    (hhome : (store s).HasHome (base ++ [homeName ordinal]))
    (h : Gives (cluster.prepareHome layout ordinal) s home s') :
    home.ordinal = ordinal ∧ cluster.Settles layout home ∧
      Prepares layout base home (store s) (store s') ∧
      Rewritten (InHomes base [ordinal]) (store s) (store s') := by
  obtain ⟨_, s₁, hgenesis, htail⟩ := gives_bind h
  obtain ⟨⟨address, rpcAddress⟩, s₂, hports, hrest⟩ := gives_bind htail
  obtain ⟨haddresses, rfl⟩ := Bringup.gives_ofExcept hports
  obtain ⟨_, s₃, hconfig, hlast⟩ := gives_bind hrest
  obtain ⟨publicKey, s₄, hkey, hend⟩ := gives_bind hlast
  obtain ⟨rfl, rfl⟩ := gives_pure hend
  have hkept : store s' = store s₃ := by
    obtain ⟨members, s₅, hread, hfound⟩ := gives_bind hkey
    have hs₅ := (gives_readObject hacts hread).1
    split at hfound
    · obtain ⟨-, rfl⟩ := gives_pure hfound
      exact hs₅
    · exact absurd hfound Bringup.not_gives_fail
  obtain ⟨hfirst, hpatchedGenesis⟩ :=
    gives_patchFile_home hacts properName_genesisFile hbase hhome hhome.genesis hgenesis
  have hhome₁ := hhome.of_rewritten hfirst
  obtain ⟨hsecond, hpatchedConfig⟩ :=
    gives_patchFile_home hacts properName_configFile (hfirst.reaches hbase) hhome₁
      hhome₁.config hconfig
  have hapart : base ++ [homeName ordinal, genesisFile] ≠ base ++ [homeName ordinal, configFile] := by
    simp [genesisFile, configFile]
  have hinside (file : String) (q : List String) (hq : q = base ++ [homeName ordinal, file]) :
      InHomes base [ordinal] q := by
    rw [hq]
    exact inHomes_iff.mpr (List.mem_singleton_self ordinal)
  refine ⟨rfl, ⟨rfl, rfl, haddresses⟩, ⟨?_, ?_⟩, ?_⟩
  · rw [hkept]
    exact hpatchedGenesis.after_rewritten hsecond hapart
  · rw [hkept]
    exact hpatchedConfig.before_rewritten hfirst hapart.symm
  · rw [hkept]
    exact (hfirst.mono (hinside genesisFile)).trans (hsecond.mono (hinside configFile))

/-- Homes that are prepared one after the other do not disturb each other. -/
theorem gives_prepareHomes {ordinals : List ℕ} {homes : List NodeHome} (hnodup : ordinals.Nodup)
    (hbase : (store s).Reaches cluster.config.workDir base)
    (hhomes : ∀ ordinal ∈ ordinals, (store s).HasHome (base ++ [homeName ordinal]))
    (h : Gives (cluster.prepareHomes layout ordinals) s homes s') :
    homes.map (·.ordinal) = ordinals ∧
      (∀ home ∈ homes, cluster.Settles layout home ∧
        Prepares layout base home (store s) (store s')) ∧
      Rewritten (InHomes base ordinals) (store s) (store s') := by
  induction ordinals generalizing s homes with
  | nil =>
    obtain ⟨rfl, rfl⟩ := gives_pure h
    exact ⟨rfl, fun _ hhome ↦ (List.not_mem_nil hhome).elim, .refl _ _⟩
  | cons ordinal rest ih =>
    obtain ⟨hfresh, hdistinct⟩ := List.nodup_cons.mp hnodup
    obtain ⟨hhere, hrest⟩ := List.forall_mem_cons.mp hhomes
    obtain ⟨home, s₁, hfirst, htail⟩ := gives_bind h
    obtain ⟨others, s₂, hothers, hend⟩ := gives_bind htail
    obtain ⟨rfl, rfl⟩ := gives_pure hend
    obtain ⟨rfl, hsettles, hprepares, hchanged⟩ := gives_prepareHome hacts hbase hhere hfirst
    obtain ⟨hordinals, hall, hlater⟩ := ih hdistinct (hchanged.reaches hbase)
      (fun ordinal hordinal ↦ (hrest ordinal hordinal).of_rewritten hchanged) hothers
    refine ⟨congrArg (home.ordinal :: ·) hordinals, ?_, ?_⟩
    · intro found hfound
      rcases List.mem_cons.mp hfound with rfl | hfound
      · exact ⟨hsettles, hprepares.after_rewritten hlater hfresh⟩
      · obtain ⟨hsettled, hprepared⟩ := hall found hfound
        have hmem : found.ordinal ∈ rest := hordinals ▸ List.mem_map_of_mem hfound
        refine ⟨hsettled, hprepared.before_rewritten hchanged fun hsame ↦ hfresh ?_⟩
        rwa [← List.mem_singleton.mp hsame]
    · have hfirst (q : List String) (hq : InHomes base [home.ordinal] q) :
          InHomes base (home.ordinal :: rest) q :=
        hq.mono (List.forall_mem_singleton.mpr List.mem_cons_self)
      have hothers (q : List String) (hq : InHomes base rest q) :
          InHomes base (home.ordinal :: rest) q :=
        hq.mono fun _ hordinal ↦ List.mem_cons_of_mem _ hordinal
      exact (hchanged.mono hfirst).trans (hlater.mono hothers)

end Acting

end LocalCluster

end BlockWatch
