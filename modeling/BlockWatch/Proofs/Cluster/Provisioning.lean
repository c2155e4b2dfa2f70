import BlockWatch.Cluster.Seeding
import BlockWatch.Proofs.Cluster.Footing
import BlockWatch.Proofs.Cluster.LayingOut

/-!
# Provisioned homes

When a cluster was laid out, every genesis file says what the chain overrides ask for. A program that
keeps the members it finds leaves it so, and so does a snapshot whose own genesis file says it.
-/

namespace BlockWatch

open Json.DottedPath (setAll lookup keys Apart)

/-! ## Independent changes -/

/-- Changes that do not interfere and come back when they are written and read. -/
structure Independent (changes : List (String × Json.Value)) : Prop where
  apart : changes.Pairwise fun a b ↦ Apart a.1 b.1
  ordered : ∀ change ∈ changes, change.2.Ordered
  exact : ∀ change ∈ changes, change.2.Exact
  nests : ∀ change ∈ changes, ∃ inner, change.2.Nests inner ∧
    (keys change.1).length + inner ≤ Json.depthLimit

theorem lookup_reread {members : Json.Members} {path : String} {value : Json.Value}
    (h : lookup members path = some value) (hexact : value.Exact) :
    lookup (members.map fun member ↦ (member.1, member.2.reread)) path = some value := by
  calc
    lookup (members.map fun member ↦ (member.1, member.2.reread)) path =
        Json.DottedPath.lookupKeys (keys path) (Json.Value.object members).reread := by
      rw [Json.Value.reread_object, lookup]
    _ = (lookup members path).map Json.Value.reread := Json.lookupKeys_reread _ _
    _ = some value := by rw [h, Option.map_some, Json.Value.reread_of_exact hexact]

/-- A file that was written with some changes says them. -/
theorem Store.says_of_written {s : Store} {q : List String} {changes : List (String × Json.Value)}
    (hchanges : Independent changes) {members : Json.Members} {executable : Bool}
    (hordered : (Json.Value.object members).Ordered)
    (hnests : (Json.Value.object members).Nests Json.depthLimit)
    (hfile : s.root.get? q =
      some (.file (Json.Value.object (setAll members changes)).pretty.toUTF8 executable)) :
    s.Says q changes := by
  have hread := valueOf?_pretty
    (Json.DottedPath.ordered_setAll hchanges.ordered hordered)
    (Json.DottedPath.nests_setAll hchanges.nests hnests)
  rw [Json.Value.reread_object] at hread
  refine ⟨_, ⟨_, executable, hfile, hread⟩, fun change hchange ↦ ?_⟩
  exact lookup_reread (Json.DottedPath.lookup_setAll_of_mem hchanges.apart hchange members)
    (hchanges.exact change hchange)

/-- So does a patched file. -/
theorem Store.says_of_patched {s next : Store} {q : List String}
    {changes : List (String × Json.Value)} (hchanges : Independent changes)
    (h : Patched q changes s next) : next.Says q changes := by
  obtain ⟨members, executable, ⟨contents, -, -, hvalue⟩, hfile⟩ := h
  have hshaped := shaped_of_valueOf? hvalue
  exact Store.says_of_written hchanges hshaped.ordered hshaped.nests hfile

/-! ## Programs -/

namespace Footing

/-- What a program leaves of a furnished store if it furnishes no link and keeps the members of
genesis files. -/
structure Keeps (footing : Footing) (s next : Store) : Prop where
  furnished : footing.Furnished s → footing.Furnished next
  members : footing.Furnished s → ∀ ordinal < footing.nodes, ∀ members,
    s.Holds (footing.genesisAt ordinal) (.object members) → ∃ more,
      next.Holds (footing.genesisAt ordinal) (.object more) ∧
      ∀ key value, Json.Members.find? key members = some value →
        Json.Members.find? key more = some value

variable {footing : Footing} {s next : Store} {changes : List (String × Json.Value)}
  {sources : List (List String)}

theorem Keeps.refl (s : Store) : footing.Keeps s s where
  furnished := id
  members _ _ _ members hholds := ⟨members, hholds, fun _ _ h ↦ h⟩

theorem Sound.forget (h : footing.Sound changes sources s) : footing.Sound changes [] s :=
  ⟨h.furnished, h.genesis, fun _ hq ↦ absurd hq List.not_mem_nil⟩

/-- What is found in an object is found where its members are kept. -/
theorem lookup_of_members {members more : Json.Members}
    (hmore : ∀ key value, Json.Members.find? key members = some value →
      Json.Members.find? key more = some value) {path : String} {value : Json.Value}
    (h : lookup members path = some value) : lookup more path = some value := by
  obtain ⟨key, rest, hkeys⟩ := List.exists_cons_of_ne_nil (Json.DottedPath.keys_ne_nil path)
  rw [lookup, hkeys, Json.DottedPath.lookupKeys_cons] at h ⊢
  obtain ⟨found, hfound, hrest⟩ := Option.bind_eq_some_iff.mp h
  rw [hmore key found hfound, Option.bind_some]
  exact hrest

theorem Sound.of_keeps (h : footing.Sound changes [] s) (hkeeps : footing.Keeps s next) :
    footing.Sound changes [] next where
  furnished := hkeeps.furnished h.furnished
  genesis ordinal hordinal := by
    obtain ⟨members, hholds, hfound⟩ := h.genesis ordinal hordinal
    obtain ⟨more, hmore, hkept⟩ := hkeeps.members h.furnished ordinal hordinal members hholds
    exact ⟨more, hmore, fun change hchange ↦ lookup_of_members hkept (hfound change hchange)⟩
  sources _ hq := absurd hq List.not_mem_nil

end Footing

/-! ## Laying out -/

/-- The home of a node where its ordinal puts it. -/
structure LocalCluster.Houses {σ : Type} (cluster : LocalCluster σ) (footing : Footing)
    (home : NodeHome) : Prop where
  directory : home.directory = cluster.homeDirectory home.ordinal
  ordinal : home.ordinal < footing.nodes

section Machine

open Op (Gives gives_bind gives_adapt gives_pure)

variable {σ : Type} {machine : Machine σ} {store : σ → Store} {footing : Footing} {workDir : Path}
  {changes : List (String × Json.Value)} {sources : List (List String)} {s s' : σ}

section Cluster

variable {cluster : LocalCluster σ} (hacts : cluster.machine.ActsOn store)
  (hfirm : footing.Firm cluster.config.workDir)

include hacts hfirm

theorem bears_of_removeStale {ordinal : ℕ} (hordinal : ordinal < footing.nodes)
    (hbears : footing.Bears (store s)) (h : Gives (cluster.removeStale ordinal) s () s') :
    footing.Bears (store s') ∧ ∀ q, footing.Outside q → Store.Spares q (store s) (store s') := by
  obtain ⟨there, s₁, hlook, hrest⟩ := gives_bind h
  have hsame : store s₁ = store s := gives_isThere hacts hlook
  split_ifs at hrest
  · have hremove := hacts.removeTree _ _ _ (gives_adapt hrest)
    rw [hsame] at hremove
    exact hbears.of_removeTree hfirm hordinal hremove
  · obtain ⟨-, rfl⟩ := gives_pure hrest
    rw [hsame]
    exact ⟨hbears, fun _ _ _ _ hfile ↦ hfile⟩

theorem bears_of_removeStaleAll {ordinals : List ℕ}
    (hordinals : ∀ ordinal ∈ ordinals, ordinal < footing.nodes) (hbears : footing.Bears (store s))
    (h : Gives (cluster.removeStaleAll ordinals) s () s') :
    footing.Bears (store s') ∧ ∀ q, footing.Outside q → Store.Spares q (store s) (store s') := by
  induction ordinals generalizing s with
  | nil =>
    obtain ⟨-, rfl⟩ := gives_pure h
    exact ⟨hbears, fun _ _ _ _ hfile ↦ hfile⟩
  | cons ordinal rest ih =>
    obtain ⟨hordinal, hrest⟩ := List.forall_mem_cons.mp hordinals
    obtain ⟨_, s₁, hfirst, hlater⟩ := gives_bind h
    obtain ⟨hbears₁, hspares₁⟩ := bears_of_removeStale hacts hfirm hordinal hbears hfirst
    obtain ⟨hbears', hspares'⟩ := ih hrest hbears₁ hlater
    exact ⟨hbears', fun q hq ↦ (hspares₁ q hq).trans (hspares' q hq)⟩

/-- What the node program is run on has the ground, and all files outside of the homes. -/
theorem bears_of_cleared (hawaits : footing.Awaits cluster.config.workDir (store s))
    (h : cluster.Cleared footing.nodes s s') :
    footing.Bears (store s') ∧ ∀ q, footing.Outside q → Store.Spares q (store s) (store s') := by
  obtain ⟨based, hmake, hremove⟩ := h
  have hmade := hacts.makeDirectories _ _ _ hmake
  obtain ⟨hbears, hspares⟩ := bears_of_removeStaleAll hacts hfirm
    (fun _ hordinal ↦ List.mem_range.mp hordinal) (hawaits _ hmade) hremove
  exact ⟨hbears, fun q hq ↦ ((Store.grows_makeDirectories hmade).spares q).trans (hspares q hq)⟩

theorem sound_of_layOut {layout : Layout} (hnodes : layout.nodeCount = .ok footing.nodes)
    (hchanges : Independent layout.chainOverrides)
    (hmade : ∀ cleared finished made, cluster.Cleared footing.nodes s cleared →
      Gives (cluster.machine.run (cluster.layOutCommand layout.topology)) cleared finished made →
        finished.status.isSuccess = true → footing.Furnished (store made) ∧
          ∀ q ∈ sources, footing.Outside q ∧ (store made).Says q layout.chainOverrides)
    {homes : List NodeHome} (h : Gives (cluster.layOut layout) s homes s') :
    footing.Sound layout.chainOverrides sources (store s') ∧
      ∀ home ∈ homes, cluster.Houses footing home := by
  obtain ⟨nodes, cleared, finished, made, hcount, hcleared, hrun, hsuccess, hprepare⟩ :=
    LocalCluster.gives_layOut h
  rw [hnodes] at hcount
  obtain rfl := Except.ok.inj hcount
  obtain ⟨hfurnished, hsources⟩ := hmade cleared finished made hcleared hrun hsuccess
  obtain ⟨hordinals, hall, hrewritten⟩ := LocalCluster.gives_prepareHomes hacts List.nodup_range
    (hfurnished.reaches hfirm) (fun ordinal hordinal ↦
      hfurnished.hasHome (List.mem_range.mp hordinal)) hprepare
  have huntouched (q : List String) (hq : footing.Outside q) :
      ¬LocalCluster.InHomes footing.base (List.range footing.nodes) q := by
    rintro ⟨ordinal, hordinal, hleads⟩
    exact hq ordinal (List.mem_range.mp hordinal) hleads
  refine ⟨⟨hfurnished.of_rewritten hfirm (fun q hin hout ↦ huntouched q hout hin) hrewritten,
    fun ordinal hordinal ↦ ?_, fun q hq ↦ ?_⟩,
    fun home hhome ↦ ⟨(hall home hhome).1.directory, ?_⟩⟩
  · have hmem : ordinal ∈ homes.map (·.ordinal) := by
      rw [hordinals]
      exact List.mem_range.mpr hordinal
    obtain ⟨home, hhome, rfl⟩ := List.mem_map.mp hmem
    exact Store.says_of_patched hchanges (hall home hhome).2.genesis
  · obtain ⟨houtside, hsaid⟩ := hsources q hq
    have hspares : Store.Spares q (store made) (store s') :=
      hrewritten.file q (huntouched q houtside)
    exact ⟨houtside, hspares.says_kept hsaid⟩
  · apply List.mem_range.mp
    rw [← hordinals]
    exact List.mem_map_of_mem hhome

end Cluster

/-! ## Operations in a home -/

section Home

variable (hacts : machine.ActsOn store) (hfirm : footing.Firm workDir) {ordinal : ℕ}
  (hordinal : ordinal < footing.nodes)

include hacts hfirm hordinal

theorem sound_of_createFile {name : String} (hname : ProperName name) (hother : name ≠ genesisFile)
    (h : Gives (machine.createFile (workDir.below [homeName ordinal, name])) s () s')
    (hsound : footing.Sound changes sources (store s)) :
    footing.Sound changes sources (store s') :=
  hsound.of_confined hfirm hordinal (List.forall_mem_singleton.mpr hname) hother
    fun _ hreaches hnames hne hhome hplain ↦
      Store.reworked_of_writeBytes hreaches hnames hne hhome hplain (hacts.createFile _ _ _ h)

/-- What a copied directory consists of. -/
theorem sound_of_copyEntries {copyDirectory : Path → Path → Bringup σ Unit} {source : Path}
    {names : List String} {entries : List Listed}
    (hdirectory : ∀ inner more s s', (∀ name ∈ more, ProperName name) →
      Gives (copyDirectory inner (workDir.below (homeName ordinal :: dataDirectory :: more)))
        s () s' →
      footing.Sound changes sources (store s) → footing.Sound changes sources (store s'))
    (hnames : ∀ name ∈ names, ProperName name) (hentries : ∀ entry ∈ entries, ProperName entry.name)
    (h : Gives (Seeder.copyEntries machine copyDirectory source
      (workDir.below (homeName ordinal :: dataDirectory :: names)) entries) s () s')
    (hsound : footing.Sound changes sources (store s)) :
    footing.Sound changes sources (store s') := by
  induction entries generalizing s with
  | nil =>
    obtain ⟨-, rfl⟩ := gives_pure h
    exact hsound
  | cons entry entries ih =>
    obtain ⟨hentry, hlater⟩ := List.forall_mem_cons.mp hentries
    have htarget : (workDir.below (homeName ordinal :: dataDirectory :: names)).child entry.name =
        workDir.below (homeName ordinal :: dataDirectory :: (names ++ [entry.name])) :=
      (Store.below_append workDir (homeName ordinal :: dataDirectory :: names) [entry.name]).symm
    have hmore : ∀ name ∈ names ++ [entry.name], ProperName name := by
      intro name hname
      rcases List.mem_append.mp hname with hname | hname
      · exact hnames name hname
      · exact List.mem_singleton.mp hname ▸ hentry
    rw [Seeder.copyEntries] at h
    dsimp only at h
    rw [htarget] at h
    split_ifs at h with hkind
    · obtain ⟨_, s₁, hcopy, hrest⟩ := gives_bind h
      exact ih hlater hrest (hdirectory _ _ s s₁ hmore hcopy hsound)
    · obtain ⟨_, s₁, hcopy, hrest⟩ := gives_bind h
      refine ih hlater hrest (hsound.of_confined hfirm hordinal
        (List.forall_mem_cons.mpr ⟨properName_dataDirectory, hmore⟩) (by decide) ?_)
      intro _ hreaches hproper hne hhome hplain
      exact Store.reworked_of_copyFile hreaches hproper hne hhome hplain
        (hacts.copyFile _ _ _ _ (gives_adapt hcopy))

theorem sound_of_copyTree {depth : ℕ} {source : Path} {names : List String}
    (hnames : ∀ name ∈ names, ProperName name)
    (h : Gives (Seeder.copyTree machine depth source
      (workDir.below (homeName ordinal :: dataDirectory :: names))) s () s')
    (hsound : footing.Sound changes sources (store s)) :
    footing.Sound changes sources (store s') := by
  induction depth generalizing source names s s' with
  | zero => exact absurd h Bringup.not_gives_fail
  | succ depth ih =>
    obtain ⟨_, s₁, hmake, htail⟩ := gives_bind h
    obtain ⟨entries, s₂, hlist, hcopy⟩ := gives_bind htail
    have hmade := hsound.of_grows
      (Store.grows_makeDirectories (hacts.makeDirectories _ _ _ (gives_adapt hmake)))
    obtain ⟨hstore, hentries⟩ := hacts.list _ _ _ _ (gives_adapt hlist)
    rw [← hstore] at hmade
    exact sound_of_copyEntries hacts hfirm hordinal
      (fun inner more s s' hmore hinner hbefore ↦ ih hmore hinner hbefore) hnames hentries hcopy
      hmade

/-- A snapshot is copied into a home. -/
theorem sound_of_copyInto {source : Path} {q : List String} (hq : q ∈ sources)
    (hsource : footing.ground.Reaches (source.child genesisFile) q)
    (h : Gives (Seeder.copyInto machine source (workDir.child (homeName ordinal))) s () s')
    (hsound : footing.Sound changes sources (store s)) :
    footing.Sound changes sources (store s') := by
  obtain ⟨_, s₁, hgenesis, htail⟩ := gives_bind h
  have hcopied := hsound.of_copyFile hfirm hordinal hq hsource
    (hacts.copyFile _ _ _ _ (gives_adapt hgenesis))
  obtain ⟨stale, s₂, hlook, hrest⟩ := gives_bind htail
  rw [← gives_isThere hacts hlook] at hcopied
  have hdata : ∀ name ∈ [dataDirectory], ProperName name :=
    List.forall_mem_singleton.mpr properName_dataDirectory
  have hcopyData : ∀ s₃, footing.Sound changes sources (store s₃) →
      Gives (do
        let data := source.child dataDirectory
        if ← machine.isThere data then
          Seeder.copyTree machine Seeder.maxDepth data
            ((workDir.child (homeName ordinal)).child dataDirectory) : Bringup σ Unit) s₃ () s' →
      footing.Sound changes sources (store s') := by
    intro s₃ hbefore hend
    obtain ⟨there, s₄, hthere, hcopy⟩ := gives_bind hend
    rw [← gives_isThere hacts hthere] at hbefore
    split_ifs at hcopy
    · exact sound_of_copyTree hacts hfirm hordinal (fun _ h ↦ absurd h List.not_mem_nil) hcopy
        hbefore
    · obtain ⟨-, rfl⟩ := gives_pure hcopy
      exact hbefore
  split_ifs at hrest
  · obtain ⟨_, s₃, hremove, hend⟩ := gives_bind hrest
    refine hcopyData s₃ (hcopied.of_confined hfirm hordinal hdata (by decide) ?_) hend
    intro _ hreaches hproper hne hhome hplain
    exact Store.reworked_of_removeTree hreaches hproper hne hhome hplain
      (hacts.removeTree _ _ _ (gives_adapt hremove))
  · exact hcopyData s₂ hcopied hrest

end Home

/-! ## Seeding -/

/-- Paths of homes. -/
def AreHomes (footing : Footing) (workDir : Path) (homes : List Path) : Prop :=
  ∀ home ∈ homes, ∃ ordinal < footing.nodes, home = workDir.child (homeName ordinal)

theorem sound_of_copyIntoAll (hacts : machine.ActsOn store) (hfirm : footing.Firm workDir)
    {homes : List Path} (hhomes : AreHomes footing workDir homes) {source : Path}
    {q : List String} (hq : q ∈ sources)
    (hsource : footing.ground.Reaches (source.child genesisFile) q)
    (h : Gives (Seeder.copyIntoAll machine source homes) s () s')
    (hsound : footing.Sound changes sources (store s)) :
    footing.Sound changes sources (store s') := by
  induction homes generalizing s with
  | nil =>
    obtain ⟨-, rfl⟩ := gives_pure h
    exact hsound
  | cons home homes ih =>
    obtain ⟨⟨ordinal, hordinal, rfl⟩, hrest⟩ := List.forall_mem_cons.mp hhomes
    obtain ⟨_, s₁, hcopy, hlater⟩ := gives_bind h
    exact ih hrest hlater
      (sound_of_copyInto hacts hfirm hordinal hq hsource hcopy hsound)

/-- A snapshot that says what the genesis files say leaves them so. -/
theorem sound_of_copySnapshot (hacts : machine.ActsOn store) (hfirm : footing.Firm workDir)
    {homes : List Path} (hhomes : AreHomes footing workDir homes) {source : Path}
    {q : List String} (hq : q ∈ sources)
    (hsource : footing.ground.Reaches (source.child genesisFile) q)
    (h : Gives (Seeder.copySnapshot machine source homes) s () s')
    (hsound : footing.Sound changes sources (store s)) :
    footing.Sound changes sources (store s') := by
  obtain ⟨there, s₁, hlook, hcopy⟩ := gives_bind h
  rw [← gives_isThere hacts hlook] at hsound
  split_ifs at hcopy
  · exact sound_of_copyIntoAll hacts hfirm hhomes hq hsource hcopy hsound
  · exact absurd hcopy Bringup.not_gives_fail

/-- So does a program that keeps what it finds. -/
theorem sound_of_populate {seeder : Seeder} {accounts : UInt64} {homes : List Path}
    (hkeeps : ∀ home ∈ homes, ∀ s finished s',
      Gives (machine.run (seeder.populateCommand accounts home)) s finished s' →
        finished.status.isSuccess = true → footing.Keeps (store s) (store s'))
    (h : Gives (seeder.populate machine accounts homes) s () s')
    (hsound : footing.Sound changes [] (store s)) : footing.Sound changes [] (store s') := by
  induction homes generalizing s with
  | nil =>
    obtain ⟨-, rfl⟩ := gives_pure h
    exact hsound
  | cons home homes ih =>
    obtain ⟨hhome, hrest⟩ := List.forall_mem_cons.mp hkeeps
    obtain ⟨_, s₁, hrun, hlater⟩ := gives_bind h
    obtain ⟨finished, hfinished, hsuccess⟩ := gives_runToEnd hrun
    exact ih hrest hlater (hsound.of_keeps (hhome s finished s₁ hfinished hsuccess))

end Machine

end BlockWatch
