import BlockWatch.Proofs.Cluster.Operations
import BlockWatch.Proofs.Json.Overwriting
import BlockWatch.Proofs.Json.Reread
import BlockWatch.Proofs.Store.Reopened

/-!
# Patched files

A file that holds an object is patched by reading the object, writing at the dotted paths one after
the other, and printing what comes of it; what is read from the file is then just that. Where there
is no object to read nothing is written. Changes that do not interfere give the same text in any
order.
-/

namespace BlockWatch

open Op (Gives)
open Json.DottedPath (setAll)

variable {σ : Type} {machine : Machine σ} {store : σ → Store} {path : Path} {s : σ}

/-- The machine reads what a path of the store leads to and leaves the store as it is. What it
writes there is written to the store. -/
structure Machine.Serves (machine : Machine σ) (store : σ → Store) (path : Path) : Prop where
  read : ∀ s, ((machine.readText path).run.run s).1 = (store s).readText path ∧
    store ((machine.readText path).run.run s).2 = store s
  write : ∀ {text s s'}, Gives (machine.writeText path text) s () s' →
    (store s).writeBytes path text.toUTF8 = .ok (store s')

/-- As long as the store is as it is now, whatever is written to the path succeeds. -/
def Machine.CanWrite (machine : Machine σ) (store : σ → Store) (path : Path) (s : σ) : Prop :=
  ∀ text t, store t = store s → ∃ t', Gives (machine.writeText path text) t () t'

/-- Patching ends with the error, which is known by the code, and the store is as it was. -/
def PatchFails (machine : Machine σ) (store : σ → Store) (path : Path)
    (changes : List (String × Json.Value)) (s : σ) (cause : BringupError) (code : String) : Prop :=
  cause.code = code ∧ ∃ s',
    (patchFile machine path changes).run.run s = (.error (.error cause), s') ∧ store s' = store s

/-! ## Reading the object -/

theorem run_readObject (hserves : machine.Serves store path) (s : σ) :
    ∃ s', store s' = store s ∧ (readObject machine path).run.run s =
      (((store s).readText path).mapError (.error ∘ .io path) >>= objectOf path, s') := by
  obtain ⟨hread, hstore⟩ := hserves.read s
  refine ⟨((machine.readText path).run.run s).2, hstore, ?_⟩
  rw [readObject, Op.run_bind, Bringup.atPath, Op.run_adapt, hread]
  cases (store s).readText path <;> rfl

theorem gives_readObject_of_readText (hserves : machine.Serves store path) {text : String}
    {members : Json.Members} (hread : (store s).readText path = .ok text)
    (htext : Json.Value.ofText text = .ok (.object members)) :
    ∃ s', Gives (readObject machine path) s members s' ∧ store s' = store s := by
  obtain ⟨s', hstore, hrun⟩ := run_readObject hserves s
  refine ⟨s', ?_, hstore⟩
  rw [Gives, hrun, hread]
  change (objectOf path text, s') = _
  rw [objectOf, htext]

/-- Where no object is read, patching fails as reading does. -/
theorem patchFails_of_readObject {changes : List (String × Json.Value)} {cause : BringupError}
    {s' : σ} (h : (readObject machine path).run.run s = (.error (.error cause), s'))
    (hstore : store s' = store s) :
    PatchFails machine store path changes s cause cause.code := by
  refine ⟨rfl, s', ?_, hstore⟩
  rw [patchFile, Op.run_bind, h]

/-! ## Patching -/

/-- What was patched is read back. -/
theorem gives_patchFile_readObject (hserves : machine.Serves store path)
    (hwrite : machine.CanWrite store path s) {text : String} {members : Json.Members}
    (hread : (store s).readText path = .ok text)
    (htext : Json.Value.ofText text = .ok (.object members))
    {changes : List (String × Json.Value)}
    (hback : Json.Value.ofText (Json.Value.object (setAll members changes)).pretty =
      .ok (.object (setAll members changes))) :
    ∃ s' s'', Gives (patchFile machine path changes) s () s' ∧
      Gives (readObject machine path) s' (setAll members changes) s'' := by
  have hne : text ≠ "" := by
    rintro rfl
    have hempty : (Json.Value.ofText "").isOk = false := by decide +kernel
    rw [htext] at hempty
    cases hempty
  obtain ⟨location, executable, hfind⟩ := Store.exists_find_of_readText hread hne
  obtain ⟨middle, hobject, hmiddle⟩ := gives_readObject_of_readText hserves hread htext
  obtain ⟨s', hwritten⟩ :=
    hwrite (Json.Value.object (setAll members changes)).pretty middle hmiddle
  obtain ⟨next, hnext, hfound⟩ := Store.exists_find_of_writeBytes hfind
    (Json.Value.object (setAll members changes)).pretty.toUTF8
  have hstore : store s' = next := by
    have hsame := hserves.write hwritten
    rw [hmiddle, hnext] at hsame
    exact (Except.ok.inj hsame).symm
  rw [← hstore] at hfound
  obtain ⟨s'', hagain, -⟩ :=
    gives_readObject_of_readText hserves (Store.readText_of_find hfound) hback
  exact ⟨s', s'', hobject.bind (hwritten.adapt _), hagain⟩

/-- A file that holds an object is patched, and the patched object is read back, if it holds no
floating point numbers and nests no deeper than is read. Otherwise the error tells what is wrong
with the file, which is left as it was. -/
theorem patchFile_of_readText (hserves : machine.Serves store path) (s : σ)
    (changes : List (String × Json.Value)) :
    (∀ {text members}, (store s).readText path = .ok text →
      Json.Value.ofText text = .ok (.object members) → machine.CanWrite store path s →
      (∀ change ∈ changes, change.2.Ordered) →
      (Json.Value.object (setAll members changes)).Exact →
      (Json.Value.object (setAll members changes)).Nests 127 →
      ∃ s' s'', Gives (patchFile machine path changes) s () s' ∧
        Gives (readObject machine path) s' (setAll members changes) s'' ∧
        Json.Value.ofText (Json.Value.object (setAll members changes)).pretty =
          .ok (.object (setAll members changes))) ∧
      (∀ {cause}, (store s).readText path = .error cause →
        PatchFails machine store path changes s (.io path cause) "IO_ERROR") ∧
      (∀ {text stop}, (store s).readText path = .ok text → Json.Value.ofText text = .error stop →
        ∃ cause, stop = .error cause ∧
          PatchFails machine store path changes s (.malformed path cause) "INVALID_JSON") ∧
      ∀ {text value}, (store s).readText path = .ok text → Json.Value.ofText text = .ok value →
        (∀ members, value ≠ .object members) →
        PatchFails machine store path changes s (.notAnObject path) "NOT_AN_OBJECT" := by
  obtain ⟨s', hstore, hrun⟩ := run_readObject hserves s
  refine ⟨?_, ?_, ?_, ?_⟩
  · intro text members hread htext hwrite hchanges hexact hnests
    have hordered := Json.DottedPath.ordered_setAll hchanges
      (Json.Value.shaped_of_ofText htext).ordered
    have hback := Json.Value.ofText_pretty hordered hnests
    rw [Json.Value.reread_of_exact hexact] at hback
    obtain ⟨s', s'', hpatch, hagain⟩ :=
      gives_patchFile_readObject hserves hwrite hread htext hback
    exact ⟨s', s'', hpatch, hagain, hback⟩
  · intro cause hread
    rw [hread] at hrun
    exact patchFails_of_readObject hrun hstore
  · intro text stop hread htext
    obtain ⟨cause, rfl⟩ := (Json.Value.faultless_ofText text).exists_cause htext
    refine ⟨cause, rfl, patchFails_of_readObject (hrun.trans ?_) hstore⟩
    rw [hread]
    change (objectOf path text, s') = _
    rw [objectOf, htext]
    rfl
  · intro text value hread htext hvalue
    refine patchFails_of_readObject (hrun.trans ?_) hstore
    rw [hread]
    change (objectOf path text, s') = _
    rw [objectOf, htext]
    cases value with
    | object members => exact absurd rfl (hvalue members)
    | _ => rfl

/-! ## Benches -/

theorem Bench.serves (path : Path) : Bench.machine.Serves Bench.store path where
  read s := by
    have hrun : (Bench.machine.readText path).run.run s = (s.store.readText path, s) :=
      Bench.run_look (·.readText path) s
    rw [hrun]
    exact ⟨rfl, rfl⟩
  write h := Bench.gives_change h

/-- A bench writes over every file that is there. -/
theorem Bench.canWrite {path : Path} {s : Bench} {location : List String} {contents : ByteArray}
    {executable : Bool} (h : s.store.find true path = .ok (location, .file contents executable)) :
    Bench.machine.CanWrite Bench.store path s := by
  intro text t ht
  obtain ⟨next, hnext, -⟩ := Store.exists_find_of_writeBytes (ht ▸ h) text.toUTF8
  refine ⟨{ t with store := next }, ?_⟩
  exact (Bench.look_gives hnext).bind rfl

/-- A file with an object, two without one, and none at all. -/
theorem patchFile_of_readText_sample :
    let file (text : String) := Entry.file text.toUTF8 false
    let bench : Bench := { store := {
      root := .directory [("bad", file "\x7b"), ("good", file "\x7b\"a\":\x7b\"b\":1\x7d\x7d"),
        ("list", file "[1, 2]")]
      here := [] } }
    let changes : List (String × Json.Value) := [("a.b", .ofWord 2), ("c", .string "\\\n")]
    (∃ s' s'', Gives (patchFile Bench.machine ⟨"good"⟩ changes) bench () s' ∧
        Gives (readObject Bench.machine ⟨"good"⟩) s'
          [("a", .object [("b", .ofWord 2)]), ("c", .string "\\\n")] s'') ∧
      PatchFails Bench.machine Bench.store ⟨"none"⟩ changes bench (.io ⟨"none"⟩ .notFound)
        "IO_ERROR" ∧
      PatchFails Bench.machine Bench.store ⟨"bad"⟩ changes bench (.malformed ⟨"bad"⟩ .endOfText)
        "INVALID_JSON" ∧
      PatchFails Bench.machine Bench.store ⟨"list"⟩ changes bench (.notAnObject ⟨"list"⟩)
        "NOT_AN_OBJECT" := by
  intro file bench changes
  let patched : Json.Members := [("a", .object [("b", .ofWord 2)]), ("c", .string "\\\n")]
  have hscalar {p : Json.Value → Prop} {value : Json.Value} (h : value.isContainer = false)
      (hp : p value) : Json.Value.All p value := Json.Value.all_of_not_isContainer h hp
  have hchanges : ∀ change ∈ changes, change.2.Ordered :=
    List.forall_mem_cons.mpr ⟨hscalar rfl trivial,
      List.forall_mem_singleton.mpr (hscalar rfl trivial)⟩
  have hexact : (Json.Value.object patched).Exact := by
    refine Json.Value.all_object_iff.mpr ⟨trivial, List.forall_mem_cons.mpr
      ⟨Json.Value.all_object_iff.mpr ⟨trivial, ?_⟩, ?_⟩⟩
    all_goals exact List.forall_mem_singleton.mpr (hscalar rfl trivial)
  have hnests : (Json.Value.object patched).Nests 127 := by
    refine Json.Value.nests_object_iff.mpr (List.forall_mem_cons.mpr
      ⟨Json.Value.nests_object_iff.mpr ?_, ?_⟩)
    all_goals exact List.forall_mem_singleton.mpr (.scalar rfl)
  obtain ⟨hgood, -⟩ := patchFile_of_readText (Bench.serves ⟨"good"⟩) bench changes
  obtain ⟨-, hnone, -⟩ := patchFile_of_readText (Bench.serves ⟨"none"⟩) bench changes
  obtain ⟨-, -, hbad, -⟩ := patchFile_of_readText (Bench.serves ⟨"bad"⟩) bench changes
  obtain ⟨-, -, -, hlist⟩ := patchFile_of_readText (Bench.serves ⟨"list"⟩) bench changes
  refine ⟨?_, hnone (by decide +kernel +zetaReduce), ?_, ?_⟩
  · have htext : bench.store.readText ⟨"good"⟩ = .ok "\x7b\"a\":\x7b\"b\":1\x7d\x7d" := by
      decide +kernel +zetaReduce
    have htokens : Json.tokens "\x7b\"a\":\x7b\"b\":1\x7d\x7d" = [.openObject,
        .string [.char 'a'], .colon, .openObject, .string [.char 'b'], .colon,
        .number ⟨false, [1], none, none⟩, .closeObject, .closeObject] := by
      decide +kernel
    have hobject : Json.Value.ofText "\x7b\"a\":\x7b\"b\":1\x7d\x7d" =
        .ok (.object [("a", .object [("b", .ofWord 1)])]) := by
      rw [Json.Value.ofText, htokens]
      rfl
    obtain ⟨location, executable, hfind⟩ := Store.exists_find_of_readText htext (by decide)
    obtain ⟨s', s'', hpatch, hread, -⟩ :=
      hgood htext hobject (Bench.canWrite hfind) hchanges hexact hnests
    exact ⟨s', s'', hpatch, hread⟩
  · have htext : bench.store.readText ⟨"bad"⟩ = .ok "\x7b" := by decide +kernel +zetaReduce
    have htokens : Json.tokens "\x7b" = [.openObject] := by decide +kernel
    have hstop : Json.Value.ofText "\x7b" = .error (.error .endOfText) := by
      rw [Json.Value.ofText, htokens]
      rfl
    obtain ⟨cause, hcause, hfails⟩ := hbad htext hstop
    cases hcause
    exact hfails
  · have htext : bench.store.readText ⟨"list"⟩ = .ok "[1, 2]" := by decide +kernel +zetaReduce
    have htokens : Json.tokens "[1, 2]" = [.openArray, .number ⟨false, [1], none, none⟩, .comma,
        .number ⟨false, [2], none, none⟩, .closeArray] := by decide +kernel
    have harray : Json.Value.ofText "[1, 2]" = .ok (.array [.ofWord 1, .ofWord 2]) := by
      rw [Json.Value.ofText, htokens]
      rfl
    exact hlist htext harray fun _ h ↦ nomatch h

/-! ## The order of changes -/

open Json.DottedPath (Apart setAll_of_perm setAll_setAll)

/-- Changes at paths of which none leads to or through another give the same object in any order, so
a file is patched to the same text. Changes at any paths whatsoever, made to what they have made of
an object, change nothing more. -/
theorem patchFile_order_laws (changes : List (String × Json.Value)) :
    (∀ others, changes.Perm others → (changes.Pairwise fun a b ↦ Apart a.1 b.1) →
      (∀ members, setAll members others = setAll members changes) ∧
      ∀ {τ : Type} (machine : Machine τ) (path : Path),
        patchFile machine path others = patchFile machine path changes) ∧
    ∀ members, setAll (setAll members changes) changes = setAll members changes := by
  refine ⟨fun others hperm hapart ↦ ?_, setAll_setAll changes⟩
  have hsame (members : Json.Members) : setAll members others = setAll members changes :=
    (setAll_of_perm hperm hapart members).symm
  refine ⟨hsame, fun machine path ↦ ?_⟩
  unfold patchFile
  simp only [hsame]

/-- Two settings share an object that takes the place of a flag; and a setting is made inside a
value that the next change replaces by another one. -/
theorem patchFile_order_laws_of_shared_object :
    let changes : List (String × Json.Value) :=
      [("net.rpc.addr", .string "a"), ("net.peers", .ofWord 1), ("epoch", .ofWord 5)]
    let nested : List (String × Json.Value) :=
      [("net.peers", .ofWord 1), ("net", .null), ("net.rpc", .ofWord 2)]
    let patched : Json.Members := [("epoch", .ofWord 5),
      ("net", .object [("peers", .ofWord 1), ("rpc", .object [("addr", .string "a")])])]
    changes.Perm changes.reverse ∧ (changes.Pairwise fun a b ↦ Apart a.1 b.1) ∧
      setAll [("net", .boolean true)] changes.reverse = patched ∧
      patchFile Bench.machine ⟨"config.json"⟩ changes.reverse =
        patchFile Bench.machine ⟨"config.json"⟩ changes ∧
      setAll [("net", .object [("rpc", .ofWord 2)])] nested =
        [("net", .object [("rpc", .ofWord 2)])] ∧
      setAll (setAll [] nested) nested = setAll [] nested := by
  intro changes nested patched
  have hperm : changes.Perm changes.reverse := changes.reverse_perm.symm
  have hapart : changes.Pairwise fun a b ↦ Apart a.1 b.1 := by
    unfold Apart
    decide +kernel
  obtain ⟨hany, -⟩ := patchFile_order_laws changes
  obtain ⟨hobject, hfile⟩ := hany changes.reverse hperm hapart
  obtain ⟨-, hagain⟩ := patchFile_order_laws nested
  refine ⟨hperm, hapart, ?_, hfile Bench.machine ⟨"config.json"⟩, rfl, hagain []⟩
  rw [hobject]
  rfl

end BlockWatch
