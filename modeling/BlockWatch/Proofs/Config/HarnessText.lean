import BlockWatch.Config.Load
import BlockWatch.Proofs.Cluster.Operations
import BlockWatch.Proofs.Json.Gathered
import BlockWatch.Proofs.Json.Reread
import BlockWatch.Proofs.Net.HostText

/-!
# Harness configurations from their files

A file may list any of the fields, in any order, and members of any other name beside them. The
configuration that is read has the values of the listed fields and is the default elsewhere.
-/

namespace BlockWatch

open Json Json.Decoder Json.Decoder.Record
open Op (Gives)

/-! ## Values -/

namespace Json.Decoder

variable {spelled : List Token}

theorem decodes_path {p : Path} (h : Spells (.string p.text) spelled) : path.Decodes spelled p :=
  (decodes_string "path string" h).refine rfl

theorem decodes_host {a : Net.Host} (h : Spells (.string a.text) spelled) :
    host.Decodes spelled a := by
  refine (decodes_string "IP address" h).refine ?_
  rw [Net.Host.ofText?_text]
  rfl

theorem decodes_port {n : UInt16} (h : Spells (.ofPort n) spelled) : port.Decodes spelled n := by
  have hrange : 0 ≤ (n.toNat : ℤ) ∧ (n.toNat : ℤ) < UInt16.size :=
    ⟨Int.natCast_nonneg _, Int.ofNat_lt.mpr n.toNat_lt⟩
  refine (decodes_natural "u16" hrange h).refine ?_
  exact congrArg Except.ok UInt16.ofNat_toNat

end Json.Decoder

namespace HarnessConfig

theorem record_lawful : record.Lawful where
  stops field hfield gathered := by
    simp only [record, List.mem_cons, List.not_mem_nil, or_false] at hfield
    rcases hfield with rfl | rfl | rfl | rfl | rfl | rfl | rfl
    · exact stopsAtValues_field ((single_string _).refine _).stopsAtValues
    · exact stopsAtValues_field (single_string _).stopsAtValues
    · exact stopsAtValues_field (single_string _).stopsAtValues
    · exact stopsAtValues_field ((single_string _).refine _).stopsAtValues
    · exact stopsAtValues_field ((single_string _).refine _).stopsAtValues
    · exact stopsAtValues_field ((single_natural _ _).refine _).stopsAtValues
    · exact stopsAtValues_field ((single_natural _ _).refine _).stopsAtValues
  once field hfield := by
    simp only [record, List.mem_cons, List.not_mem_nil, or_false] at hfield
    rcases hfield with rfl | rfl | rfl | rfl | rfl | rfl | rfl <;> exact once_field fun _ _ ↦ rfl
  apart := by
    simp only [record, List.pairwise_cons, List.forall_mem_cons, List.not_mem_nil, false_implies,
      implies_true, List.Pairwise.nil, and_true]
    refine ⟨⟨?_, ?_, ?_, ?_, ?_, ?_⟩, ⟨?_, ?_, ?_, ?_, ?_⟩, ⟨?_, ?_, ?_, ?_⟩, ⟨?_, ?_, ?_⟩,
      ⟨?_, ?_⟩, ?_⟩
    all_goals
      exact apart_field (fun _ _ ↦ rfl) (fun _ _ ↦ rfl) (fun _ _ ↦ rfl) (fun _ _ ↦ rfl)
        fun _ _ _ ↦ rfl

/-! ## Listed fields -/

/-- The fields of a configuration with their values, as they are serialised. -/
def members (c : HarnessConfig) : Members :=
  match c.toJson with
  | .object members => members
  | _ => []

/-- The configuration on the listed fields, the default on all others. -/
def only (c : HarnessConfig) (listed : String → Bool) : HarnessConfig :=
  let d : HarnessConfig := {}
  { binaryRoot := if listed "binary_root" then c.binaryRoot else d.binaryRoot
    nodeBinary := if listed "node_binary" then c.nodeBinary else d.nodeBinary
    populateBinary := if listed "populate_binary" then c.populateBinary else d.populateBinary
    workDir := if listed "work_dir" then c.workDir else d.workDir
    host := if listed "host" then c.host else d.host
    basePort := if listed "base_port" then c.basePort else d.basePort
    rpcBasePort := if listed "rpc_base_port" then c.rpcBasePort else d.rpcBasePort }

/-- The text is an object. Its members are, in some order, the listed fields with their values and
members of names that no field has. -/
def Lists (c : HarnessConfig) (listed : String → Bool) (text : String) : Prop :=
  ∃ top known unknown, tokens text = objectTokens top ∧ top.Perm (known ++ unknown) ∧
    List.Forall₂ (fun member text ↦ MemberText.Spells text member)
      (c.members.filter fun member ↦ listed member.1) known ∧
    ∀ text ∈ unknown, record.Foreign text

/-- The fields that are set once the listed ones were read. -/
def gathered (c : HarnessConfig) (listed : String → Bool) : Partial where
  binaryRoot := if listed "binary_root" then c.binaryRoot else none
  nodeBinary := if listed "node_binary" then c.nodeBinary else none
  populateBinary := if listed "populate_binary" then c.populateBinary else none
  workDir := if listed "work_dir" then c.workDir else none
  host := if listed "host" then c.host else none
  basePort := if listed "base_port" then c.basePort else none
  rpcBasePort := if listed "rpc_base_port" then c.rpcBasePort else none

theorem build_gathered (c : HarnessConfig) (listed : String → Bool) :
    record.build (c.gathered listed) = .ok (c.only listed) := by
  have hgetD {α : Type} (flag : Bool) (value default : α) :
      (if flag then some value else none).getD default = if flag then value else default := by
    cases flag <;> rfl
  simp only [record, gathered, only, hgetD]

/-- A field takes its value if it is listed. -/
theorem gathers_listed {α : Type} {name : String} {get : Partial → Option α}
    {set : Partial → α → Partial} {inner : Decoder α} {value : Value} {read : α} {more : Members}
    {listed : String → Bool} {last : Partial} {texts : List MemberText}
    (place : Option α → Partial)
    (hfield : record.fields.find? (·.name == name) = some (field name get set inner true))
    (hvalue : ∀ {spelled}, Spells value spelled → inner.Decodes spelled read)
    (hunset : (get (place none)).isSome = false) (hset : set (place none) read = place (some read))
    (htexts : List.Forall₂ (fun member text ↦ MemberText.Spells text member)
      (((name, value) :: more).filter fun member ↦ listed member.1) texts)
    (hmore : ∀ {texts}, List.Forall₂ (fun member text ↦ MemberText.Spells text member)
      (more.filter fun member ↦ listed member.1) texts →
      record.Gathers (place (if listed name then some read else none)) texts last) :
    record.Gathers (place none) texts last := by
  cases hlisted : listed name with
  | false =>
    rw [List.filter_cons, hlisted] at htexts
    rw [hlisted] at hmore
    exact hmore htexts
  | true =>
    rw [List.filter_cons, hlisted] at htexts
    rw [hlisted] at hmore
    obtain _ | ⟨hfirst, hrest⟩ := htexts
    refine .field hfield hfirst.1 (hvalue hfirst.2) hunset ?_
    rw [hset]
    exact hmore hrest

/-- The listed fields are read one after the other. -/
theorem gathers_members {c : HarnessConfig} {listed : String → Bool} {texts : List MemberText}
    (h : List.Forall₂ (fun member text ↦ MemberText.Spells text member)
      (c.members.filter fun member ↦ listed member.1) texts) :
    record.Gathers record.blank texts (c.gathered listed) := by
  let all := c.gathered listed
  refine gathers_listed (fun o ↦ ⟨o, none, none, none, none, none, none⟩)
    rfl decodes_path rfl rfl h fun h ↦ ?_
  refine gathers_listed (fun o ↦ ⟨all.binaryRoot, o, none, none, none, none, none⟩)
    rfl (decodes_string _) rfl rfl h fun h ↦ ?_
  refine gathers_listed (fun o ↦ ⟨all.binaryRoot, all.nodeBinary, o, none, none, none, none⟩)
    rfl (decodes_string _) rfl rfl h fun h ↦ ?_
  refine gathers_listed
    (fun o ↦ { all with workDir := o, host := none, basePort := none, rpcBasePort := none })
    rfl decodes_path rfl rfl h fun h ↦ ?_
  refine gathers_listed (fun o ↦ { all with host := o, basePort := none, rpcBasePort := none })
    rfl decodes_host rfl rfl h fun h ↦ ?_
  refine gathers_listed (fun o ↦ { all with basePort := o, rpcBasePort := none })
    rfl decodes_port rfl rfl h fun h ↦ ?_
  refine gathers_listed (fun o ↦ { all with rpcBasePort := o })
    rfl decodes_port rfl rfl h fun h ↦ ?_
  cases h
  exact .nil _

theorem Lists.ofText {c : HarnessConfig} {listed : String → Bool} {text : String}
    (h : c.Lists listed text) : ofText text = .ok (c.only listed) := by
  obtain ⟨top, known, unknown, htext, hperm, hknown, hunknown⟩ := h
  have hyields : record.Yields known (c.only listed) :=
    ⟨_, gathers_members hknown, build_gathered c listed⟩
  exact ((hyields.append_foreign hunknown).perm record_lawful hperm.symm).decodes.ofText htext

/-- Each text of a configuration lists all of its fields. -/
theorem lists_all {c : HarnessConfig} {text : String} (h : Tells text.toList c.toJson) :
    c.Lists (fun _ ↦ true) text := by
  obtain ⟨spelled, hspells, hcuts⟩ := h
  obtain ⟨texts, htexts, rfl⟩ := spells_object_iff.mp hspells
  refine ⟨texts, texts, [], hcuts.tokensOf, ?_, htexts, fun _ hnone ↦ absurd hnone List.not_mem_nil⟩
  rw [List.append_nil]

theorem only_all (c : HarnessConfig) : c.only (fun _ ↦ true) = c := rfl

theorem ofFile_of_ofText {σ : Type} {machine : Machine σ} {path : Path} {s s' s'' : σ}
    {text : String} {c : HarnessConfig} (hthere : Gives (machine.exists_ path) s true s')
    (hread : Gives (machine.readText path) s' text s'') (h : ofText text = .ok c) :
    Gives (ofFile machine path) s c s'' := by
  refine (Machine.isThere_gives hthere).bind ?_
  rw [if_pos rfl]
  refine (hread.adapt _).bind ?_
  rw [ofFileText, h]
  rfl

/-- A file that lists some fields gives the configuration on these and the default on all others. So
either text of a configuration gives back all of it. -/
theorem ofFile_of_lists (c : HarnessConfig) {σ : Type} {machine : Machine σ} {path : Path}
    {s s' s'' : σ} {text : String} (hthere : Gives (machine.exists_ path) s true s')
    (hread : Gives (machine.readText path) s' text s'') :
    (∀ listed, c.Lists listed text → Gives (ofFile machine path) s (c.only listed) s'') ∧
      (text = c.toJson.compact ∨ text = c.toJson.pretty →
        Gives (ofFile machine path) s c s'') := by
  refine ⟨fun listed h ↦ ofFile_of_ofText hthere hread h.ofText, fun h ↦ ?_⟩
  have htells : Tells text.toList c.toJson := by
    rcases h with rfl | rfl
    · exact tells_compact c.toJson
    · exact tells_prettyAt 0 c.toJson
  have hgives := ofFile_of_ofText hthere hread (lists_all htells).ofText
  rwa [only_all] at hgives

/-- A file with two fields and a member of another name, and one with all fields. -/
theorem ofFile_of_lists_sample :
    let c : HarnessConfig := {
      workDir := ⟨"a\"\\b"⟩, host := .v6 ⟨#v[0x2001, 0xdb8, 0, 0, 0, 0, 0, 1]⟩, basePort := 65535 }
    let part := "\x7b\"zone\":[null],\"base_port\":65535,\"host\":\"2001:db8::1\"\x7d"
    let bench : Bench := { store := {
      root := .directory [("all", .file c.toJson.pretty.toUTF8 false),
        ("part", .file part.toUTF8 false)]
      here := [] } }
    Gives (ofFile Bench.machine ⟨"part"⟩) bench { host := c.host, basePort := c.basePort } bench ∧
      Gives (ofFile Bench.machine ⟨"all"⟩) bench c bench := by
  intro c part bench
  have hopens {path : Path} {text : String} (hthere : bench.store.isThere path = .ok true)
      (hread : bench.store.readText path = .ok text) :
      Gives (Bench.machine.exists_ path) bench true bench ∧
        Gives (Bench.machine.readText path) bench text bench :=
    ⟨Bench.look_gives (f := (·.isThere path)) hthere,
      Bench.look_gives (f := (·.readText path)) hread⟩
  have hreadPart : bench.store.readText ⟨"part"⟩ = .ok part := by decide +kernel +zetaReduce
  have hreadAll : bench.store.readText ⟨"all"⟩ = .ok c.toJson.pretty := by
    decide +kernel +zetaReduce
  obtain ⟨hthere, hread⟩ := hopens (by decide +kernel +zetaReduce) hreadPart
  have hpart := (ofFile_of_lists c hthere hread).1
  obtain ⟨hthere, hread⟩ := hopens (by decide +kernel +zetaReduce) hreadAll
  have hall := (ofFile_of_lists c hthere hread).2 (.inr rfl)
  let zone := MemberText.plain "zone" (arrayTokens [[.null]])
  let port := MemberText.plain "base_port" [.number ⟨false, [6, 5, 5, 3, 5], none, none⟩]
  let host := MemberText.plain "host" [.string ("2001:db8::1".toList.map .char)]
  have hport : Spells (.ofPort c.basePort) port.value :=
    .number (n := .integer ⟨65535, by decide⟩) (by decide +kernel)
  have hhost : Spells (.string c.host.text) host.value :=
    .string (by decide +kernel +zetaReduce)
  have hlists : c.Lists (fun name ↦ name == "host" || name == "base_port") part := by
    refine ⟨[zone, port, host], [host, port], [zone], by decide +kernel +zetaReduce, ?_, ?_, ?_⟩
    · exact (List.reverse_perm [zone, port, host]).symm
    · exact .cons ⟨MemberText.named_plain _ _, hhost⟩
        (.cons ⟨MemberText.named_plain _ _, hport⟩ .nil)
    · refine List.forall_mem_singleton.mpr ⟨⟨"zone", MemberText.named_plain _ _, ?_⟩, ?_⟩
      · decide +kernel
      · exact .array (List.forall_mem_singleton.mpr .null)
  exact ⟨hpart _ hlists, hall⟩

end HarnessConfig

end BlockWatch
