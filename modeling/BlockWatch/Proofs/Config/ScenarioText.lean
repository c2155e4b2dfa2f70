import BlockWatch.Proofs.Json.Gathered
import BlockWatch.Proofs.Json.Reread
import BlockWatch.Proofs.Time.SpanText

/-!
# Scenario configurations from their text

A configuration comes back from either of its texts, but for the last digit of its rate: a span is
read from its units exactly, and a word from its digits.
-/

namespace BlockWatch

open Json Json.Decoder

theorem Json.Decoder.decodes_span {d : Span} {spelled : List Token}
    (h : Spells (.string d.itemized) spelled) : span.Decodes spelled d := by
  refine (decodes_string "a string" h).refine ?_
  rw [Span.read_itemized]
  rfl

namespace Topology

theorem decodes_toJson {t : Topology} {spelled : List Token} (h : Spells t.toJson spelled) :
    record.decoder.Decodes spelled t := by
  obtain ⟨texts, htexts, rfl⟩ := spells_object_iff.mp h
  obtain _ | ⟨hvalidators, _ | ⟨hobservers, _ | ⟨hshards, _ | _⟩⟩⟩ := htexts
  refine Record.Yields.decodes
    ⟨{ validators := t.validators, observers := t.observers, shards := t.shards }, ?_, rfl⟩
  refine .field rfl hvalidators.1 (decodes_ofWord "usize" hvalidators.2) rfl ?_
  refine .field rfl hobservers.1 (decodes_ofWord "usize" hobservers.2) rfl ?_
  exact .field rfl hshards.1 (decodes_ofWord "usize" hshards.2) rfl (.nil _)

end Topology

namespace ScenarioConfig

theorem reread_toJson (c : ScenarioConfig) : c.toJson.reread = .object [
    ("topology", c.topology.toJson),
    ("small_height", .ofWord c.smallHeight),
    ("large_height", .ofWord c.largeHeight),
    ("poll_interval", .string c.pollInterval.itemized),
    ("window", .string c.window.itemized),
    ("status_timeout", .string c.statusTimeout.itemized),
    ("deadline", .string c.deadline.itemized),
    ("rate_floor", rereadFloat c.rateFloor),
    ("generated_accounts", .ofWord c.generatedAccounts)] :=
  rfl

theorem decodes_reread {c : ScenarioConfig} {n : Number}
    (hfloor : rereadFloat c.rateFloor = n.toValue) {spelled : List Token}
    (h : Spells c.toJson.reread spelled) :
    record.decoder.Decodes spelled { c with rateFloor := n.toFloat } := by
  rw [reread_toJson, hfloor] at h
  obtain ⟨texts, htexts, rfl⟩ := spells_object_iff.mp h
  obtain _ | ⟨htopology, _ | ⟨hsmall, _ | ⟨hlarge, _ | ⟨hpoll, _ | ⟨hwindow, _ | ⟨hstatus,
    _ | ⟨hdeadline, _ | ⟨hrate, _ | ⟨haccounts, _ | _⟩⟩⟩⟩⟩⟩⟩⟩⟩ := htexts
  let gathered : Partial := {
    topology := c.topology
    smallHeight := c.smallHeight
    largeHeight := c.largeHeight
    pollInterval := c.pollInterval
    window := c.window
    statusTimeout := c.statusTimeout
    deadline := c.deadline
    rateFloor := n.toFloat
    generatedAccounts := c.generatedAccounts }
  refine Record.Yields.decodes ⟨gathered, ?_, rfl⟩
  refine .field rfl htopology.1 (Topology.decodes_toJson htopology.2) rfl ?_
  refine .field rfl hsmall.1 (decodes_word hsmall.2) rfl ?_
  refine .field rfl hlarge.1 (decodes_word hlarge.2) rfl ?_
  refine .field rfl hpoll.1 (decodes_span hpoll.2) rfl ?_
  refine .field rfl hwindow.1 (decodes_span hwindow.2) rfl ?_
  refine .field rfl hstatus.1 (decodes_span hstatus.2) rfl ?_
  refine .field rfl hdeadline.1 (decodes_span hdeadline.2) rfl ?_
  refine .field rfl hrate.1 (decodes_float hrate.2) rfl ?_
  exact .field rfl haccounts.1 (decodes_word haccounts.2) rfl (.nil _)

/-- Either text of a configuration decodes to the configuration, with some finite rate. -/
theorem ofText_toJson {c : ScenarioConfig} (h : c.rateFloor.isFinite = true) :
    ∃ floor : Binary64, floor.isFinite = true ∧
      ofText c.toJson.compact = .ok { c with rateFloor := floor } ∧
      ofText c.toJson.pretty = .ok { c with rateFloor := floor } := by
  obtain ⟨n, hn⟩ := exists_rereadFloat h
  have hread {text : String} (htells : Tells text.toList c.toJson.reread) :
      ofText text = .ok { c with rateFloor := n.toFloat } := by
    obtain ⟨spelled, hspells, hcuts⟩ := htells
    exact (decodes_reread hn hspells).ofText hcuts.tokensOf
  have htext := tells_float c.rateFloor
  rw [hn] at htext
  obtain ⟨spelled, hspells, -⟩ := htext
  exact ⟨n.toFloat, isFinite_toFloat hspells, hread (tells_compact c.toJson),
    hread (tells_prettyAt 0 c.toJson)⟩

/-- The default with the largest height and the longest window. -/
theorem ofText_toJson_largest :
    let c : ScenarioConfig :=
      { largeHeight := UInt64.ofNat (UInt64.size - 1), window := ⟨Span.limit - 1, by decide⟩ }
    c.rateFloor.isFinite = true ∧ ∃ floor : Binary64, floor.isFinite = true ∧
      ofText c.toJson.compact = .ok { c with rateFloor := floor } ∧
      ofText c.toJson.pretty = .ok { c with rateFloor := floor } := by
  intro c
  have hfinite : c.rateFloor.isFinite = true := by decide +kernel +zetaReduce
  exact ⟨hfinite, ofText_toJson hfinite⟩

end ScenarioConfig

end BlockWatch
