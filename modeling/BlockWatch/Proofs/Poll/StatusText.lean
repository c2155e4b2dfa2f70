import BlockWatch.Poll.Status
import BlockWatch.Proofs.Json.Gathered

/-!
# Members of a status

The text of a status may hold members that are none of its fields, with any values, and all its
members may stand in any order: what is decoded depends on the fields alone. So a poll reports the
height that the text holds, and any answer without one is a failure of the transport.
-/

namespace BlockWatch

open Json Json.Decoder Json.Decoder.Record

namespace Status

/-! ## Records -/

theorem syncRecord_lawful : syncRecord.Lawful where
  stops field hfield gathered := by
    simp only [syncRecord, List.mem_cons, List.not_mem_nil, or_false] at hfield
    rcases hfield with rfl | rfl | rfl
    · exact stopsAtValues_field single_word.stopsAtValues
    · exact stopsAtValues_field (single_string _).optional.stopsAtValues
    · exact stopsAtValues_field single_boolean.stopsAtValues
  once field hfield := by
    simp only [syncRecord, List.mem_cons, List.not_mem_nil, or_false] at hfield
    rcases hfield with rfl | rfl | rfl <;> exact once_field fun _ _ ↦ rfl
  apart := by
    simp only [syncRecord, List.pairwise_cons, List.forall_mem_cons, List.not_mem_nil,
      false_implies, implies_true, List.Pairwise.nil, and_true]
    refine ⟨⟨?_, ?_⟩, ?_⟩
    all_goals
      exact apart_field (fun _ _ ↦ rfl) (fun _ _ ↦ rfl) (fun _ _ ↦ rfl) (fun _ _ ↦ rfl)
        fun _ _ _ ↦ rfl

theorem record_lawful : record.Lawful where
  stops field hfield gathered := by
    obtain rfl := List.mem_singleton.mp hfield
    exact stopsAtValues_field (stopsAtValues_decoder syncRecord_lawful)
  once field hfield := by
    obtain rfl := List.mem_singleton.mp hfield
    exact once_field fun _ _ ↦ rfl
  apart := List.pairwise_singleton _ _

/-! ## Members -/

/-- The text is an object. Its members are, in some order, the others and one for the progress of
the node, which is an object itself. -/
def Holds (text : String) (sync others : List MemberText) : Prop :=
  ∃ top info, tokens text = objectTokens top ∧ top.Perm (info :: others) ∧
    info.Named "sync_info" ∧ info.value = objectTokens sync ∧
    (∀ member ∈ others, IsValue member.value) ∧ ∀ member ∈ sync, IsValue member.value

theorem field?_sync_info : record.fields.find? (·.name == "sync_info") =
    some (field "sync_info" id (fun _ x ↦ some x) syncRecord.decoder) :=
  rfl

/-- Once the progress is known, all that follows is skipped. -/
theorem gathers_some {status : Status} {others : List MemberText} {next : Option Status}
    (h : record.Gathers (some status) others next) :
    next = some status ∧ ∀ member ∈ others, record.Foreign member := by
  induction others with
  | nil =>
    cases h
    exact ⟨rfl, fun _ h ↦ absurd h List.not_mem_nil⟩
  | cons member others ih =>
    obtain _ | ⟨hfirst, hmore⟩ := h
    cases hfirst with
    | skipped hnamed hfield hvalue =>
      obtain ⟨hnext, hforeign⟩ := ih hmore
      refine ⟨hnext, List.forall_mem_cons.mpr
        ⟨⟨⟨_, hnamed, fun field hmem heq ↦ ?_⟩, hvalue⟩, hforeign⟩⟩
      exact List.find?_eq_none.mp hfield field hmem (beq_iff_eq.mpr heq)
    | read _ hfield hunset =>
      obtain rfl := List.mem_singleton.mp (List.mem_of_find?_eq_some hfield)
      cases hunset

theorem ofText_eq_ok_iff {text : String} {sync others : List MemberText}
    (h : Holds text sync others) {status : Status} : ofText text = .ok status ↔
      syncRecord.Yields sync status ∧ ∀ member ∈ others, record.Foreign member := by
  obtain ⟨top, info, htext, hperm, hnamed, hvalue, hothers, hsync⟩ := h
  have hinfo : IsValue info.value := hvalue ▸ .object hsync
  have htop : ∀ member ∈ top, IsValue member.value := by
    intro member hmember
    rcases List.mem_cons.mp (hperm.mem_iff.mp hmember) with rfl | hmember
    · exact hinfo
    · exact hothers member hmember
  constructor
  · intro hread
    have hstops := stopsAtValues_decoder record_lawful (.object htop)
    have hdecodes := hstops.decodes_of_ofText htext hread
    obtain ⟨-, hyields⟩ := yields_of_decoder record_lawful htop (hdecodes [])
    obtain ⟨next, _ | ⟨hfirst, hmore⟩, hbuild⟩ := hyields.perm record_lawful hperm
    cases hfirst with
    | skipped hnamed' hfield =>
      obtain rfl := hnamed.inj hnamed'
      rw [field?_sync_info] at hfield
      cases hfield
    | read hnamed' hfield hunset hread =>
      obtain rfl := hnamed.inj hnamed'
      obtain rfl := Option.some.inj (field?_sync_info.symm.trans hfield)
      obtain ⟨found, hfound, rfl⟩ := (field_decodes_iff (by intros; rfl)).mp hread
      obtain ⟨rfl, hforeign⟩ := gathers_some hmore
      cases hbuild
      rw [hvalue] at hfound
      exact ⟨(yields_of_decoder syncRecord_lawful hsync (hfound [])).2, hforeign⟩
  · rintro ⟨hyields, hforeign⟩
    have htakes : record.Takes none info (some status) :=
      .read hnamed field?_sync_info rfl (decodes_field (hvalue ▸ hyields.decodes))
    have hall : record.Yields (info :: others) status :=
      ⟨some status, .cons htakes (gathers_of_foreign hforeign _), rfl⟩
    exact (hall.perm record_lawful hperm.symm).decodes.ofText htext

theorem ofText_of_foreign {text text' : String} {sync others sync' others' : List MemberText}
    {status : Status} (hread : ofText text = .ok status) (h : Holds text sync others)
    (h' : Holds text' sync' others') {extra more : List MemberText}
    (hsync : sync'.Perm (sync ++ extra)) (hothers : others'.Perm (others ++ more))
    (hextra : ∀ member ∈ extra, syncRecord.Foreign member)
    (hmore : ∀ member ∈ more, record.Foreign member) : ofText text' = .ok status := by
  obtain ⟨hyields, hforeign⟩ := (ofText_eq_ok_iff h).mp hread
  refine (ofText_eq_ok_iff h').mpr ⟨?_, fun member hmember ↦ ?_⟩
  · exact (hyields.append_foreign hextra).perm syncRecord_lawful hsync.symm
  · rcases List.mem_append.mp (hothers.mem_iff.mp hmember) with hmember | hmember
    · exact hforeign member hmember
    · exact hmore member hmember

/-! ## Heights -/

theorem field?_height : syncRecord.fields.find? (·.name == "latest_block_height") =
    some (field "latest_block_height" (·.height) (fun p x ↦ { p with height := some x }) word) :=
  rfl

theorem yields_height {height : UInt64} {text : MemberText}
    (h : text.Spells ("latest_block_height", .ofWord height)) :
    syncRecord.Yields [text] { height } :=
  ⟨_, .cons (.read h.1 field?_height rfl (decodes_field (decodes_word h.2))) (.nil _), rfl⟩

theorem height_of_yields {height : UInt64} {text : MemberText}
    (h : text.Spells ("latest_block_height", .ofWord height)) {sync : List MemberText}
    (hmem : text ∈ sync) {status : Status} (hyields : syncRecord.Yields sync status) :
    status.height = height := by
  obtain ⟨before, after, rfl⟩ := List.append_of_mem hmem
  have hlast : (before ++ text :: after).Perm (before ++ after ++ [text]) :=
    List.perm_middle.trans (List.perm_append_singleton text (before ++ after)).symm
  obtain ⟨next, hgathers, hbuild⟩ := hyields.perm syncRecord_lawful hlast
  obtain ⟨middle, -, _ | ⟨htakes, _ | _⟩⟩ := gathers_append_iff.mp hgathers
  cases htakes with
  | skipped hnamed hfield =>
    obtain rfl := h.1.inj hnamed
    rw [field?_height] at hfield
    cases hfield
  | read hnamed hfield hunset hread =>
    obtain rfl := h.1.inj hnamed
    obtain rfl := Option.some.inj (field?_height.symm.trans hfield)
    obtain ⟨found, hfound, rfl⟩ := (field_decodes_iff (by intros; rfl)).mp hread
    cases hbuild
    exact Decodes.unique hfound (decodes_word h.2)

end Status

namespace Exchange

variable (name url : String) (milliseconds : ℕ)

theorem report_of_ofText {code : ℕ} (hcode : 200 ≤ code ∧ code ≤ 299) {text : String}
    {status : Status} (h : Status.ofText text = .ok status) :
    (answered code (some text)).report name url milliseconds = .ok status.height := by
  have hsuccess : isSuccess code = true := decide_eq_true hcode
  rw [report, Exchange.status, if_pos hsuccess, Option.map_some, h]
  rfl

theorem report_of_refused {code : ℕ} {body : Option String}
    (h : ¬(200 ≤ code ∧ code ≤ 299) ∨
      ∀ text ∈ body, ∀ status, Status.ofText text ≠ .ok status) :
    ∃ reason, (answered code body).report name url milliseconds =
      .error (.transport name reason) := by
  by_cases hcode : 200 ≤ code ∧ code ≤ 299
  · have hsuccess : isSuccess code = true := decide_eq_true hcode
    have hbody := h.resolve_left (not_not_intro hcode)
    refine ⟨"error decoding response body", ?_⟩
    rw [report, Exchange.status, if_pos hsuccess]
    cases body with
    | none => rfl
    | some text =>
      have hread := hbody text rfl
      rw [Option.map_some]
      cases hresult : Status.ofText text with
      | ok status => exact absurd hresult (hread status)
      | error stop => rfl
  · have hfailure : ¬isSuccess code = true := fun hsuccess ↦ hcode (of_decide_eq_true hsuccess)
    refine ⟨"HTTP " ++ toString code ++ " " ++ reasonOf code, ?_⟩
    rw [report, Exchange.status, if_neg hfailure]
    rfl

/-- Members that are none of the fields change nothing about a status, wherever they stand. So an
answer reports the height that its text holds among such members, and an answer that refuses or
holds no status is a failure of the transport. -/
theorem report_ignores_foreign_members :
    (∀ {text padded : String} {status : Status} {sync others sync' others' extra more},
      Status.ofText text = .ok status → Status.Holds text sync others →
      Status.Holds padded sync' others' →
      sync'.Perm (sync ++ extra) → (∀ member ∈ extra, Status.syncRecord.Foreign member) →
      others'.Perm (others ++ more) → (∀ member ∈ more, Status.record.Foreign member) →
      Status.ofText padded = .ok status) ∧
    (∀ {code : ℕ} {text : String} {height : UInt64} {member sync others extra},
      200 ≤ code ∧ code ≤ 299 → Status.Holds text sync others →
      member.Spells ("latest_block_height", .ofWord height) → sync.Perm (member :: extra) →
      (∀ member ∈ extra, Status.syncRecord.Foreign member) →
      (∀ member ∈ others, Status.record.Foreign member) →
      (answered code (some text)).report name url milliseconds = .ok height) ∧
    (∀ {code : ℕ} {text : String} {height : UInt64} {status : Status} {member sync others},
      200 ≤ code ∧ code ≤ 299 → Status.Holds text sync others →
      member.Spells ("latest_block_height", .ofWord height) → member ∈ sync →
      Status.ofText text = .ok status →
      (answered code (some text)).report name url milliseconds = .ok height) ∧
    ∀ {code : ℕ} {body : Option String},
      (¬(200 ≤ code ∧ code ≤ 299) ∨
        ∀ text ∈ body, ∀ status, Status.ofText text ≠ .ok status) →
      ∃ reason, (answered code body).report name url milliseconds =
        .error (.transport name reason) := by
  refine ⟨fun hread h h' hsync hextra hothers hmore ↦
    Status.ofText_of_foreign hread h h' hsync hothers hextra hmore, ?_, ?_,
    report_of_refused name url milliseconds⟩
  · intro code text height member sync others extra hcode hholds hspells hsync hextra hothers
    have hyields := ((Status.yields_height hspells).append_foreign hextra).perm
      Status.syncRecord_lawful hsync.symm
    exact report_of_ofText name url milliseconds hcode
      ((Status.ofText_eq_ok_iff hholds).mpr ⟨hyields, hothers⟩)
  · intro code text height status member sync others hcode hholds hspells hmem hread
    have hyields := ((Status.ofText_eq_ok_iff hholds).mp hread).1
    rw [report_of_ofText name url milliseconds hcode hread,
      Status.height_of_yields hspells hmem hyields]

/-- A height of seven, alone and beside a version and a member that is null. -/
theorem report_beside_version :
    let alone := "\x7b\"sync_info\":\x7b\"latest_block_height\":7\x7d\x7d"
    let padded :=
      "\x7b\"version\":[],\"sync_info\":\x7b\"a\":null,\"latest_block_height\":7\x7d\x7d"
    Status.ofText padded = .ok { height := 7 } ∧
    (answered 200 (some alone)).report "n" "u" 1 = .ok 7 ∧
    (answered 200 (some padded)).report "n" "u" 1 = .ok 7 ∧
    ∃ reason, (answered 500 none).report "n" "u" 1 = .error (.transport "n" reason) := by
  intro alone padded
  let height := MemberText.plain "latest_block_height" [.number ⟨false, [7], none, none⟩]
  let absent := MemberText.plain "a" [.null]
  let version := MemberText.plain "version" (arrayTokens [])
  have hspells : height.Spells ("latest_block_height", .ofWord 7) :=
    ⟨MemberText.named_plain _ _, .number (n := .integer (.ofWord 7)) (by decide +kernel)⟩
  have hheight : IsValue height.value := .number _
  have hversion : IsValue version.value := .array (by simp)
  have halone : Status.Holds alone [height] [] :=
    ⟨[.plain "sync_info" (objectTokens [height])], .plain "sync_info" (objectTokens [height]),
      by decide +kernel, .refl _, MemberText.named_plain _ _, rfl, by simp, by simpa using hheight⟩
  have hpadded : Status.Holds padded [absent, height] [version] :=
    ⟨[version, .plain "sync_info" (objectTokens [absent, height])],
      .plain "sync_info" (objectTokens [absent, height]), by decide +kernel, .swap _ _ _,
      MemberText.named_plain _ _, rfl, by simpa using hversion,
      List.forall_mem_cons.mpr ⟨.null, by simpa using hheight⟩⟩
  have habsentForeign : Status.syncRecord.Foreign absent :=
    ⟨⟨"a", MemberText.named_plain _ _, by decide +kernel⟩, .null⟩
  have hversionForeign : Status.record.Foreign version :=
    ⟨⟨"version", MemberText.named_plain _ _, by decide +kernel⟩, hversion⟩
  have hread : Status.ofText alone = .ok { height := 7 } :=
    (Status.ofText_eq_ok_iff halone).mpr ⟨Status.yields_height hspells, by simp⟩
  obtain ⟨hsame, hamong, hdecoded, hrefused⟩ := report_ignores_foreign_members "n" "u" 1
  have hread' : Status.ofText padded = .ok { height := 7 } :=
    hsame hread halone hpadded (.swap _ _ _) (List.forall_mem_singleton.mpr habsentForeign)
      (.refl _) (List.forall_mem_singleton.mpr hversionForeign)
  exact ⟨hread', hamong (by decide) halone hspells (.refl _) (by simp) (by simp),
    hdecoded (by decide) hpadded hspells (by simp) hread', hrefused (.inl (by decide))⟩

end Exchange

end BlockWatch
