import BlockWatch.Proofs.Json.Single
import Mathlib.Data.List.Pairwise

/-!
# Records from their members

An object is decoded member by member: a field takes the value of its key unless it is set, and the
value of any other key is skipped. `Record.Gathers` says what comes of a list of members. If
the fields of a record do not touch each other, their order in the object makes no difference.
-/

namespace BlockWatch.Json.Decoder

variable {π α β : Type} {decoder : Decoder α} {spelled : List Token} {value : α}

/-! ## Fields -/

namespace Field

/-- A field is set once it was read. -/
def Once (field : Field π) : Prop :=
  ∀ ⦃gathered next spelled⦄, Decodes (field.read gathered) spelled next → field.isSet next = true

/-- What is read by one field and then by another may be read the other way round. -/
def Swaps (first second : Field π) : Prop :=
  ∀ ⦃gathered middle next before after⦄, Decodes (first.read gathered) before middle →
    Decodes (second.read middle) after next →
    second.isSet gathered = second.isSet middle ∧ ∃ other,
      Decodes (second.read gathered) after other ∧ first.isSet other = first.isSet gathered ∧
      Decodes (first.read other) before next

/-- The fields do not touch each other. -/
def Apart (first second : Field π) : Prop := first.Swaps second ∧ second.Swaps first

instance : Std.Symm (Apart (π := π)) := ⟨fun _ _ h ↦ ⟨h.2, h.1⟩⟩

end Field

section Kept

variable {name other : String} {get : π → Option α} {set : π → α → π} {inner : Decoder α}
  {get' : π → Option β} {set' : π → β → π} {inner' : Decoder β} {optional optional' : Bool}
  {gathered next : π}

theorem decodes_field (h : inner.Decodes spelled value) :
    Decodes ((field name get set inner optional).read gathered) spelled (set gathered value) := by
  intro rest
  have hread : (field name get set inner optional).read gathered (spelled ++ rest) =
      (inner (spelled ++ rest)).bind fun read ↦ .ok (set gathered read.1, read.2) := rfl
  rw [hread, h rest]
  rfl

theorem field_decodes_iff (hget : ∀ p x, get (set p x) = some x) :
    Decodes ((field name get set inner optional).read gathered) spelled next ↔
      ∃ value, inner.Decodes spelled value ∧ next = set gathered value := by
  constructor
  · intro h
    have hread (rest : List Token) : ∃ value, inner (spelled ++ rest) = .ok (value, rest) ∧
        next = set gathered value := by
      obtain ⟨⟨value, left⟩, hvalue, hpure⟩ := bind_eq_ok (h rest)
      cases hpure
      exact ⟨value, hvalue, rfl⟩
    obtain ⟨value, -, hnext⟩ := hread []
    refine ⟨value, fun rest ↦ ?_, hnext⟩
    obtain ⟨other, hother, hsame⟩ := hread rest
    -- The field keeps what was read, so it was the same whatever followed.
    have hvalues : some value = some other := by rw [← hget gathered, ← hnext, hsame, hget]
    rwa [← Option.some.inj hvalues] at hother
  · rintro ⟨value, hvalue, rfl⟩
    exact decodes_field hvalue

theorem stopsAtValues_field (h : inner.StopsAtValues) :
    StopsAtValues ((field name get set inner optional).read gathered) := by
  intro spelled hspelled rest next left hread
  obtain ⟨⟨value, left⟩, hvalue, hpure⟩ := bind_eq_ok hread
  obtain ⟨rfl, hdecodes⟩ := h hspelled hvalue
  cases hpure
  exact ⟨rfl, decodes_field hdecodes⟩

theorem once_field (hget : ∀ p x, get (set p x) = some x) :
    (field name get set inner optional).Once := by
  intro gathered next spelled h
  obtain ⟨value, -, rfl⟩ := (field_decodes_iff hget).mp h
  exact congrArg Option.isSome (hget gathered value)

theorem swaps_field (hget : ∀ p x, get (set p x) = some x)
    (hget' : ∀ p x, get' (set' p x) = some x) (hkeep : ∀ p x, get (set' p x) = get p)
    (hkeep' : ∀ p x, get' (set p x) = get' p)
    (hset : ∀ p x y, set' (set p x) y = set (set' p y) x) :
    (field name get set inner optional).Swaps (field other get' set' inner' optional') := by
  intro gathered middle next before after hbefore hafter
  obtain ⟨value, hvalue, rfl⟩ := (field_decodes_iff hget).mp hbefore
  obtain ⟨value', hvalue', rfl⟩ := (field_decodes_iff hget').mp hafter
  refine ⟨congrArg Option.isSome (hkeep' gathered value).symm, set' gathered value',
    decodes_field hvalue', congrArg Option.isSome (hkeep gathered value'), ?_⟩
  rw [hset]
  exact decodes_field hvalue

theorem apart_field (hget : ∀ p x, get (set p x) = some x)
    (hget' : ∀ p x, get' (set' p x) = some x) (hkeep : ∀ p x, get (set' p x) = get p)
    (hkeep' : ∀ p x, get' (set p x) = get' p)
    (hset : ∀ p x y, set' (set p x) y = set (set' p y) x) :
    (field name get set inner optional).Apart (field other get' set' inner' optional') :=
  ⟨swaps_field hget hget' hkeep hkeep' hset,
    swaps_field hget' hget hkeep' hkeep fun p x y ↦ (hset p y x).symm⟩

end Kept

/-! ## Members -/

namespace Record

variable {record : Record π α} {gathered middle next : π} {text : MemberText}
  {texts : List MemberText}

/-- What is gathered after one more member. -/
inductive Takes (record : Record π α) (gathered : π) (text : MemberText) : π → Prop
  | skipped {name : String} (hnamed : text.Named name)
    (hfield : record.fields.find? (·.name == name) = none) (hvalue : IsValue text.value) :
    Takes record gathered text gathered
  | read {name : String} (hnamed : text.Named name) {field : Field π} {next : π}
    (hfield : record.fields.find? (·.name == name) = some field)
    (hunset : field.isSet gathered = false)
    (hvalue : Decodes (field.read gathered) text.value next) : Takes record gathered text next

/-- What is gathered after a list of members. -/
inductive Gathers (record : Record π α) : π → List MemberText → π → Prop
  | nil (gathered : π) : Gathers record gathered [] gathered
  | cons {gathered middle next : π} {text : MemberText} {texts : List MemberText}
    (hfirst : record.Takes gathered text middle) (hmore : Gathers record middle texts next) :
    Gathers record gathered (text :: texts) next

/-- A member that is none of the fields. -/
structure Foreign (record : Record π α) (text : MemberText) : Prop where
  named : ∃ name, text.Named name ∧ ∀ field ∈ record.fields, field.name ≠ name
  isValue : IsValue text.value

/-- The fields of the record keep what they read, do not touch each other, and read no further than
to the end of a value. -/
structure Lawful (record : Record π α) : Prop where
  stops : ∀ field ∈ record.fields, ∀ gathered, (field.read gathered).StopsAtValues
  once : ∀ field ∈ record.fields, field.Once
  apart : record.fields.Pairwise Field.Apart

theorem Foreign.takes (h : record.Foreign text) (gathered : π) :
    record.Takes gathered text gathered := by
  obtain ⟨name, hnamed, hfields⟩ := h.named
  refine .skipped hnamed (List.find?_eq_none.mpr fun field hfield ↦ ?_) h.isValue
  rw [beq_iff_eq]
  exact hfields field hfield

theorem gathers_of_foreign (h : ∀ text ∈ texts, record.Foreign text) (gathered : π) :
    record.Gathers gathered texts gathered := by
  induction texts with
  | nil => exact .nil gathered
  | cons text more ih =>
    obtain ⟨hfirst, hmore⟩ := List.forall_mem_cons.mp h
    exact .cons (hfirst.takes gathered) (ih hmore)

/-- A field that is not set takes its value. -/
theorem Gathers.field {name : String} {get : π → Option β} {set : π → β → π} {inner : Decoder β}
    {optional : Bool} {read : β}
    (hfield : record.fields.find? (·.name == name) = some (field name get set inner optional))
    (hnamed : text.Named name) (hvalue : inner.Decodes text.value read)
    (hunset : (get gathered).isSome = false)
    (hmore : record.Gathers (set gathered read) texts next) :
    record.Gathers gathered (text :: texts) next :=
  .cons (.read hnamed hfield hunset (decodes_field hvalue)) hmore

theorem gathers_append_iff {more : List MemberText} :
    record.Gathers gathered (texts ++ more) next ↔
      ∃ middle, record.Gathers gathered texts middle ∧ record.Gathers middle more next := by
  induction texts generalizing gathered with
  | nil =>
    refine ⟨fun h ↦ ⟨gathered, .nil gathered, h⟩, fun ⟨middle, hnil, h⟩ ↦ ?_⟩
    cases hnil
    exact h
  | cons text texts ih =>
    constructor
    · rintro (_ | ⟨hfirst, hmore⟩)
      obtain ⟨middle, htexts, hrest⟩ := ih.mp hmore
      exact ⟨middle, .cons hfirst htexts, hrest⟩
    · rintro ⟨middle, _ | ⟨hfirst, htexts⟩, hrest⟩
      exact .cons hfirst (ih.mpr ⟨middle, htexts, hrest⟩)

/-- Two members may change places. -/
theorem Takes.swap (hlawful : record.Lawful) {first second : MemberText}
    (hfirst : record.Takes gathered first middle) (hsecond : record.Takes middle second next) :
    ∃ other, record.Takes gathered second other ∧ record.Takes other first next := by
  cases hfirst with
  | skipped hnamed hfield hvalue => exact ⟨next, hsecond, .skipped hnamed hfield hvalue⟩
  | @read name hnamed field _ hfield hunset hvalue =>
    cases hsecond with
    | skipped hnamed' hfield' hvalue' =>
      exact ⟨gathered, .skipped hnamed' hfield' hvalue', .read hnamed hfield hunset hvalue⟩
    | @read name' hnamed' field' _ hfield' hunset' hvalue' =>
      have hmem := List.mem_of_find?_eq_some hfield
      have hmem' := List.mem_of_find?_eq_some hfield'
      have hne : field ≠ field' := by
        rintro rfl
        rw [hlawful.once field hmem hvalue] at hunset'
        cases hunset'
      have happart : field.Apart field' :=
        hlawful.apart.forall hmem hmem' hne
      obtain ⟨hset, other, hother, hset', hnext⟩ := happart.1 hvalue hvalue'
      exact ⟨other, .read hnamed' hfield' (hset.trans hunset') hother,
        .read hnamed hfield (hset'.trans hunset) hnext⟩

/-- The order of the members makes no difference. -/
theorem Gathers.perm (hlawful : record.Lawful) (h : record.Gathers gathered texts next)
    {others : List MemberText} (hperm : texts.Perm others) :
    record.Gathers gathered others next := by
  induction hperm generalizing gathered with
  | nil => exact h
  | cons text _ ih =>
    obtain _ | ⟨hfirst, hmore⟩ := h
    exact .cons hfirst (ih hmore)
  | swap first second texts =>
    obtain _ | ⟨hfirst, _ | ⟨hsecond, hmore⟩⟩ := h
    obtain ⟨other, hother, hnext⟩ := hfirst.swap hlawful hsecond
    exact .cons hother (.cons hnext hmore)
  | trans _ _ ih ih' => exact ih' (ih h)

/-! ## Objects -/

theorem Takes.named (h : record.Takes gathered text next) : ∃ name, text.Named name := by
  cases h with
  | skipped hnamed => exact ⟨_, hnamed⟩
  | read hnamed => exact ⟨_, hnamed⟩

theorem Takes.decodes (h : record.Takes gathered text next) {name : String}
    (hnamed : text.Named name) :
    Decodes (record.member gathered name) (.colon :: text.value) next := by
  intro rest
  cases h with
  | skipped hnamed' hfield hvalue =>
    obtain rfl := hnamed.inj hnamed'
    rw [List.cons_append, member]
    simp only [hfield]
    rw [pure_bind, skip_value hvalue]
    rfl
  | read hnamed' hfield hunset hvalue =>
    obtain rfl := hnamed.inj hnamed'
    rw [List.cons_append, member]
    simp only [hfield, hunset, Bool.false_eq_true, if_false]
    rw [pure_bind, hvalue rest]

theorem takes_of_member (hlawful : record.Lawful) (hvalue : IsValue text.value) {name : String}
    (hnamed : text.Named name) {rest left : List Token}
    (hmember : record.member gathered name (.colon :: text.value ++ rest) = .ok (next, left)) :
    left = rest ∧ record.Takes gathered text next := by
  rw [List.cons_append, member] at hmember
  cases hfield : record.fields.find? (·.name == name) with
  | none =>
    simp only [hfield] at hmember
    rw [pure_bind, skip_value hvalue] at hmember
    cases hmember
    exact ⟨rfl, .skipped hnamed hfield hvalue⟩
  | some field =>
    simp only [hfield] at hmember
    cases hunset : field.isSet gathered with
    | true =>
      rw [hunset, if_pos rfl] at hmember
      cases hmember
    | false =>
      rw [hunset, if_neg Bool.false_ne_true, pure_bind] at hmember
      have hstops := hlawful.stops field (List.mem_of_find?_eq_some hfield) gathered
      obtain ⟨rfl, hread⟩ := hstops hvalue hmember
      exact ⟨rfl, .read hnamed hfield hunset hread⟩

/-- The end of an object. -/
def close (record : Record π α) (gathered : π) (rest : List Token) : Result (α × List Token) :=
  match record.build gathered with
  | .ok value => .ok (value, rest)
  | .error cause => mismatch cause

theorem close_eq_bind (gathered : π) (rest : List Token) :
    ((match record.build gathered with
      | .ok value => pure value
      | .error cause => mismatch cause : Result α) >>= fun value ↦ pure (value, rest)) =
      record.close gathered rest := by
  rw [close]
  cases record.build gathered <;> rfl

theorem close_of_build {value : α} (h : record.build gathered = .ok value) (rest : List Token) :
    record.close gathered rest = .ok (value, rest) := by
  rw [close, h]

theorem close_eq_ok {value : α} {rest left : List Token}
    (h : record.close gathered rest = .ok (value, left)) :
    record.build gathered = .ok value ∧ left = rest := by
  rw [close] at h
  cases hbuild : record.build gathered with
  | error cause =>
    rw [hbuild] at h
    cases h
  | ok built =>
    rw [hbuild] at h
    cases h
    exact ⟨rfl, rfl⟩

theorem decoder_empty (rest : List Token) :
    record.decoder (.openObject :: .closeObject :: rest) = record.close record.blank rest :=
  close_eq_bind record.blank rest

/-- One member, and the end of the object or a comma behind it. -/
theorem members_succ {name : String} (hnamed : text.Named name) (rounds : ℕ)
    (rest : List Token) :
    record.members (rounds + 1) gathered (text.tokens ++ rest) =
      record.member gathered name (.colon :: text.value ++ rest) >>= fun found ↦
        match found.2 with
        | .closeObject :: rest => record.close found.1 rest
        | .comma :: rest => record.members rounds found.1 rest
        | [] => fail .endOfText
        | _ => fail .syntaxError := by
  rw [MemberText.tokens, List.cons_append, members, stringOf, hnamed]
  simp only [String.ofList_toList, pure_bind]
  refine bind_congr fun found ↦ ?_
  obtain ⟨middle, left⟩ := found
  cases left with
  | nil => rfl
  | cons token left =>
    cases token with
    | closeObject => exact close_eq_bind middle left
    | _ => rfl

theorem named_of_members {rounds : ℕ} {rest left : List Token} {value : α}
    (h : record.members (rounds + 1) gathered (text.tokens ++ rest) = .ok (value, left)) :
    ∃ name, text.Named name := by
  rw [MemberText.tokens, List.cons_append, members, stringOf] at h
  cases hdecode : Piece.decode false text.key with
  | none =>
    rw [hdecode] at h
    cases h
  | some chars =>
    exact ⟨String.ofList chars, by rw [MemberText.Named, hdecode, String.toList_ofList]⟩

theorem members_of_gathers (h : record.Gathers gathered texts next) (hne : texts ≠ [])
    {value : α} (hbuild : record.build next = .ok value) {rounds : ℕ}
    (hrounds : texts.length ≤ rounds) (rest : List Token) :
    record.members rounds gathered
      ([.comma].intercalate (texts.map MemberText.tokens) ++ .closeObject :: rest) =
      .ok (value, rest) := by
  induction h generalizing rounds with
  | nil => exact absurd rfl hne
  | @cons gathered middle next text texts hfirst hmore ih =>
    obtain ⟨fewer, rfl⟩ := Nat.exists_eq_add_of_lt hrounds
    obtain ⟨name, hnamed⟩ := hfirst.named
    have hmember := hfirst.decodes hnamed
    cases texts with
    | nil =>
      cases hmore
      rw [List.map_singleton, List.intercalate_singleton, members_succ hnamed, hmember]
      exact close_of_build hbuild rest
    | cons second texts =>
      rw [List.map_cons, List.map_cons, List.intercalate_cons_cons, List.append_assoc,
        List.append_assoc, members_succ hnamed, hmember]
      exact ih (List.cons_ne_nil _ _) hbuild (Nat.le_add_right _ _)

theorem gathers_of_members (hlawful : record.Lawful)
    (hvalues : ∀ text ∈ texts, IsValue text.value) (hne : texts ≠ [])
    {value : α} {rounds : ℕ} {rest left : List Token}
    (h : record.members rounds gathered
      ([.comma].intercalate (texts.map MemberText.tokens) ++ .closeObject :: rest) =
      .ok (value, left)) :
    left = rest ∧ ∃ next, record.Gathers gathered texts next ∧ record.build next = .ok value := by
  induction texts generalizing rounds gathered with
  | nil => exact absurd rfl hne
  | cons text more ih =>
    obtain ⟨hvalue, hvaluesMore⟩ := List.forall_mem_cons.mp hvalues
    cases rounds with
    | zero => cases h
    | succ rounds =>
      cases more with
      | nil =>
        rw [List.map_singleton, List.intercalate_singleton] at h
        obtain ⟨name, hnamed⟩ := named_of_members h
        rw [members_succ hnamed] at h
        obtain ⟨⟨middle, after⟩, hmember, hend⟩ := bind_eq_ok h
        obtain ⟨rfl, htakes⟩ := takes_of_member hlawful hvalue hnamed hmember
        obtain ⟨hbuild, rfl⟩ := close_eq_ok hend
        exact ⟨rfl, middle, .cons htakes (.nil middle), hbuild⟩
      | cons second more =>
        rw [List.map_cons, List.map_cons, List.intercalate_cons_cons, List.append_assoc,
          List.append_assoc, ← List.map_cons] at h
        obtain ⟨name, hnamed⟩ := named_of_members h
        rw [members_succ hnamed] at h
        obtain ⟨⟨middle, after⟩, hmember, hend⟩ := bind_eq_ok h
        obtain ⟨rfl, htakes⟩ := takes_of_member hlawful hvalue hnamed hmember
        obtain ⟨rfl, next, hgathers, hbuild⟩ := ih hvaluesMore (List.cons_ne_nil _ _) hend
        exact ⟨rfl, next, .cons htakes hgathers, hbuild⟩

theorem length_le_intercalate (texts : List MemberText) :
    texts.length ≤ ([Token.comma].intercalate (texts.map MemberText.tokens)).length := by
  induction texts with
  | nil => exact Nat.zero_le _
  | cons text more ih =>
    cases more with
    | nil => simp [MemberText.tokens]
    | cons second more =>
      rw [List.map_cons, List.map_cons, List.intercalate_cons_cons, ← List.map_cons]
      simp only [List.length_append, List.length_cons, List.length_nil] at ih ⊢
      omega

/-- The members are read from the first key on, with rounds for all of them. -/
theorem decoder_object (record : Record π α) (hne : texts ≠ []) (rest : List Token) :
    ∃ rounds, texts.length ≤ rounds ∧ record.decoder (objectTokens texts ++ rest) =
      record.members rounds record.blank
        ([.comma].intercalate (texts.map MemberText.tokens) ++ .closeObject :: rest) := by
  have hrounds := length_le_intercalate texts
  obtain ⟨text, more, rfl⟩ := List.exists_cons_of_ne_nil hne
  obtain ⟨tail, htail⟩ := exists_intercalate_cons [Token.comma] text.tokens
    (more.map MemberText.tokens)
  rw [objectTokens, List.cons_append, List.append_assoc, List.singleton_append]
  rw [List.map_cons, htail] at hrounds ⊢
  refine ⟨(text.tokens ++ tail ++ .closeObject :: rest).length, hrounds.trans ?_, rfl⟩
  exact (List.sublist_append_left _ _).length_le

/-- An object with these members is the record. -/
def Yields (record : Record π α) (texts : List MemberText) (value : α) : Prop :=
  ∃ next, record.Gathers record.blank texts next ∧ record.build next = .ok value

theorem Yields.perm {value : α} (hlawful : record.Lawful) (h : record.Yields texts value)
    {others : List MemberText} (hperm : texts.Perm others) : record.Yields others value := by
  obtain ⟨next, hgathers, hbuild⟩ := h
  exact ⟨next, hgathers.perm hlawful hperm, hbuild⟩

theorem Yields.append_foreign {value : α} (h : record.Yields texts value)
    {others : List MemberText} (hforeign : ∀ text ∈ others, record.Foreign text) :
    record.Yields (texts ++ others) value := by
  obtain ⟨next, hgathers, hbuild⟩ := h
  exact ⟨next, gathers_append_iff.mpr ⟨next, hgathers, gathers_of_foreign hforeign next⟩, hbuild⟩

theorem Yields.decodes {value : α} (h : record.Yields texts value) :
    record.decoder.Decodes (objectTokens texts) value := by
  obtain ⟨next, h, hbuild⟩ := h
  intro rest
  by_cases hne : texts = []
  · subst hne
    cases h
    exact (decoder_empty rest).trans (close_of_build hbuild rest)
  · obtain ⟨rounds, hrounds, hdecoder⟩ := decoder_object record hne rest
    exact hdecoder.trans (members_of_gathers h hne hbuild hrounds rest)

/-- Whatever is read from an object is what its members come to. -/
theorem yields_of_decoder (hlawful : record.Lawful)
    (hvalues : ∀ text ∈ texts, IsValue text.value) {value : α} {rest left : List Token}
    (h : record.decoder (objectTokens texts ++ rest) = .ok (value, left)) :
    left = rest ∧ record.Yields texts value := by
  by_cases hne : texts = []
  · subst hne
    obtain ⟨hbuild, rfl⟩ := close_eq_ok ((decoder_empty rest).symm.trans h)
    exact ⟨rfl, record.blank, .nil _, hbuild⟩
  · obtain ⟨rounds, -, hdecoder⟩ := decoder_object record hne rest
    exact gathers_of_members hlawful hvalues hne (hdecoder.symm.trans h)

/-! ## Arrays -/

theorem intercalate_cons_flatMap (text : List Token) (texts : List (List Token)) :
    [Token.comma].intercalate (text :: texts) = text ++ texts.flatMap (.comma :: ·) := by
  induction texts generalizing text with
  | nil => rw [List.intercalate_singleton, List.flatMap_nil, List.append_nil]
  | cons second texts ih =>
    rw [List.intercalate_cons_cons, ih, List.flatMap_cons, List.append_assoc]
    rfl

theorem items_close (read : ℕ) (rest : List Token) :
    record.items read gathered [] (.closeArray :: rest) = record.close gathered rest :=
  close_eq_bind gathered rest

theorem items_nil_ne_ok (read : ℕ) {token : Token} (htoken : token ≠ .closeArray)
    (rest : List Token) (found : α × List Token) :
    record.items read gathered [] (token :: rest) ≠ .ok found := by
  intro h
  obtain ⟨value, -, hclose⟩ := bind_eq_ok h
  cases token with
  | closeArray => exact htoken rfl
  | _ => cases hclose

/-- A further item. -/
theorem items_comma (read : ℕ) (field : Field π) (fields : List (Field π)) {token : Token}
    (htoken : token ≠ .closeArray) (rest : List Token) :
    record.items (read + 1) gathered (field :: fields) (.comma :: token :: rest) =
      field.read gathered (token :: rest) >>= fun found ↦
        record.items (read + 2) found.1 fields found.2 := by
  cases token with
  | closeArray => exact absurd rfl htoken
  | _ => rfl

/-- The first item. -/
theorem items_first (field : Field π) (fields : List (Field π)) {token : Token}
    (htoken : token ≠ .closeArray) (hcomma : token ≠ .comma) (rest : List Token) :
    record.items 0 gathered (field :: fields) (token :: rest) =
      field.read gathered (token :: rest) >>= fun found ↦
        record.items 1 found.1 fields found.2 := by
  cases token with
  | closeArray => exact absurd rfl htoken
  | comma => exact absurd rfl hcomma
  | _ => rfl

/-- An array may end before fields that are optional. -/
theorem items_end (read : ℕ) (field : Field π) (fields : List (Field π)) (rest : List Token) :
    record.items read gathered (field :: fields) (.closeArray :: rest) =
      if field.optional then record.items (read + 1) gathered fields (.closeArray :: rest)
      else mismatch (.invalidLength read record.expectedLength) :=
  rfl

theorem stops_items_end (fields : List (Field π)) (read : ℕ) (gathered : π) :
    Stops (record.items read gathered fields) [.closeArray] := by
  induction fields generalizing read with
  | nil =>
    intro rest value left h
    obtain ⟨hbuild, rfl⟩ := close_eq_ok ((items_close _ rest).symm.trans h)
    exact ⟨rfl, fun rest ↦ (items_close _ rest).trans (close_of_build hbuild rest)⟩
  | cons field fields ih =>
    intro rest value left h
    cases hoptional : field.optional with
    | false =>
      rw [List.singleton_append, items_end, hoptional] at h
      cases h
    | true =>
      rw [List.singleton_append, items_end, hoptional] at h
      obtain ⟨rfl, hdecodes⟩ := ih (read + 1) h
      refine ⟨rfl, fun rest ↦ ?_⟩
      rw [List.singleton_append, items_end, hoptional]
      exact hdecodes rest

/-- What reads a field and goes on behind it stops where the rest does. -/
theorem stops_of_field {start : Decoder α} {spelled item more : List Token} {field : Field π}
    (others : π → Decoder α)
    (hstart : ∀ rest, start (spelled ++ rest) =
      field.read gathered (item ++ (more ++ rest)) >>= fun found ↦ others found.1 found.2)
    (hitem : Stops (field.read gathered) item) (hmore : ∀ next, Stops (others next) more) :
    start.Stops spelled := by
  intro rest value left h
  rw [hstart] at h
  obtain ⟨⟨next, after⟩, hfirst, hend⟩ := bind_eq_ok h
  obtain ⟨rfl, hdecodes⟩ := hitem hfirst
  obtain ⟨rfl, hrest⟩ := hmore next hend
  refine ⟨rfl, fun rest ↦ ?_⟩
  rw [hstart, hdecodes]
  exact hrest rest

theorem stops_items {fields : List (Field π)}
    (hfields : ∀ field ∈ fields, ∀ gathered, (field.read gathered).StopsAtValues)
    {items : List (List Token)} (hitems : ∀ item ∈ items, IsValue item) (read : ℕ) (gathered : π) :
    Stops (record.items (read + 1) gathered fields)
      (items.flatMap (.comma :: ·) ++ [.closeArray]) := by
  induction fields generalizing items read gathered with
  | nil =>
    cases items with
    | nil => exact stops_items_end [] (read + 1) gathered
    | cons item items => exact fun _ _ _ h ↦ absurd h (items_nil_ne_ok _ (by decide) _ _)
  | cons field fields ih =>
    cases items with
    | nil => exact stops_items_end (field :: fields) (read + 1) gathered
    | cons item items =>
      obtain ⟨hfield, hmore⟩ := List.forall_mem_cons.mp hfields
      obtain ⟨hitem, hitemsMore⟩ := List.forall_mem_cons.mp hitems
      refine stops_of_field (fun next ↦ record.items (read + 2) next fields) (fun rest ↦ ?_)
        (hfield gathered hitem) fun next ↦ ih hmore hitemsMore (read + 1) next
      obtain ⟨token, tail, rfl, htoken, -⟩ := hitem.exists_cons
      rw [List.flatMap_cons, List.append_assoc, List.append_assoc,
        List.append_assoc (items.flatMap _)]
      exact items_comma read field fields htoken _

theorem stops_array {items : List (List Token)} (hlawful : record.Lawful)
    (hitems : ∀ item ∈ items, IsValue item) : record.decoder.Stops (arrayTokens items) := by
  cases items with
  | nil => exact stops_items_end record.fields 0 record.blank
  | cons item items =>
    obtain ⟨hitem, hitemsMore⟩ := List.forall_mem_cons.mp hitems
    obtain ⟨token, tail, rfl, htoken, hcomma⟩ := hitem.exists_cons
    have hdecoder (rest : List Token) :
        record.decoder (arrayTokens ((token :: tail) :: items) ++ rest) =
        record.items 0 record.blank record.fields
          (token :: (tail ++ (items.flatMap (.comma :: ·) ++ [.closeArray] ++ rest))) := by
      rw [arrayTokens, intercalate_cons_flatMap, List.cons_append, List.append_assoc,
        List.append_assoc, List.append_assoc]
      rfl
    have hfields := hlawful.stops
    cases hlist : record.fields with
    | nil =>
      intro rest value left h
      rw [hdecoder, hlist] at h
      exact absurd h (items_nil_ne_ok _ htoken _ _)
    | cons field fields =>
      rw [hlist] at hfields
      obtain ⟨hfield, hmore⟩ := List.forall_mem_cons.mp hfields
      refine stops_of_field (fun next ↦ record.items 1 next fields) (fun rest ↦ ?_)
        (hfield record.blank hitem) fun next ↦ stops_items hmore hitemsMore 0 next
      rw [hdecoder, hlist]
      exact items_first field fields htoken hcomma _

theorem decoder_scalar {token : Token} (harray : token ≠ .openArray) (hobject : token ≠ .openObject)
    (rest : List Token) :
    record.decoder (token :: rest) = unexpected record.expected (token :: rest) := by
  cases token with
  | openArray => exact absurd rfl harray
  | openObject => exact absurd rfl hobject
  | _ => rfl

/-- A record is read no further than to the end of a value. -/
theorem stopsAtValues_decoder (hlawful : record.Lawful) : record.decoder.StopsAtValues := by
  intro spelled hspelled
  cases hspelled with
  | array hitems => exact stops_array hlawful hitems
  | object hvalues =>
    intro rest value left h
    obtain ⟨rfl, hyields⟩ := yields_of_decoder hlawful hvalues h
    exact ⟨rfl, hyields.decodes⟩
  | null | boolean | number | string =>
    intro rest value left h
    rw [List.singleton_append, decoder_scalar (by simp) (by simp)] at h
    exact absurd h (unexpected_ne_ok _ _ _)

end Record

end BlockWatch.Json.Decoder
