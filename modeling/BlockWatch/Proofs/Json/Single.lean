import BlockWatch.Config.Scenario
import BlockWatch.Proofs.Json.FiniteValue
import BlockWatch.Proofs.Json.ReadShape
import BlockWatch.Proofs.Json.Spelled

/-!
# Decoding single values

A decoder reads the tokens of a value and leaves what follows them. The decoders of numbers, strings
and truth values look at one token only.
-/

namespace BlockWatch.Json

theorem Number.toValue_injective : Function.Injective toValue := by
  intro n m h
  cases n <;> cases m <;> cases h <;> rfl

theorem spells_number_iff {n : Number} {spelled : List Token} :
    Spells n.toValue spelled ↔ ∃ text : NumberText, text.value? = some n ∧
      spelled = [.number text] := by
  constructor
  · intro h
    generalize hvalue : n.toValue = value at h
    cases h with
    | @number text m hm =>
      obtain rfl := Number.toValue_injective hvalue
      exact ⟨text, hm, rfl⟩
    | _ => cases n <;> cases hvalue
  · rintro ⟨text, htext, rfl⟩
    exact .number htext

/-- What the decoder of floating point numbers makes of a number. -/
def Number.toFloat : Number → Binary64
  | integer n => if n.value < 0 then (Binary64.ofNat n.value.natAbs).neg
    else Binary64.ofNat n.value.natAbs
  | float x => x

theorem isFinite_toFloat {n : Number} {spelled : List Token} (h : Spells n.toValue spelled) :
    n.toFloat.isFinite = true := by
  obtain ⟨text, htext, -⟩ := spells_number_iff.mp h
  cases n with
  | float x => exact NumberText.isFinite_of_value? htext
  | integer n =>
    have hrange := n.inRange
    have hfinite := Binary64.isFinite_ofNat (show n.value.natAbs < 2 ^ 64 by omega)
    rw [Number.toFloat]
    split_ifs
    · rwa [Binary64.isFinite_neg]
    · exact hfinite

theorem spells_string_iff {text : String} {spelled : List Token} :
    Spells (.string text) spelled ↔
      ∃ pieces, Piece.decode false pieces = some text.toList ∧ spelled = [.string pieces] := by
  constructor
  · intro h
    generalize hvalue : Value.string text = value at h
    cases h with
    | string hdecode =>
      obtain rfl := Value.string.inj hvalue
      exact ⟨_, hdecode, rfl⟩
    | @number _ n _ => cases n <;> cases hvalue
    | _ => cases hvalue
  · rintro ⟨pieces, hdecode, rfl⟩
    exact .string hdecode

namespace Decoder

variable {α β : Type}

/-- The decoder reads the tokens as the value and leaves whatever follows. -/
def Decodes (decoder : Decoder α) (spelled : List Token) (value : α) : Prop :=
  ∀ rest, decoder (spelled ++ rest) = .ok (value, rest)

/-- Whatever the decoder makes of the tokens, it reads all of them and nothing that follows. -/
def Stops (decoder : Decoder α) (spelled : List Token) : Prop :=
  ∀ ⦃rest value left⦄, decoder (spelled ++ rest) = .ok (value, left) →
    left = rest ∧ decoder.Decodes spelled value

/-- The decoder reads no further than to the end of a value. -/
def StopsAtValues (decoder : Decoder α) : Prop :=
  ∀ ⦃spelled⦄, IsValue spelled → decoder.Stops spelled

variable {decoder : Decoder α} {spelled : List Token} {value : α}

theorem Decodes.ofText (h : decoder.Decodes spelled value) {text : String}
    (htext : tokens text = spelled) : ofText decoder text = .ok value := by
  have hall := h []
  rw [List.append_nil] at hall
  rw [Decoder.ofText, htext, hall]
  rfl

theorem Decodes.unique {other : α} (h : decoder.Decodes spelled value)
    (h' : decoder.Decodes spelled other) : value = other := by
  have hboth := (h []).symm.trans (h' [])
  cases hboth
  rfl

/-- A text that decodes is read to its end. -/
theorem Stops.decodes_of_ofText (h : decoder.Stops spelled) {text : String}
    (htext : tokens text = spelled) (hdecode : ofText decoder text = .ok value) :
    decoder.Decodes spelled value := by
  obtain ⟨⟨found, left⟩, hfound, hmatch⟩ := bind_eq_ok hdecode
  rw [htext, ← List.append_nil spelled] at hfound
  obtain ⟨rfl, hdecodes⟩ := h hfound
  cases hmatch
  exact hdecodes

/-! ## What is read -/

theorem decodes_natural {limit : ℕ} (expected : String) {n : Integer}
    (hrange : 0 ≤ n.value ∧ n.value < limit) (h : Spells (.integer n) spelled) :
    (natural limit expected).Decodes spelled n.value.toNat := by
  obtain ⟨text, htext, rfl⟩ := (spells_number_iff (n := .integer n)).mp h
  intro rest
  rw [List.singleton_append, natural, numberOf, htext, pure_bind]
  simp only [if_pos hrange]
  rfl

theorem decodes_string (expected : String) {s : String} (h : Spells (.string s) spelled) :
    (string expected).Decodes spelled s := by
  obtain ⟨pieces, hdecode, rfl⟩ := spells_string_iff.mp h
  intro rest
  rw [List.singleton_append, string, stringOf, hdecode]
  simp only [String.ofList_toList, pure_bind]
  rfl

theorem decodes_float {n : Number} (h : Spells n.toValue spelled) :
    float.Decodes spelled n.toFloat := by
  obtain ⟨text, htext, rfl⟩ := spells_number_iff.mp h
  intro rest
  rw [List.singleton_append, float, numberOf, htext, pure_bind]
  cases n <;> rfl

theorem Decodes.refine (h : decoder.Decodes spelled value) {f : α → Result β} {b : β}
    (hf : f value = .ok b) : (decoder.refine f).Decodes spelled b := by
  intro rest
  rw [Decoder.refine, h rest]
  change f value >>= (fun b ↦ pure (b, rest)) = _
  rw [hf]
  rfl

/-- A word under any name for its kind. -/
theorem decodes_ofWord (expected : String) {n : UInt64} (h : Spells (.ofWord n) spelled) :
    (refine (natural UInt64.size expected) fun n ↦ pure (UInt64.ofNat n)).Decodes spelled n := by
  have hrange : 0 ≤ (Integer.ofWord n).value ∧ (Integer.ofWord n).value < UInt64.size :=
    ⟨Int.natCast_nonneg _, Int.ofNat_lt.mpr n.toNat_lt⟩
  refine (decodes_natural expected hrange h).refine ?_
  exact congrArg Except.ok UInt64.ofNat_toNat

theorem decodes_word {n : UInt64} (h : Spells (.ofWord n) spelled) : word.Decodes spelled n :=
  decodes_ofWord "u64" h

/-! ## How far is read -/

/-- The decoder reads a single token that is no part of an array or an object. -/
def Single (decoder : Decoder α) : Prop :=
  ∀ ⦃input value left⦄, decoder input = .ok (value, left) →
    ∃ token, IsValue [token] ∧ input = token :: left ∧
      ∀ rest, decoder (token :: rest) = .ok (value, rest)

theorem Single.stopsAtValues (h : decoder.Single) : decoder.StopsAtValues := by
  intro spelled hspelled rest value left hread
  obtain ⟨first, more, rfl, -, -⟩ := hspelled.exists_cons
  obtain ⟨token, htoken, hinput, hsame⟩ := h hread
  obtain ⟨rfl, hleft⟩ := List.cons_eq_cons.mp hinput
  obtain rfl := hspelled.eq_nil_of_single htoken
  exact ⟨hleft.symm, hsame⟩

theorem unexpected_ne_ok (expected : String) (input : List Token) (value : α) :
    unexpected expected input ≠ .ok value := by
  intro h
  unfold unexpected at h
  split at h
  case h_5 =>
    obtain ⟨n, -, hmatch⟩ := bind_eq_ok h
    cases n <;> cases hmatch
  case h_6 =>
    obtain ⟨text, -, hmatch⟩ := bind_eq_ok h
    cases hmatch
  case h_7 =>
    rw [brokenString] at h
    split at h <;> cases h
  all_goals cases h

theorem single_natural (limit : ℕ) (expected : String) : (natural limit expected).Single := by
  intro input value left h
  unfold natural at h
  split at h
  · rename_i text rest
    obtain ⟨n, hn, hmatch⟩ := bind_eq_ok h
    refine ⟨.number text, .number text, ?_⟩
    cases n with
    | float x => cases hmatch
    | integer n =>
      simp only at hmatch
      by_cases hrange : 0 ≤ n.value ∧ n.value < limit
      · rw [if_pos hrange] at hmatch
        cases hmatch
        refine ⟨rfl, fun rest ↦ ?_⟩
        rw [natural, hn]
        exact if_pos hrange
      · rw [if_neg hrange] at hmatch
        cases hmatch
  · exact absurd h (unexpected_ne_ok _ _ _)

theorem single_string (expected : String) : (string expected).Single := by
  intro input value left h
  unfold string at h
  split at h
  · rename_i pieces rest
    obtain ⟨text, htext, hpure⟩ := bind_eq_ok h
    cases hpure
    exact ⟨.string pieces, .string pieces, rfl, fun rest ↦ by rw [string, htext]; rfl⟩
  · exact absurd h (unexpected_ne_ok _ _ _)

theorem single_boolean : boolean.Single := by
  intro input value left h
  unfold boolean at h
  split at h
  · cases h
    exact ⟨_, .boolean value, rfl, fun _ ↦ rfl⟩
  · exact absurd h (unexpected_ne_ok _ _ _)

theorem Single.optional (h : decoder.Single) : (decoder.optional).Single := by
  intro input value left hread
  unfold Decoder.optional at hread
  split at hread
  · cases hread
    exact ⟨.null, .null, rfl, fun _ ↦ rfl⟩
  · rename_i hnull
    obtain ⟨⟨found, after⟩, hfound, hpure⟩ := bind_eq_ok hread
    cases hpure
    obtain ⟨token, htoken, rfl, hsame⟩ := h hfound
    refine ⟨token, htoken, rfl, fun rest ↦ ?_⟩
    rw [Decoder.optional, hsame rest]
    · rfl
    · rintro rest' heq
      obtain ⟨rfl, -⟩ := List.cons_eq_cons.mp heq
      exact hnull left rfl

theorem Single.refine (h : decoder.Single) (f : α → Result β) : (decoder.refine f).Single := by
  intro input value left hread
  obtain ⟨⟨found, after⟩, hfound, hrest⟩ := bind_eq_ok hread
  obtain ⟨refined, hrefined, hpure⟩ := bind_eq_ok hrest
  cases hpure
  obtain ⟨token, htoken, rfl, hsame⟩ := h hfound
  refine ⟨token, htoken, rfl, fun rest ↦ ?_⟩
  rw [Decoder.refine, hsame rest]
  change f found >>= (fun b ↦ pure (b, rest)) = _
  rw [hrefined]
  rfl

theorem single_word : word.Single := (single_natural UInt64.size "u64").refine _

end Decoder

end BlockWatch.Json
