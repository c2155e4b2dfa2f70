import BlockWatch.Json.Scalar
import BlockWatch.Json.Writer
import BlockWatch.Proofs.Json.Numeral

/-!
# Quoted strings

What is written for a character is read as one piece that stands for that character, so a string in
quotes is one token that holds the string.
-/

namespace BlockWatch.Json

/-- Whether a piece stands for a character, whatever follows it. -/
def Piece.StandsFor (piece : Piece) (c : Char) : Prop :=
  ∀ rest, decode false (piece :: rest) = (decode false rest).map (c :: ·)

theorem Piece.char_standsFor (c : Char) : (Piece.char c).StandsFor c := fun rest ↦ by rw [decode]

/-- Below the halves of characters a unit is a character. -/
theorem Piece.unit_standsFor {c : Char} (h : c.toNat < 0xD800) :
    (Piece.unit c.toNat).StandsFor c := by
  intro rest
  rw [decode.eq_def]
  simp only
  rw [if_neg (by omega), if_neg (by omega), Char.ofNat_toNat]

namespace Lexer

theorem hexDigit?_digitChar : ∀ d < 16, hexDigit? (Nat.digitChar d) = some d := by decide

theorem unit?_of_digits {a b c d : Char} {i j k l : ℕ} (ha : hexDigit? a = some i)
    (hb : hexDigit? b = some j) (hc : hexDigit? c = some k) (hd : hexDigit? d = some l)
    (rest : List Char) :
    unit? (a :: b :: c :: d :: rest) = .ok (((i * 16 + j) * 16 + k) * 16 + l, rest) := by
  have hroom : endsWithinFour (a :: b :: c :: d :: rest) = false := by
    have := a.utf8Size_pos
    have := b.utf8Size_pos
    have := c.utf8Size_pos
    have := d.utf8Size_pos
    apply decide_eq_false
    simp only [List.take_succ_cons, List.take_zero, List.foldl_cons, List.foldl_nil]
    omega
  rw [unit?, if_neg (by simp [hroom])]
  simp only [ha, hb, hc, hd]

theorem string_unit {s rest : List Char} {n : ℕ} (h : unit? s = .ok (n, rest))
    (done : List Piece) :
    string done ('\\' :: 'u' :: s) = string (.unit n :: done) rest := by
  rw [string]
  split
  · rename_i found after heq
    rw [h] at heq
    cases heq
    rfl
  · rename_i cause heq
    rw [h] at heq
    cases heq

theorem string_escape {e c : Char} (hu : e ≠ 'u') (h : escape? e = some c) (done : List Piece)
    (rest : List Char) : string done ('\\' :: e :: rest) = string (.char c :: done) rest := by
  rw [string.eq_4 _ _ _ hu, h]

theorem string_plain {c : Char} (hquote : c ≠ '"') (hslash : c ≠ '\\') (h : 32 ≤ c.toNat)
    (done : List Piece) (rest : List Char) :
    string done (c :: rest) = string (.char c :: done) rest := by
  rw [string.eq_6 _ _ _ hquote (fun _ hc ↦ absurd hc hslash) (fun _ _ hc ↦ absurd hc hslash)
    fun hc ↦ absurd hc hslash, if_neg (by omega)]

/-- The text is read as one piece that stands for the character, whatever comes before and after. -/
def Denotes (text : List Char) (c : Char) : Prop :=
  ∃ piece : Piece, piece.StandsFor c ∧
    ∀ done rest, string done (text ++ rest) = string (piece :: done) rest

theorem denotes_escape {e c : Char} (hu : e ≠ 'u') (h : escape? e = some c) :
    Denotes ['\\', e] c :=
  ⟨.char c, Piece.char_standsFor c, fun done rest ↦ string_escape hu h done rest⟩

theorem denotes_unit {a b d e c : Char} {i j k l : ℕ} (ha : hexDigit? a = some i)
    (hb : hexDigit? b = some j) (hd : hexDigit? d = some k) (he : hexDigit? e = some l)
    (hvalue : ((i * 16 + j) * 16 + k) * 16 + l = c.toNat) (hc : c.toNat < 0xD800) :
    Denotes ['\\', 'u', a, b, d, e] c := by
  refine ⟨.unit c.toNat, Piece.unit_standsFor hc, fun done rest ↦ ?_⟩
  have hunit := unit?_of_digits ha hb hd he rest
  rw [hvalue] at hunit
  exact string_unit hunit done

theorem toDigits_of_lt_thirtyTwo {n : ℕ} (hlow : 16 ≤ n) (hhigh : n < 32) :
    Nat.toDigits 16 n = ['1', Nat.digitChar (n % 16)] := by
  have htens : n / 16 = 1 := by omega
  rw [Nat.toDigits_of_base_le (by decide) hlow, htens, Nat.toDigits_of_lt_base (by decide)]
  rfl

/-- What is written for a character is read as a piece that stands for it. -/
theorem denotes_charText (c : Char) : Denotes (charText c).toList c := by
  have hzero : hexDigit? '0' = some 0 := rfl
  have hone : hexDigit? '1' = some 1 := rfl
  unfold charText
  split_ifs with hquote hslash hnewline hreturn htab hback hfeed hlow hcontrol
  · exact denotes_escape (e := '"') (by decide) (by rw [hquote]; rfl)
  · exact denotes_escape (e := '\\') (by decide) (by rw [hslash]; rfl)
  · exact denotes_escape (e := 'n') (by decide) (by rw [hnewline]; rfl)
  · exact denotes_escape (e := 'r') (by decide) (by rw [hreturn]; rfl)
  · exact denotes_escape (e := 't') (by decide) (by rw [htab]; rfl)
  · exact denotes_escape (e := 'b') (by decide) (by rw [← Char.ofNat_toNat (c := c), hback]; rfl)
  · exact denotes_escape (e := 'f') (by decide) (by rw [← Char.ofNat_toNat (c := c), hfeed]; rfl)
  · simp only [Nat.toDigits_of_lt_base hlow, String.toList_append, String.toList_ofList]
    exact denotes_unit hzero hzero hzero (hexDigit?_digitChar _ hlow) (by omega) (by omega)
  · have hones := hexDigit?_digitChar _ (Nat.mod_lt c.toNat (by decide : 0 < 16))
    simp only [toDigits_of_lt_thirtyTwo (Nat.le_of_not_lt hlow) hcontrol, String.toList_append,
      String.toList_ofList]
    exact denotes_unit hzero hzero hone hones (by omega) (by omega)
  · rw [Char.toString, String.toList_singleton]
    exact ⟨.char c, Piece.char_standsFor c,
      fun done rest ↦ string_plain hquote hslash (Nat.le_of_not_lt hcontrol) done rest⟩

theorem exists_string_join (cs : List Char) : ∃ pieces : List Piece,
    Piece.decode false pieces = some cs ∧
    ∀ done rest, string done ((String.join (cs.map charText)).toList ++ '"' :: rest) =
      (.string (done.reverse ++ pieces), rest) := by
  induction cs with
  | nil =>
    refine ⟨[], rfl, fun done rest ↦ ?_⟩
    rw [List.append_nil]
    exact string.eq_2 done rest
  | cons c cs ih =>
    obtain ⟨piece, hstands, hpiece⟩ := denotes_charText c
    obtain ⟨pieces, hdecode, hpieces⟩ := ih
    refine ⟨piece :: pieces, by rw [hstands, hdecode]; rfl, fun done rest ↦ ?_⟩
    rw [List.map_cons, String.join_cons, String.toList_append, List.append_assoc, hpiece, hpieces,
      List.reverse_cons, List.append_assoc, List.singleton_append]

/-- A string in quotes is one token that holds the string, whatever follows it. -/
theorem exists_tokensOf_stringText (s : String) : ∃ pieces : List Piece,
    Piece.decode false pieces = some s.toList ∧
    ∀ rest, tokensOf ((stringText s).toList ++ rest) = .string pieces :: tokensOf rest := by
  obtain ⟨pieces, hdecode, hpieces⟩ := exists_string_join s.toList
  refine ⟨pieces, hdecode, fun rest ↦ ?_⟩
  rw [stringText, String.toList_append, String.toList_append, List.append_assoc,
    List.append_assoc]
  exact tokensOf_cons rfl (hpieces [] rest)

end Lexer

end BlockWatch.Json
