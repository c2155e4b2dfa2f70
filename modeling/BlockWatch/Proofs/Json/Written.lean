import BlockWatch.Json.Writer
import BlockWatch.Proofs.Json.NumberValue
import BlockWatch.Proofs.Json.Quoted
import BlockWatch.Proofs.Json.Spelled

/-!
# Texts of values

Characters tell a value if they are cut into the tokens of the value, whatever comes after them.
Blanks may stand between the parts of an array or an object, so both the compact and the pretty text
of a value are put together in the same way.
-/

namespace BlockWatch.Json

namespace Lexer

/-! ## Tokens one after the other -/

theorem tokensOf_null (rest : List Char) :
    tokensOf ("null".toList ++ rest) = .null :: tokensOf rest :=
  tokensOf_cons rfl rfl

theorem tokensOf_true (rest : List Char) :
    tokensOf ("true".toList ++ rest) = .boolean true :: tokensOf rest :=
  tokensOf_cons rfl rfl

theorem tokensOf_false (rest : List Char) :
    tokensOf ("false".toList ++ rest) = .boolean false :: tokensOf rest :=
  tokensOf_cons rfl rfl

theorem tokensOf_openArray (s : List Char) : tokensOf ('[' :: s) = .openArray :: tokensOf s :=
  tokensOf_cons rfl rfl

theorem tokensOf_closeArray (s : List Char) : tokensOf (']' :: s) = .closeArray :: tokensOf s :=
  tokensOf_cons rfl rfl

theorem tokensOf_openObject (s : List Char) :
    tokensOf ('\x7b' :: s) = .openObject :: tokensOf s :=
  tokensOf_cons rfl rfl

theorem tokensOf_closeObject (s : List Char) :
    tokensOf ('\x7d' :: s) = .closeObject :: tokensOf s :=
  tokensOf_cons rfl rfl

theorem tokensOf_colon (s : List Char) : tokensOf (':' :: s) = .colon :: tokensOf s :=
  tokensOf_cons rfl rfl

theorem tokensOf_comma (s : List Char) : tokensOf (',' :: s) = .comma :: tokensOf s :=
  tokensOf_cons rfl rfl

theorem bounded_cons {c : Char} (h : c ∉ ['.', 'e', 'E']) (hdigit : c.isDigit = false)
    (rest : List Char) : Bounded (c :: rest) := by
  simp only [List.mem_cons, List.not_mem_nil, or_false, not_or] at h
  exact ⟨hdigit, h.1, h.2.1, h.2.2⟩

/-! ## Blanks -/

def Blank (cs : List Char) : Prop := ∀ c ∈ cs, isSpace c = true

theorem blank_nil : Blank [] := fun _ h ↦ absurd h List.not_mem_nil

theorem blank_space : Blank [' '] := List.forall_mem_singleton.mpr rfl

theorem blank_lineBreak (depth : ℕ) : Blank (lineBreak depth).toList := by
  have htext : (lineBreak depth).toList = '\n' :: List.replicate (2 * depth) ' ' := by
    simp [lineBreak]
  rw [htext]
  refine List.forall_mem_cons.mpr ⟨rfl, fun c hc ↦ ?_⟩
  rw [List.eq_of_mem_replicate hc]
  rfl

theorem tokensOf_blank {blank : List Char} (h : Blank blank) (rest : List Char) :
    tokensOf (blank ++ rest) = tokensOf rest := by
  induction blank with
  | nil => rfl
  | cons c more ih =>
    obtain ⟨hc, hmore⟩ := List.forall_mem_cons.mp h
    rw [List.cons_append, tokensOf_space hc, ih hmore]

theorem bounded_blank {blank : List Char} (h : Blank blank) {rest : List Char}
    (hrest : Bounded rest) : Bounded (blank ++ rest) := by
  cases blank with
  | nil => exact hrest
  | cons c more =>
    have hc := (List.forall_mem_cons.mp h).1
    have hne {d : Char} (hd : isSpace d = false) : c ≠ d := by
      rintro rfl
      rw [hc] at hd
      cases hd
    refine ⟨?_, hne rfl, hne rfl, hne rfl⟩
    simp only [isSpace, Bool.or_eq_true, beq_iff_eq] at hc
    rcases hc with ((rfl | rfl) | rfl) | rfl <;> rfl

/-! ## Cutting -/

/-- The characters are cut into the tokens, whatever follows that does not belong to a number. -/
def Cuts (cs : List Char) (spelled : List Token) : Prop :=
  ∀ rest, Bounded rest → tokensOf (cs ++ rest) = spelled ++ tokensOf rest

variable {cs : List Char} {spelled : List Token}

theorem Cuts.tokensOf (h : Cuts cs spelled) : Lexer.tokensOf cs = spelled := by
  have hend := h [] trivial
  rwa [List.append_nil, Lexer.tokensOf.eq_def [], List.append_nil] at hend

/-- Blanks may stand before the characters. -/
theorem Cuts.after_blank {blank : List Char} (hblank : Blank blank) (h : Cuts cs spelled) :
    Cuts (blank ++ cs) spelled := by
  intro rest hrest
  rw [List.append_assoc, tokensOf_blank hblank, h rest hrest]

/-- Parts with commas between them. -/
theorem cuts_intercalate {texts : List (List Char)} {parts : List (List Token)}
    (h : List.Forall₂ Cuts texts parts) :
    Cuts ([','].intercalate texts) ([.comma].intercalate parts) := by
  induction h with
  | nil => exact fun _ _ ↦ rfl
  | cons hfirst hmore ih =>
    cases hmore with
    | nil =>
      rw [List.intercalate_singleton, List.intercalate_singleton]
      exact hfirst
    | cons =>
      intro rest hrest
      have hcomma (s : List Char) : Bounded ([','] ++ s) := bounded_cons (by decide) rfl s
      rw [List.intercalate_cons_cons, List.intercalate_cons_cons, List.append_assoc,
        List.append_assoc, hfirst _ (hcomma _), List.singleton_append, tokensOf_comma,
        ih rest hrest]
      simp

/-- Parts with commas between them and something around them. -/
theorem cuts_enclosed {first last : Char} {opening closing : Token}
    (hfirst : ∀ s, Lexer.tokensOf (first :: s) = opening :: Lexer.tokensOf s)
    (hlast : ∀ s, Lexer.tokensOf (last :: s) = closing :: Lexer.tokensOf s)
    (hbounded : ∀ rest, Bounded (last :: rest)) {blank : List Char} (hblank : Blank blank)
    {texts : List (List Char)} {parts : List (List Token)} (h : List.Forall₂ Cuts texts parts) :
    Cuts (first :: ([','].intercalate texts ++ (blank ++ [last])))
      (opening :: ([.comma].intercalate parts ++ [closing])) := by
  intro rest _
  have hend : Bounded (blank ++ ([last] ++ rest)) := bounded_blank hblank (hbounded rest)
  rw [List.cons_append, hfirst, List.append_assoc, List.append_assoc,
    cuts_intercalate h _ hend, tokensOf_blank hblank, List.singleton_append, hlast]
  simp

end Lexer

open Lexer (Blank Cuts tokensOf)

/-! ## Values -/

/-- The characters are a text of the value. -/
def Tells (cs : List Char) (value : Value) : Prop :=
  ∃ spelled, Spells value spelled ∧ Cuts cs spelled

theorem Tells.after_blank {blank cs : List Char} (hblank : Blank blank) {value : Value}
    (h : Tells cs value) : Tells (blank ++ cs) value := by
  obtain ⟨spelled, hspells, hcuts⟩ := h
  exact ⟨spelled, hspells, hcuts.after_blank hblank⟩

theorem exists_cuts_of_tells {texts : List (List Char)} {values : List Value}
    (h : List.Forall₂ Tells texts values) :
    ∃ items, List.Forall₂ Spells values items ∧ List.Forall₂ Cuts texts items := by
  induction h with
  | nil => exact ⟨[], .nil, .nil⟩
  | cons hfirst _ ih =>
    obtain ⟨item, hspells, hcuts⟩ := hfirst
    obtain ⟨items, hitems, htexts⟩ := ih
    exact ⟨item :: items, .cons hspells hitems, .cons hcuts htexts⟩

theorem tells_array {texts : List (List Char)} {values : List Value}
    (h : List.Forall₂ Tells texts values) {blank : List Char} (hblank : Blank blank) :
    Tells ('[' :: ([','].intercalate texts ++ (blank ++ [']']))) (.array values) := by
  obtain ⟨items, hspells, hcuts⟩ := exists_cuts_of_tells h
  exact ⟨_, .array hspells, Lexer.cuts_enclosed Lexer.tokensOf_openArray Lexer.tokensOf_closeArray
    (Lexer.bounded_cons (by decide) rfl) hblank hcuts⟩

/-- The characters are a text of the member. -/
def TellsMember (cs : List Char) (member : String × Value) : Prop :=
  ∃ text : MemberText, text.Spells member ∧ Cuts cs text.tokens

/-- A key, a colon and a value, with blanks before them and before the value. -/
theorem tellsMember {key : String} {cs : List Char} {value : Value} (h : Tells cs value)
    {before between : List Char} (hbefore : Blank before) (hbetween : Blank between) :
    TellsMember (before ++ ((stringText key).toList ++ ':' :: (between ++ cs))) (key, value) := by
  obtain ⟨spelled, hspells, hcuts⟩ := h
  obtain ⟨pieces, hnamed, hkey⟩ := Lexer.exists_tokensOf_stringText key
  refine ⟨⟨pieces, spelled⟩, ⟨hnamed, hspells⟩, Cuts.after_blank hbefore fun rest hrest ↦ ?_⟩
  rw [List.append_assoc, hkey, List.cons_append, Lexer.tokensOf_colon,
    hcuts.after_blank hbetween rest hrest]
  rfl

theorem exists_cuts_of_tellsMember {texts : List (List Char)} {members : Members}
    (h : List.Forall₂ TellsMember texts members) :
    ∃ spelled : List MemberText,
      List.Forall₂ (fun member text ↦ MemberText.Spells text member) members spelled ∧
      List.Forall₂ Cuts texts (spelled.map MemberText.tokens) := by
  induction h with
  | nil => exact ⟨[], .nil, .nil⟩
  | cons hfirst _ ih =>
    obtain ⟨text, hspells, hcuts⟩ := hfirst
    obtain ⟨spelled, hmore, htexts⟩ := ih
    exact ⟨text :: spelled, .cons hspells hmore, .cons hcuts htexts⟩

theorem tells_object {texts : List (List Char)} {members : Members}
    (h : List.Forall₂ TellsMember texts members) {blank : List Char} (hblank : Blank blank) :
    Tells ('\x7b' :: ([','].intercalate texts ++ (blank ++ ['\x7d']))) (.object members) := by
  obtain ⟨spelled, hspells, hcuts⟩ := exists_cuts_of_tellsMember h
  exact ⟨_, spells_object_iff.mpr ⟨spelled, hspells, rfl⟩,
    Lexer.cuts_enclosed Lexer.tokensOf_openObject Lexer.tokensOf_closeObject
      (Lexer.bounded_cons (by decide) rfl) hblank hcuts⟩

/-! ## Scalars -/

theorem tells_null : Tells "null".toList .null :=
  ⟨_, .null, fun rest _ ↦ Lexer.tokensOf_null rest⟩

theorem tells_boolean (flag : Bool) :
    Tells (if flag then "true" else "false").toList (.boolean flag) := by
  cases flag with
  | false => exact ⟨_, .boolean false, fun rest _ ↦ Lexer.tokensOf_false rest⟩
  | true => exact ⟨_, .boolean true, fun rest _ ↦ Lexer.tokensOf_true rest⟩

theorem tells_string (text : String) : Tells (stringText text).toList (.string text) := by
  obtain ⟨pieces, hdecode, htokens⟩ := Lexer.exists_tokensOf_stringText text
  exact ⟨_, .string hdecode, fun rest _ ↦ htokens rest⟩

theorem tells_numeral {numeral : Numeral} (h : numeral.WellFormed) {n : Number}
    (hvalue : numeral.digits.value? = some n) : Tells numeral.chars n.toValue :=
  ⟨_, .number hvalue, fun _ hrest ↦ Lexer.tokensOf_numeral h hrest⟩

theorem tells_integer (n : Integer) : Tells (toString n.value).toList (.integer n) := by
  rw [Numeral.toList_toString_int]
  exact tells_numeral (Numeral.ofInt_wellFormed n.value) (Numeral.value?_ofInt n)

end BlockWatch.Json
