import BlockWatch.Json.Decode
import Mathlib.Data.List.Forall2

/-!
# Values as tokens

A value is one token if it holds no others, and otherwise the tokens of its items or members with
commas between them. Every such list of tokens can be skipped, whatever its numbers and strings are;
`Spells` says which value it stands for.
-/

namespace BlockWatch.Json

/-- A member of an object as it is written: the pieces of its key and the tokens of its value. -/
structure MemberText where
  key : List Piece
  value : List Token

namespace MemberText

def tokens (member : MemberText) : List Token := .string member.key :: .colon :: member.value

/-- The key is that name, in whatever way it is written. -/
def Named (member : MemberText) (name : String) : Prop :=
  Piece.decode false member.key = some name.toList

theorem Named.inj {member : MemberText} {name other : String} (h : member.Named name)
    (h' : member.Named other) : name = other := by
  have hlists : name.toList = other.toList := Option.some.inj (h.symm.trans h')
  exact String.toList_inj.mp hlists

/-- A member whose key is written without escapes. -/
def plain (name : String) (value : List Token) : MemberText := ⟨name.toList.map .char, value⟩

theorem named_plain (name : String) (value : List Token) : (plain name value).Named name := by
  have hdecode (cs : List Char) : Piece.decode false (cs.map .char) = some cs := by
    induction cs with
    | nil => rfl
    | cons c cs ih =>
      rw [List.map_cons, Piece.decode, ih]
      rfl
  exact hdecode name.toList

end MemberText

def arrayTokens (items : List (List Token)) : List Token :=
  .openArray :: ([.comma].intercalate items ++ [.closeArray])

def objectTokens (members : List MemberText) : List Token :=
  .openObject :: ([.comma].intercalate (members.map MemberText.tokens) ++ [.closeObject])

/-- The tokens of one value. -/
inductive IsValue : List Token → Prop
  | null : IsValue [.null]
  | boolean (flag : Bool) : IsValue [.boolean flag]
  | number (text : NumberText) : IsValue [.number text]
  | string (pieces : List Piece) : IsValue [.string pieces]
  | array {items : List (List Token)} (h : ∀ item ∈ items, IsValue item) :
    IsValue (arrayTokens items)
  | object {members : List MemberText} (h : ∀ member ∈ members, IsValue member.value) :
    IsValue (objectTokens members)

def Number.toValue : Number → Value
  | integer n => .integer n
  | float x => .float x

/-- The tokens of a value. The members of an object are in the order of the text. -/
inductive Spells : Value → List Token → Prop
  | null : Spells .null [.null]
  | boolean (flag : Bool) : Spells (.boolean flag) [.boolean flag]
  | number {text : NumberText} {n : Number} (h : text.value? = some n) :
    Spells n.toValue [.number text]
  | string {pieces : List Piece} {text : String}
    (h : Piece.decode false pieces = some text.toList) : Spells (.string text) [.string pieces]
  | array {values : List Value} {items : List (List Token)} (h : List.Forall₂ Spells values items) :
    Spells (.array values) (arrayTokens items)
  | object {members : Members} {texts : List MemberText}
    (hkeys : List.Forall₂ (fun member text ↦ MemberText.Named text member.1) members texts)
    (hvalues : List.Forall₂ (fun member text ↦ Spells member.2 text.value) members texts) :
    Spells (.object members) (objectTokens texts)

/-- The member of an object with its key and its value. -/
def MemberText.Spells (text : MemberText) (member : String × Value) : Prop :=
  text.Named member.1 ∧ Json.Spells member.2 text.value

theorem forall₂_and {α β : Type} {p q : α → β → Prop} {as : List α} {bs : List β}
    (h : List.Forall₂ p as bs) (h' : List.Forall₂ q as bs) :
    List.Forall₂ (fun a b ↦ p a b ∧ q a b) as bs := by
  induction h with
  | nil => exact .nil
  | cons hfirst _ ih =>
    cases h' with
    | cons hsecond hrest => exact .cons ⟨hfirst, hsecond⟩ (ih hrest)

theorem forall₂_imp_of_mem {α β : Type} {p q : α → β → Prop} {as : List α} {bs : List β}
    (h : List.Forall₂ p as bs) (himp : ∀ a ∈ as, ∀ b, p a b → q a b) : List.Forall₂ q as bs := by
  induction h with
  | nil => exact .nil
  | cons hfirst _ ih =>
    obtain ⟨himpFirst, himpMore⟩ := List.forall_mem_cons.mp himp
    exact .cons (himpFirst _ hfirst) (ih himpMore)

theorem spells_array_iff {items : List Value} {spelled : List Token} :
    Spells (.array items) spelled ↔
      ∃ texts, List.Forall₂ Spells items texts ∧ spelled = arrayTokens texts := by
  constructor
  · intro h
    generalize hvalue : Value.array items = value at h
    cases h with
    | array hitems =>
      obtain rfl := Value.array.inj hvalue
      exact ⟨_, hitems, rfl⟩
    | @number _ n _ => cases n <;> cases hvalue
    | _ => cases hvalue
  · rintro ⟨texts, htexts, rfl⟩
    exact .array htexts

theorem spells_object_iff {members : Members} {spelled : List Token} :
    Spells (.object members) spelled ↔
      ∃ texts, List.Forall₂ (fun member text ↦ MemberText.Spells text member) members texts ∧
        spelled = objectTokens texts := by
  constructor
  · intro h
    generalize hvalue : Value.object members = value at h
    cases h with
    | object hkeys hvalues =>
      obtain rfl := Value.object.inj hvalue
      exact ⟨_, forall₂_and hkeys hvalues, rfl⟩
    | @number _ n _ => cases n <;> cases hvalue
    | _ => cases hvalue
  · rintro ⟨texts, htexts, rfl⟩
    exact .object (htexts.imp fun _ _ h ↦ h.1) (htexts.imp fun _ _ h ↦ h.2)

/-! ## Skipping -/

/-- A list with separators starts with its first part. -/
theorem exists_intercalate_cons {α : Type} (separator first : List α) (more : List (List α)) :
    ∃ tail, separator.intercalate (first :: more) = first ++ tail := by
  cases more with
  | nil => exact ⟨[], by rw [List.intercalate_singleton, List.append_nil]⟩
  | cons second more => exact ⟨_, by rw [List.intercalate_cons_cons, List.append_assoc]⟩

theorem IsValue.exists_cons {spelled : List Token} (h : IsValue spelled) :
    ∃ token rest, spelled = token :: rest ∧ token ≠ .closeArray ∧ token ≠ .comma := by
  cases h <;> exact ⟨_, _, rfl, by simp, by simp⟩

/-- A value that starts with a single token is no more than that token. -/
theorem IsValue.eq_nil_of_single {token : Token} {more : List Token}
    (h : IsValue (token :: more)) (hsingle : IsValue [token]) : more = [] := by
  have harray (items : List (List Token)) : [token] ≠ arrayTokens items := fun heq ↦ by
    simp [arrayTokens] at heq
  have hobject (members : List MemberText) : [token] ≠ objectTokens members := fun heq ↦ by
    simp [objectTokens] at heq
  generalize hspelled : [token] = spelled at hsingle
  cases hsingle with
  | array => exact absurd hspelled (harray _)
  | object => exact absurd hspelled (hobject _)
  | _ =>
    cases hspelled
    cases h
    rfl

namespace Decoder.Skipping

/-- Goes on after a value. -/
def resume (open_ : List Bool) (rest : List Token) : Result (List Token) :=
  match after open_ with
  | none => pure rest
  | some state => run state rest

variable {state next : Skipping} {token : Token} {open_ : List Bool}

theorem run_cons (h : state.step token = pure (some next)) (rest : List Token) :
    run state (token :: rest) = run next rest := by
  rw [run, h]
  rfl

theorem run_last (h : state.step token = pure (after open_)) (rest : List Token) :
    run state (token :: rest) = resume open_ rest := by
  rw [run, h]
  cases open_ <;> rfl

/-- The first item is read like any other. -/
theorem run_firstItem {spelled : List Token} (h : IsValue spelled) (rest : List Token) :
    run (.firstItem open_) (spelled ++ rest) = run (.value (false :: open_)) (spelled ++ rest) := by
  obtain ⟨token, more, rfl, htoken, -⟩ := h.exists_cons
  have hstep : (firstItem open_).step token = (value (false :: open_)).step token := by
    cases token with
    | closeArray => exact absurd rfl htoken
    | _ => rfl
  rw [List.cons_append, run, run, hstep]

theorem run_items {items : List (List Token)} (hne : items ≠ [])
    (h : ∀ item ∈ items, ∀ open_ rest, run (.value open_) (item ++ rest) = resume open_ rest)
    (open_ : List Bool) (rest : List Token) :
    run (.value (false :: open_)) ([.comma].intercalate items ++ .closeArray :: rest) =
      resume open_ rest := by
  induction items with
  | nil => exact absurd rfl hne
  | cons item more ih =>
    obtain ⟨hitem, hmore⟩ := List.forall_mem_cons.mp h
    cases more with
    | nil =>
      rw [List.intercalate_singleton, hitem]
      exact run_last rfl rest
    | cons second more =>
      rw [List.intercalate_cons_cons, List.append_assoc, List.append_assoc, hitem]
      exact (run_cons rfl _).trans (ih (List.cons_ne_nil _ _) hmore)

theorem run_members {members : List MemberText} (hne : members ≠ [])
    (h : ∀ member ∈ members, ∀ open_ rest,
      run (.value open_) (member.value ++ rest) = resume open_ rest)
    (hstate : ∀ pieces, state.step (.string pieces) = pure (some (.colon open_)))
    (rest : List Token) :
    run state ([.comma].intercalate (members.map MemberText.tokens) ++ .closeObject :: rest) =
      resume open_ rest := by
  induction members generalizing state with
  | nil => exact absurd rfl hne
  | cons member more ih =>
    obtain ⟨hmember, hmore⟩ := List.forall_mem_cons.mp h
    have hstart (after : List Token) : run state (member.tokens ++ after) =
        resume (true :: open_) after := by
      rw [MemberText.tokens, List.cons_append, List.cons_append, run_cons (hstate _)]
      exact (run_cons rfl _).trans (hmember _ _)
    cases more with
    | nil =>
      rw [List.map_singleton, List.intercalate_singleton, hstart]
      exact run_last rfl rest
    | cons second more =>
      rw [List.map_cons, List.map_cons, List.intercalate_cons_cons, List.append_assoc,
        List.append_assoc, hstart]
      exact (run_cons rfl _).trans (ih (List.cons_ne_nil _ _) hmore fun _ ↦ rfl)

/-- A value is skipped to its end. -/
theorem run_value {spelled : List Token} (h : IsValue spelled) (open_ : List Bool)
    (rest : List Token) : run (.value open_) (spelled ++ rest) = resume open_ rest := by
  induction h generalizing open_ rest with
  | null | boolean | number | string => exact run_last rfl rest
  | @array items hitems ih =>
    rw [arrayTokens, List.cons_append, List.append_assoc, run_cons rfl]
    by_cases hne : items = []
    · subst hne
      exact run_last rfl rest
    · obtain ⟨first, more, rfl⟩ := List.exists_cons_of_ne_nil hne
      have hsame := run_items hne ih open_ rest
      obtain ⟨tail, htail⟩ := exists_intercalate_cons [Token.comma] first more
      rw [htail, List.append_assoc] at hsame ⊢
      rw [← hsame]
      exact run_firstItem (hitems first List.mem_cons_self) _
  | @object members hmembers ih =>
    rw [objectTokens, List.cons_append, List.append_assoc, run_cons rfl]
    by_cases hne : members = []
    · subst hne
      exact run_last rfl rest
    · exact run_members hne ih (fun _ ↦ rfl) rest

end Decoder.Skipping

theorem Decoder.skip_value {spelled : List Token} (h : IsValue spelled) (rest : List Token) :
    skip (spelled ++ rest) = .ok rest :=
  Skipping.run_value h [] rest

end BlockWatch.Json
