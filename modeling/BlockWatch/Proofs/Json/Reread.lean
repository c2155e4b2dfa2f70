import BlockWatch.Json.Reader
import BlockWatch.Proofs.Json.Shape
import BlockWatch.Proofs.Json.Written

/-!
# Reading what was written

The pretty text of a value is read back, and so is the compact one. Only a floating point number may
come back as another number, since its digits are rounded anew, so a value without any is read back
as it was. The keys of all objects have to ascend, as they do in whatever was read before, and no
more arrays and objects may lie in each other than a reader keeps open.
-/

namespace BlockWatch.Json

/-! ## What comes back -/

/-- What is read from the text of a floating point number. -/
def rereadFloat : Binary64 → Value
  | .finite negative units _ =>
    match (Numeral.ofUnits negative units).digits.value? with
    | some n => n.toValue
    | none => .null
  | _ => .null

mutual

/-- What is read from the text of a value. -/
def Value.reread : Value → Value
  | .float x => rereadFloat x
  | .array items => .array (rereadItems items)
  | .object members => .object (rereadMembers members)
  | value => value

def rereadItems : List Value → List Value
  | [] => []
  | item :: rest => item.reread :: rereadItems rest

def rereadMembers : List (String × Value) → List (String × Value)
  | [] => []
  | (key, value) :: rest => (key, value.reread) :: rereadMembers rest

end

theorem rereadItems_eq (items : List Value) : rereadItems items = items.map Value.reread := by
  induction items with
  | nil => rfl
  | cons item rest ih => rw [rereadItems, ih, List.map_cons]

theorem rereadMembers_eq (members : Members) :
    rereadMembers members = members.map fun member ↦ (member.1, member.2.reread) := by
  induction members with
  | nil => rfl
  | cons member rest ih => rw [rereadMembers, ih, List.map_cons]

theorem Value.reread_array (items : List Value) :
    (Value.array items).reread = .array (items.map Value.reread) := by
  rw [Value.reread, rereadItems_eq]

theorem Value.reread_object (members : Members) : (Value.object members).reread =
    .object (members.map fun member ↦ (member.1, member.2.reread)) := by
  rw [Value.reread, rereadMembers_eq]

/-- Without floating point numbers everything comes back as it was. -/
theorem Value.reread_of_exact {value : Value} (h : value.Exact) : value.reread = value := by
  induction value using Value.inductionOn with
  | null => rfl
  | boolean flag => rfl
  | integer n => rfl
  | float x => exact absurd (all_iff.mp h).1 id
  | string text => rfl
  | array items ih =>
    rw [reread_array]
    congr 1
    have hitems := (all_array_iff.mp h).2
    calc
      items.map reread = items.map id :=
        List.map_congr_left fun item hitem ↦ ih item hitem (hitems item hitem)
      _ = items := List.map_id items
  | object members ih =>
    have hmembers := (all_object_iff.mp h).2
    rw [reread_object]
    congr 1
    calc
      members.map (fun member ↦ (member.1, member.2.reread)) = members.map id :=
        List.map_congr_left fun member hmember ↦ by
          rw [ih member hmember (hmembers member hmember)]
          rfl
      _ = members := List.map_id members

theorem exists_rereadFloat {x : Binary64} (h : x.isFinite = true) :
    ∃ n : Number, rereadFloat x = n.toValue := by
  cases x with
  | nan | infinite => cases h
  | finite negative units fits =>
    obtain ⟨n, hn⟩ := Option.isSome_iff_exists.mp (Numeral.isSome_value?_ofUnits negative fits)
    exact ⟨n, by rw [rereadFloat, hn]⟩

theorem isContainer_rereadFloat (x : Binary64) : (rereadFloat x).isContainer = false := by
  have hnumber (n : Number) : n.toValue.isContainer = false := by cases n <;> rfl
  unfold rereadFloat
  split
  · split
    · exact hnumber _
    · rfl
  · rfl

theorem Value.Ordered.reread {value : Value} (h : value.Ordered) : value.reread.Ordered := by
  have hscalar {scalar : Value} (hscalar : scalar.isContainer = false) : scalar.Ordered := by
    refine all_of_not_isContainer hscalar ?_
    cases scalar with
    | object members => exact absurd hscalar (by simp [isContainer])
    | _ => trivial
  induction value using Value.inductionOn with
  | null | boolean | integer | string => exact hscalar rfl
  | float x => exact hscalar (isContainer_rereadFloat x)
  | array items ih =>
    rw [reread_array]
    refine all_array_iff.mpr ⟨trivial, List.forall_mem_map.mpr fun item hitem ↦ ?_⟩
    exact ih item hitem ((all_array_iff.mp h).2 item hitem)
  | object members ih =>
    obtain ⟨hascend, hmembers⟩ := ordered_object_iff.mp h
    rw [reread_object]
    refine ordered_object_iff.mpr ⟨List.pairwise_map.mpr hascend, ?_⟩
    exact List.forall_mem_map.mpr fun member hmember ↦ ih member hmember (hmembers member hmember)

theorem Value.Nests.reread {value : Value} {levels : ℕ} (h : value.Nests levels) :
    value.reread.Nests levels := by
  induction value using Value.inductionOn generalizing levels with
  | null | boolean | integer | string => exact .scalar rfl
  | float x => exact .scalar (isContainer_rereadFloat x)
  | array items ih =>
    obtain ⟨inner, rfl⟩ := h.pos rfl
    rw [reread_array]
    refine nests_array_iff.mpr (List.forall_mem_map.mpr fun item hitem ↦ ?_)
    exact ih item hitem (nests_array_iff.mp h item hitem)
  | object members ih =>
    obtain ⟨inner, rfl⟩ := h.pos rfl
    rw [reread_object]
    refine nests_object_iff.mpr (List.forall_mem_map.mpr fun member hmember ↦ ?_)
    exact ih member hmember (nests_object_iff.mp h member hmember)

theorem Members.find?_reread (key : String) (members : Members) :
    Members.find? key (members.map fun member ↦ (member.1, member.2.reread)) =
      (Members.find? key members).map Value.reread := by
  induction members with
  | nil => rfl
  | cons member rest ih =>
    rw [List.map_cons, Members.find?, Members.find?]
    split_ifs
    · rfl
    · exact ih

/-- What is found is read again as well. -/
theorem lookupKeys_reread (keys : List String) (value : Value) :
    DottedPath.lookupKeys keys value.reread =
      (DottedPath.lookupKeys keys value).map Value.reread := by
  induction keys generalizing value with
  | nil => rfl
  | cons key rest ih =>
    cases value with
    | object members =>
      rw [Value.reread_object, DottedPath.lookupKeys_cons, DottedPath.lookupKeys_cons,
        Members.find?_reread]
      cases Members.find? key members with
      | none => rfl
      | some found => exact ih found
    | float x =>
      have hscalar := isContainer_rereadFloat x
      rw [Value.reread]
      generalize rereadFloat x = read at hscalar ⊢
      cases read with
      | object members => exact absurd hscalar (by simp [Value.isContainer])
      | _ => rfl
    | array items =>
      rw [Value.reread_array]
      rfl
    | _ => rfl

/-! ## Texts -/

theorem tells_float (x : Binary64) : Tells (floatText x).toList (rereadFloat x) := by
  cases x with
  | nan negative payload => exact tells_null
  | infinite negative => exact tells_null
  | finite negative units fits =>
    obtain ⟨n, hn⟩ := Option.isSome_iff_exists.mp (Numeral.isSome_value?_ofUnits negative fits)
    rw [Numeral.toList_floatText, rereadFloat, hn]
    exact tells_numeral (Numeral.ofUnits_wellFormed negative fits) hn

theorem toList_prettyItems (depth : ℕ) (items : List Value) :
    (prettyItems depth items).toList = [','].intercalate
      (items.map fun item ↦ (lineBreak depth).toList ++ (prettyAt depth item).toList) := by
  induction items with
  | nil => rw [prettyItems]; rfl
  | cons item more ih =>
    cases more with
    | nil => simp [prettyItems]
    | cons second more =>
      rw [prettyItems]
      · rw [String.toList_append, ih]
        simp
      · exact List.cons_ne_nil _ _

theorem toList_compactItems (items : List Value) : (compactItems items).toList =
    [','].intercalate (items.map fun item ↦ item.compact.toList) := by
  induction items with
  | nil => rw [compactItems]; rfl
  | cons item more ih =>
    cases more with
    | nil => simp [compactItems]
    | cons second more =>
      rw [compactItems]
      · rw [String.toList_append, ih]
        simp
      · exact List.cons_ne_nil _ _

theorem toList_prettyMembers (depth : ℕ) (members : Members) :
    (prettyMembers depth members).toList = [','].intercalate
      (members.map fun member ↦ (lineBreak depth).toList ++ ((stringText member.1).toList ++
        ':' :: ([' '] ++ (prettyAt depth member.2).toList))) := by
  induction members with
  | nil => rw [prettyMembers]; rfl
  | cons member more ih =>
    cases more with
    | nil => simp [prettyMembers]
    | cons second more =>
      rw [prettyMembers]
      · rw [String.toList_append, ih]
        simp
      · exact List.cons_ne_nil _ _

theorem toList_compactMembers (members : Members) : (compactMembers members).toList =
    [','].intercalate (members.map fun member ↦
      [] ++ ((stringText member.1).toList ++ ':' :: ([] ++ member.2.compact.toList))) := by
  induction members with
  | nil => rw [compactMembers]; rfl
  | cons member more ih =>
    cases more with
    | nil => simp [compactMembers]
    | cons second more =>
      rw [compactMembers]
      · rw [String.toList_append, ih]
        simp
      · exact List.cons_ne_nil _ _

theorem forall₂_map_same {α β γ : Type} {r : β → γ → Prop} {f : α → β} {g : α → γ} {as : List α}
    (h : ∀ a ∈ as, r (f a) (g a)) : List.Forall₂ r (as.map f) (as.map g) :=
  List.forall₂_map_left_iff.mpr (List.forall₂_map_right_iff.mpr (List.forall₂_same.mpr h))

/-- The pretty text tells what comes back. -/
theorem tells_prettyAt (depth : ℕ) (value : Value) :
    Tells (prettyAt depth value).toList value.reread := by
  induction value using Value.inductionOn generalizing depth with
  | null => rw [prettyAt]; exact tells_null
  | boolean flag => rw [prettyAt]; exact tells_boolean flag
  | integer n => rw [prettyAt]; exact tells_integer n
  | float x => rw [prettyAt]; exact tells_float x
  | string text => rw [prettyAt]; exact tells_string text
  | array items ih =>
    have hitems := forall₂_map_same fun item hitem ↦
      (ih item hitem (depth + 1)).after_blank (Lexer.blank_lineBreak (depth + 1))
    rw [Value.reread_array]
    cases items with
    | nil =>
      rw [prettyAt]
      exact tells_array hitems Lexer.blank_nil
    | cons item more =>
      have htells := tells_array hitems (Lexer.blank_lineBreak depth)
      rw [← toList_prettyItems] at htells
      rw [prettyAt]
      simpa using htells
  | object members ih =>
    have hmembers : List.Forall₂ TellsMember
        (members.map fun member ↦ (lineBreak (depth + 1)).toList ++ ((stringText member.1).toList ++
          ':' :: ([' '] ++ (prettyAt (depth + 1) member.2).toList)))
        (members.map fun member ↦ (member.1, member.2.reread)) :=
      forall₂_map_same fun member hmember ↦ tellsMember (ih member hmember (depth + 1))
        (Lexer.blank_lineBreak (depth + 1)) Lexer.blank_space
    rw [Value.reread_object]
    cases members with
    | nil =>
      rw [prettyAt]
      exact tells_object hmembers Lexer.blank_nil
    | cons member more =>
      have htells := tells_object hmembers (Lexer.blank_lineBreak depth)
      rw [← toList_prettyMembers] at htells
      rw [prettyAt]
      simpa using htells

/-- So does the compact text. -/
theorem tells_compact (value : Value) : Tells value.compact.toList value.reread := by
  induction value using Value.inductionOn with
  | null => rw [Value.compact]; exact tells_null
  | boolean flag => rw [Value.compact]; exact tells_boolean flag
  | integer n => rw [Value.compact]; exact tells_integer n
  | float x => rw [Value.compact]; exact tells_float x
  | string text => rw [Value.compact]; exact tells_string text
  | array items ih =>
    have htells := tells_array (forall₂_map_same ih) Lexer.blank_nil
    rw [← toList_compactItems, ← Value.reread_array] at htells
    rw [Value.compact]
    simpa using htells
  | object members ih =>
    have hmembers : List.Forall₂ TellsMember
        (members.map fun member ↦
          [] ++ ((stringText member.1).toList ++ ':' :: ([] ++ member.2.compact.toList)))
        (members.map fun member ↦ (member.1, member.2.reread)) :=
      forall₂_map_same fun member hmember ↦ tellsMember (ih member hmember)
        Lexer.blank_nil Lexer.blank_nil
    have htells := tells_object hmembers Lexer.blank_nil
    rw [← toList_compactMembers, ← Value.reread_object] at htells
    rw [Value.compact]
    simpa using htells

/-! ## Reading -/

namespace Expecting

theorem steps_cons {state next : Expecting} {token : Token} (h : state.step token = pure next)
    (rest : List Token) : steps state (token :: rest) = steps next rest := by
  rw [steps, h]
  rfl

/-- A state that reads a value as the state does that expects one inside `stack`. -/
def ReadsValue (state : Expecting) (stack : List Frame) : Prop :=
  ∀ token, token ≠ .closeArray → state.step token = (value stack).step token

theorem readsValue_value (stack : List Frame) : (value stack).ReadsValue stack :=
  fun _ _ ↦ rfl

theorem readsValue_firstItem (stack : List Frame) :
    (firstItem stack).ReadsValue (.array [] :: stack) := by
  intro token htoken
  cases token with
  | closeArray => exact absurd rfl htoken
  | _ => rfl

/-- A state that reads a key as the state does that expects a further key. -/
def ReadsKey (state : Expecting) (members : Members) (stack : List Frame) : Prop :=
  ∀ token, token ≠ .closeObject → state.step token = (key members stack).step token

theorem readsKey_key (members : Members) (stack : List Frame) :
    (key members stack).ReadsKey members stack :=
  fun _ _ ↦ rfl

theorem readsKey_firstKey (stack : List Frame) : (firstKey stack).ReadsKey [] stack := by
  intro token htoken
  cases token with
  | closeObject => exact absurd rfl htoken
  | _ => rfl

variable {state : Expecting} {stack : List Frame}

theorem steps_number (h : state.ReadsValue stack) {text : NumberText} {n : Number}
    (hvalue : text.value? = some n) (rest : List Token) :
    steps state (.number text :: rest) = steps (after n.toValue stack) rest := by
  apply steps_cons
  rw [h _ (by simp)]
  have hstep : (value stack).step (.number text) =
      numberOf text >>= fun n ↦ pure (after n.toValue stack) :=
    bind_congr fun n ↦ by cases n <;> rfl
  rw [hstep, numberOf, hvalue]
  rfl

theorem steps_string (h : state.ReadsValue stack) {pieces : List Piece} {text : String}
    (hdecode : Piece.decode false pieces = some text.toList) (rest : List Token) :
    steps state (.string pieces :: rest) = steps (after (.string text) stack) rest := by
  apply steps_cons
  rw [h _ (by simp)]
  have hstep : (value stack).step (.string pieces) =
      (do pure (after (.string (← stringOf pieces)) stack)) := rfl
  rw [hstep, stringOf, hdecode]
  simp only [String.ofList_toList, pure_bind]

theorem steps_key {members : Members} (h : state.ReadsKey members stack) {text : MemberText}
    {name : String} (hnamed : text.Named name) (rest : List Token) :
    steps state (text.tokens ++ rest) =
      steps (value (.object members name :: stack)) (text.value ++ rest) := by
  have hstep : (key members stack).step (.string text.key) =
      (do pure (.colon members (← stringOf text.key) stack)) := rfl
  have hkey : state.step (.string text.key) = pure (.colon members name stack) := by
    rw [h _ (by simp), hstep, stringOf, hnamed]
    simp only [String.ofList_toList, pure_bind]
  rw [MemberText.tokens, List.cons_append, steps_cons hkey]
  exact steps_cons rfl _

theorem steps_scalar {read : Value} {spelled : List Token} (h : Spells read spelled)
    (hscalar : read.isContainer = false) (hstate : state.ReadsValue stack) (rest : List Token) :
    steps state (spelled ++ rest) = steps (after read stack) rest := by
  cases h with
  | null => exact steps_cons (hstate _ (by decide)) rest
  | boolean flag => exact steps_cons (hstate _ (by simp)) rest
  | number hvalue => exact steps_number hstate hvalue rest
  | string hdecode => exact steps_string hstate hdecode rest
  | array => exact absurd hscalar (by simp [Value.isContainer])
  | object => exact absurd hscalar (by simp [Value.isContainer])

/-- What a state that reads values makes of the tokens of a value, whatever follows. -/
def Takes (read : Value) (spelled : List Token) : Prop :=
  ∀ {state : Expecting} {stack : List Frame} {levels : ℕ} (rest : List Token),
    state.ReadsValue stack → read.Nests levels → stack.length + levels ≤ depthLimit →
    read.Ordered → steps state (spelled ++ rest) = steps (after read stack) rest

theorem steps_items {items : List Value} {texts : List (List Token)}
    (h : List.Forall₂ Takes items texts) {levels : ℕ} (hnests : ∀ item ∈ items, item.Nests levels)
    (hordered : ∀ item ∈ items, item.Ordered) (hroom : stack.length + 1 + levels ≤ depthLimit)
    (hne : items ≠ []) (done : List Value) (hstate : state.ReadsValue (.array done :: stack))
    (rest : List Token) :
    steps state ([.comma].intercalate texts ++ .closeArray :: rest) =
      steps (after (.array (done.reverse ++ items)) stack) rest := by
  induction h generalizing state done with
  | nil => exact absurd rfl hne
  | @cons item text more texts hitem hmore ih =>
    obtain ⟨hnestsItem, hnestsMore⟩ := List.forall_mem_cons.mp hnests
    obtain ⟨horderedItem, horderedMore⟩ := List.forall_mem_cons.mp hordered
    cases hmore with
    | nil =>
      rw [List.intercalate_singleton, hitem _ hstate hnestsItem hroom horderedItem, after,
        steps_cons rfl, List.reverse_cons]
    | cons =>
      rw [List.intercalate_cons_cons, List.append_assoc, List.append_assoc,
        hitem _ hstate hnestsItem hroom horderedItem, after, List.singleton_append, steps_cons rfl,
        ih hnestsMore horderedMore (List.cons_ne_nil _ _) _ (readsValue_value _)]
      simp

theorem steps_members {members : Members} {texts : List MemberText}
    (hkeys : List.Forall₂ (fun member text ↦ MemberText.Named text member.1) members texts)
    (h : List.Forall₂ (fun member text ↦ Takes member.2 text.value) members texts) {levels : ℕ}
    (hnests : ∀ member ∈ members, member.2.Nests levels)
    (hordered : ∀ member ∈ members, member.2.Ordered)
    (hroom : stack.length + 1 + levels ≤ depthLimit) (hne : members ≠ [])
    (hascend : members.Pairwise (·.1 < ·.1)) (done : Members)
    (hdone : ∀ early ∈ done, ∀ member ∈ members, early.1 < member.1)
    (hstate : state.ReadsKey done stack) (rest : List Token) :
    steps state ([.comma].intercalate (texts.map MemberText.tokens) ++ .closeObject :: rest) =
      steps (after (.object (done ++ members)) stack) rest := by
  induction h generalizing state done with
  | nil => exact absurd rfl hne
  | @cons member text more texts hmember hmore ih =>
    obtain ⟨hnestsMember, hnestsMore⟩ := List.forall_mem_cons.mp hnests
    obtain ⟨horderedMember, horderedMore⟩ := List.forall_mem_cons.mp hordered
    obtain ⟨hfirst, hascendMore⟩ := List.pairwise_cons.mp hascend
    obtain ⟨hkey, hkeysMore⟩ := List.forall₂_cons.mp hkeys
    have hinside : (Frame.object done member.1 :: stack).length + levels ≤ depthLimit := by
      rw [List.length_cons]
      exact hroom
    have hstart (others : List Token) : steps state (text.tokens ++ others) =
        steps (.more (.object (done ++ [member]) member.1) stack) others := by
      have hinsert : done.insert member.1 member.2 = done ++ [member] :=
        Members.insert_of_lt fun early hearly ↦ hdone early hearly _ List.mem_cons_self
      rw [steps_key hstate hkey, hmember _ (readsValue_value _) hnestsMember hinside horderedMember,
        after, hinsert]
    have hdoneMore : ∀ early ∈ done ++ [member], ∀ later ∈ more, early.1 < later.1 := by
      intro early hearly later hlater
      rcases List.mem_append.mp hearly with hearly | hearly
      · exact hdone early hearly later (List.mem_cons_of_mem _ hlater)
      · rw [List.mem_singleton.mp hearly]
        exact hfirst later hlater
    cases hmore with
    | nil =>
      rw [List.map_singleton, List.intercalate_singleton, hstart, steps_cons rfl]
    | cons =>
      rw [List.map_cons, List.map_cons, List.intercalate_cons_cons, List.append_assoc,
        List.append_assoc, hstart, List.singleton_append, steps_cons rfl, ← List.map_cons,
        ih hkeysMore hnestsMore horderedMore (List.cons_ne_nil _ _) hascendMore _ hdoneMore
          (readsKey_key _ _)]
      simp

theorem takes_array {items : List Value} {texts : List (List Token)}
    (h : List.Forall₂ Takes items texts) : Takes (.array items) (arrayTokens texts) := by
  intro state stack levels rest hstate hnests hroom hordered
  obtain ⟨inner, rfl⟩ := hnests.pos rfl
  have hopen : state.step .openArray = pure (firstItem stack) := by
    have hstep : (value stack).step .openArray =
      if stack.length < depthLimit then pure (firstItem stack) else fail .syntaxError := rfl
    rw [hstate _ (by decide), hstep, if_pos (by omega)]
  rw [arrayTokens, List.cons_append, List.append_assoc, steps_cons hopen, List.singleton_append]
  by_cases hempty : items = []
  · subst hempty
    cases h
    exact steps_cons rfl rest
  · exact steps_items h (Value.nests_array_iff.mp hnests) (Value.all_array_iff.mp hordered).2
      (by omega) hempty [] (readsValue_firstItem stack) rest

theorem takes_object {members : Members} {texts : List MemberText}
    (hkeys : List.Forall₂ (fun member text ↦ MemberText.Named text member.1) members texts)
    (h : List.Forall₂ (fun member text ↦ Takes member.2 text.value) members texts) :
    Takes (.object members) (objectTokens texts) := by
  intro state stack levels rest hstate hnests hroom hordered
  obtain ⟨inner, rfl⟩ := hnests.pos rfl
  have hopen : state.step .openObject = pure (firstKey stack) := by
    have hstep : (value stack).step .openObject =
      if stack.length < depthLimit then pure (firstKey stack) else fail .syntaxError := rfl
    rw [hstate _ (by decide), hstep, if_pos (by omega)]
  obtain ⟨hascend, horderedMembers⟩ := Value.ordered_object_iff.mp hordered
  rw [objectTokens, List.cons_append, List.append_assoc, steps_cons hopen, List.singleton_append]
  by_cases hempty : members = []
  · subst hempty
    cases h
    exact steps_cons rfl rest
  · exact steps_members hkeys h (Value.nests_object_iff.mp hnests) horderedMembers (by omega)
      hempty hascend [] (fun _ h ↦ absurd h List.not_mem_nil) (readsKey_firstKey stack) rest

/-- The tokens of a value are read as the value. -/
theorem takes_of_spells {read : Value} {spelled : List Token} (h : Spells read spelled) :
    Takes read spelled := by
  induction read using Value.inductionOn generalizing spelled with
  | null | boolean | integer | float | string =>
    intro state stack levels rest hstate hnests hroom hordered
    exact steps_scalar h rfl hstate rest
  | array items ih =>
    obtain ⟨texts, htexts, rfl⟩ := spells_array_iff.mp h
    exact takes_array (forall₂_imp_of_mem htexts fun item hitem _ hspells ↦ ih item hitem hspells)
  | object members ih =>
    obtain ⟨texts, htexts, rfl⟩ := spells_object_iff.mp h
    exact takes_object (htexts.imp fun _ _ hspells ↦ hspells.1)
      (forall₂_imp_of_mem htexts fun member hmember _ hspells ↦ ih member hmember hspells.2)

end Expecting

/-- A text is read as the value that it tells. -/
theorem Value.ofText_of_tells {text : String} {read : Value} (h : Tells text.toList read)
    (hordered : read.Ordered) (hnests : read.Nests depthLimit) : ofText text = .ok read := by
  obtain ⟨spelled, hspells, hcuts⟩ := h
  have hroom : ([] : List Frame).length + depthLimit ≤ depthLimit := (Nat.zero_add _).le
  have hsteps := Expecting.takes_of_spells hspells [] (Expecting.readsValue_value []) hnests hroom
    hordered
  rw [List.append_nil] at hsteps
  rw [ofText, tokens, hcuts.tokensOf, hsteps]
  rfl

/-- The text of a value is read back. -/
theorem Value.ofText_pretty {value : Value} (hordered : value.Ordered)
    (hnests : value.Nests depthLimit) : Value.ofText value.pretty = .ok value.reread :=
  ofText_of_tells (tells_prettyAt 0 value) hordered.reread hnests.reread

end BlockWatch.Json
