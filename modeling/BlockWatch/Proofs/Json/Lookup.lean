import BlockWatch.Json.DottedPath
import BlockWatch.Proofs.Json.Members

/-!
# What a write at a dotted path changes

A value that is written at a path is found there. A path that branches off is not affected, and
every object on the way keeps its other members. Whatever else stood on the way gives way to an
object that holds nothing but the way itself.
-/

namespace BlockWatch.Json.DottedPath

/-! ## Keys of a path -/

theorem splitAt_ne_nil (separator : Char) (cs : List Char) : splitAt separator cs ≠ [] := by
  cases cs with
  | nil => exact List.cons_ne_nil _ _
  | cons c rest =>
    rw [splitAt]
    split_ifs
    · exact List.cons_ne_nil _ _
    · cases splitAt separator rest <;> exact List.cons_ne_nil _ _

theorem splitAt_cons_of_ne {separator c : Char} (h : c ≠ separator) (rest : List Char) :
    ∃ part parts, splitAt separator rest = part :: parts ∧
      splitAt separator (c :: rest) = (c :: part) :: parts := by
  obtain ⟨part, parts, hsplit⟩ := List.exists_cons_of_ne_nil (splitAt_ne_nil separator rest)
  exact ⟨part, parts, hsplit, by rw [splitAt, if_neg h, hsplit]⟩

/-- The parts with the separator between them are the text. -/
theorem intercalate_splitAt (separator : Char) (cs : List Char) :
    [separator].intercalate (splitAt separator cs) = cs := by
  induction cs with
  | nil => rfl
  | cons c rest ih =>
    by_cases h : c = separator
    · obtain ⟨part, parts, hsplit⟩ := List.exists_cons_of_ne_nil (splitAt_ne_nil separator rest)
      rw [splitAt, if_pos h, hsplit, List.intercalate_cons_cons, ← hsplit, ih, h]
      rfl
    · obtain ⟨part, parts, hrest, hsplit⟩ := splitAt_cons_of_ne h rest
      rw [hrest] at ih
      rw [hsplit]
      cases parts with
      | nil => simpa using ih
      | cons next parts =>
        rw [List.intercalate_cons_cons] at ih ⊢
        rw [List.cons_append, List.cons_append, ih]

theorem not_mem_of_mem_splitAt {separator : Char} {cs part : List Char}
    (h : part ∈ splitAt separator cs) : separator ∉ part := by
  induction cs generalizing part with
  | nil =>
    rw [splitAt, List.mem_singleton] at h
    rw [h]
    exact List.not_mem_nil
  | cons c rest ih =>
    by_cases hc : c = separator
    · rw [splitAt, if_pos hc, List.mem_cons] at h
      rcases h with rfl | h
      · exact List.not_mem_nil
      · exact ih h
    · obtain ⟨first, parts, hrest, hsplit⟩ := splitAt_cons_of_ne hc rest
      rw [hsplit, List.mem_cons] at h
      rcases h with rfl | h
      · have hfirst : separator ∉ first := ih (by simp [hrest])
        simp [hfirst, Ne.symm hc]
      · exact ih (by simp [hrest, h])

/-- Text without separators is one part. -/
theorem splitAt_append_cons {separator : Char} {part : List Char} (h : separator ∉ part)
    (rest : List Char) :
    splitAt separator (part ++ separator :: rest) = part :: splitAt separator rest := by
  induction part with
  | nil => rw [List.nil_append, splitAt, if_pos rfl]
  | cons c part ih =>
    rw [List.mem_cons, not_or] at h
    rw [List.cons_append, splitAt, if_neg (Ne.symm h.1), ih h.2]

theorem splitAt_of_not_mem {separator : Char} {part : List Char} (h : separator ∉ part) :
    splitAt separator part = [part] := by
  induction part with
  | nil => rfl
  | cons c part ih =>
    rw [List.mem_cons, not_or] at h
    rw [splitAt, if_neg (Ne.symm h.1), ih h.2]

theorem splitAt_intercalate {separator : Char} {parts : List (List Char)} (hne : parts ≠ [])
    (h : ∀ part ∈ parts, separator ∉ part) :
    splitAt separator ([separator].intercalate parts) = parts := by
  induction parts with
  | nil => exact absurd rfl hne
  | cons part rest ih =>
    have hpart := h part List.mem_cons_self
    cases rest with
    | nil => simpa using splitAt_of_not_mem hpart
    | cons next rest =>
      have hrest := ih (List.cons_ne_nil next rest) fun other hmem ↦
        h other (List.mem_cons_of_mem part hmem)
      rw [List.intercalate_cons_cons, List.append_assoc, List.singleton_append,
        splitAt_append_cons hpart, hrest]

theorem keys_ne_nil (path : String) : keys path ≠ [] := by
  simp [keys, splitAt_ne_nil]

/-- The keys of a path are the texts without dots that make up the path with a dot between any two
of them. There is at least one, and any of them may be empty. -/
theorem keys_eq_iff {path : String} {parts : List String} :
    keys path = parts ↔
      parts ≠ [] ∧ (∀ part ∈ parts, '.' ∉ part.toList) ∧ ".".intercalate parts = path := by
  constructor
  · rintro rfl
    refine ⟨keys_ne_nil path, ?_, ?_⟩
    · intro part hpart
      obtain ⟨cs, hcs, rfl⟩ := List.mem_map.mp hpart
      rw [String.toList_ofList]
      exact not_mem_of_mem_splitAt hcs
    · rw [← String.toList_inj, String.toList_intercalate, keys, List.map_map]
      simpa [Function.comp_def] using intercalate_splitAt '.' path.toList
  · rintro ⟨hne, hparts, rfl⟩
    have hdots : ∀ cs ∈ parts.map String.toList, '.' ∉ cs := by
      intro cs hcs
      obtain ⟨part, hpart, rfl⟩ := List.mem_map.mp hcs
      exact hparts part hpart
    have hsplit := splitAt_intercalate (by simpa using hne) hdots
    rw [keys, String.toList_intercalate]
    simpa [Function.comp_def] using congrArg (List.map String.ofList) hsplit

/-! ## Steps along keys -/

/-- The members of an object; nothing else has any. -/
def membersOf : Option Value → Members
  | some (.object members) => members
  | _ => []

theorem lookupKeys_cons (key : String) (rest : List String) (members : Members) :
    lookupKeys (key :: rest) (.object members) =
      (members.find? key).bind (lookupKeys rest) := by
  rw [lookupKeys]
  cases members.find? key <;> rfl

/-- What lies below a value lies below its members. -/
theorem bind_lookupKeys {keys : List String} (h : keys ≠ []) (found : Option Value) :
    found.bind (lookupKeys keys) = lookupKeys keys (.object (membersOf found)) := by
  obtain ⟨key, rest, rfl⟩ := List.exists_cons_of_ne_nil h
  rcases found with - | value
  · rfl
  · cases value <;> rfl

theorem setKeys_singleton (value : Value) (key : String) (members : Members) :
    setKeys value [key] members = members.insert key value := rfl

/-- Writing below a key writes into the members of what stands there. -/
theorem setKeys_cons {rest : List String} (h : rest ≠ []) (value : Value) (key : String)
    (members : Members) :
    setKeys value (key :: rest) members =
      members.insert key (.object (setKeys value rest (membersOf (members.find? key)))) := by
  rw [setKeys]
  · rfl
  · exact h

/-- What a write puts at the first of its keys, where something stood or nothing. -/
def placed (value : Value) : List String → Option Value → Value
  | [], _ => value
  | key :: rest, found => .object (setKeys value (key :: rest) (membersOf found))

theorem placed_of_ne_nil {rest : List String} (h : rest ≠ []) (value : Value)
    (found : Option Value) :
    placed value rest found = .object (setKeys value rest (membersOf found)) := by
  cases rest with
  | nil => exact absurd rfl h
  | cons key rest => rfl

/-- A write is an insertion at its first key. -/
theorem setKeys_eq_insert (value : Value) (key : String) (rest : List String) (members : Members) :
    setKeys value (key :: rest) members =
      members.insert key (placed value rest (members.find? key)) := by
  cases rest with
  | nil => rfl
  | cons next rest => exact setKeys_cons (List.cons_ne_nil next rest) value key members

/-! ## Laws -/

theorem lookupKeys_setKeys_self {keys : List String} (h : keys ≠ []) (value : Value)
    (members : Members) : lookupKeys keys (.object (setKeys value keys members)) = some value := by
  induction keys generalizing members with
  | nil => exact absurd rfl h
  | cons key rest ih =>
    rw [lookupKeys_cons]
    by_cases hrest : rest = []
    · rw [hrest, setKeys_singleton, Members.find?_insert_self]
      rfl
    · rw [setKeys_cons hrest, Members.find?_insert_self, Option.bind_some]
      exact ih hrest _

/-- A write is not seen along keys that branch off. -/
theorem lookupKeys_setKeys_of_branch {keys other : List String} (hother : ¬other <+: keys)
    (hkeys : ¬keys <+: other) (value : Value) (members : Members) :
    lookupKeys other (.object (setKeys value keys members)) =
      lookupKeys other (.object members) := by
  induction keys generalizing other members with
  | nil => exact absurd List.nil_prefix hkeys
  | cons key rest ih =>
    cases other with
    | nil => exact absurd List.nil_prefix hother
    | cons first further =>
      rw [lookupKeys_cons, lookupKeys_cons]
      by_cases hfirst : first = key
      · subst hfirst
        rw [List.prefix_cons_inj] at hother hkeys
        have hrest : rest ≠ [] := fun h ↦ hkeys (h ▸ List.nil_prefix)
        have hfurther : further ≠ [] := fun h ↦ hother (h ▸ List.nil_prefix)
        rw [setKeys_cons hrest, Members.find?_insert_self, Option.bind_some,
          ih hother hkeys, bind_lookupKeys hfurther]
      · by_cases hrest : rest = []
        · rw [hrest, setKeys_singleton, Members.find?_insert_of_ne hfirst]
        · rw [setKeys_cons hrest, Members.find?_insert_of_ne hfirst]

/-- On the way to a write stands an object that keeps its other members. -/
theorem exists_lookupKeys_setKeys (front : List String) (next : String) (rest : List String)
    (value : Value) (members : Members) :
    ∃ inner : Members, lookupKeys front (.object (setKeys value (front ++ next :: rest) members)) =
        some (.object inner) ∧
      inner.without next = (membersOf (lookupKeys front (.object members))).without next := by
  induction front generalizing members with
  | nil =>
    refine ⟨_, rfl, ?_⟩
    by_cases hrest : rest = []
    · rw [hrest, List.nil_append, setKeys_singleton, Members.without_insert]
      rfl
    · rw [List.nil_append, setKeys_cons hrest, Members.without_insert]
      rfl
  | cons key front ih =>
    have hrest : front ++ next :: rest ≠ [] := by simp
    obtain ⟨inner, hlookup, hwithout⟩ := ih (membersOf (members.find? key))
    refine ⟨inner, ?_, ?_⟩
    · rw [lookupKeys_cons, List.cons_append, setKeys_cons hrest, Members.find?_insert_self,
        Option.bind_some]
      exact hlookup
    · rw [hwithout, lookupKeys_cons]
      by_cases hfront : front = []
      · rw [hfront]
        cases members.find? key with
        | none => rfl
        | some found => cases found <;> rfl
      · rw [bind_lookupKeys hfront]

/-- A write leaves no trace of an earlier one below the same keys. -/
theorem setKeys_setKeys_of_prefix {keys longer : List String} (hne : keys ≠ [])
    (h : keys <+: longer) (value later : Value) (members : Members) :
    setKeys later keys (setKeys value longer members) = setKeys later keys members := by
  induction keys generalizing longer members with
  | nil => exact absurd rfl hne
  | cons key rest ih =>
    obtain ⟨more, rfl⟩ := h
    simp only [List.cons_append, setKeys_eq_insert, Members.find?_insert_self,
      Members.insert_insert]
    by_cases hrest : rest = []
    · subst hrest
      rfl
    · have hlonger : rest ++ more ≠ [] := by simp [hrest]
      simp only [placed_of_ne_nil hrest, placed_of_ne_nil hlonger, membersOf,
        ih hrest (List.prefix_append rest more)]

/-- Only the last of two writes at the same keys counts. -/
theorem setKeys_setKeys (keys : List String) (value later : Value) (members : Members) :
    setKeys later keys (setKeys value keys members) = setKeys later keys members := by
  cases keys with
  | nil => rfl
  | cons key rest =>
    exact setKeys_setKeys_of_prefix (List.cons_ne_nil key rest) List.prefix_rfl value later members

/-- Paths of which neither leads to or through the other. -/
def Apart (path other : String) : Prop := ¬keys path <+: keys other ∧ ¬keys other <+: keys path

theorem lookup_setAll_of_apart {changes : List (String × Value)} {path : String}
    (h : ∀ change ∈ changes, Apart change.1 path) (members : Members) :
    lookup (setAll members changes) path = lookup members path := by
  induction changes generalizing members with
  | nil => rfl
  | cons change rest ih =>
    obtain ⟨hchange, hrest⟩ := List.forall_mem_cons.mp h
    calc
      lookup (setAll members (change :: rest)) path =
          lookup (set members change.1 change.2) path := ih hrest _
      _ = lookup members path :=
        lookupKeys_setKeys_of_branch hchange.2 hchange.1 change.2 members

/-- A value is found if no later change interferes. -/
theorem lookup_setAll_append_cons {after : List (String × Value)} {path : String}
    (h : ∀ change ∈ after, Apart change.1 path) (before : List (String × Value)) (value : Value)
    (members : Members) :
    lookup (setAll members (before ++ (path, value) :: after)) path = some value := by
  have hsplit : setAll members (before ++ (path, value) :: after) =
      setAll (set (setAll members before) path value) after := List.foldl_append
  rw [hsplit, lookup_setAll_of_apart h]
  exact lookupKeys_setKeys_self (keys_ne_nil path) value _

/-- Changes that do not interfere are all found. -/
theorem lookup_setAll_of_mem {changes : List (String × Value)}
    (hapart : changes.Pairwise fun a b ↦ Apart a.1 b.1) {change : String × Value}
    (hmem : change ∈ changes) (members : Members) :
    lookup (setAll members changes) change.1 = some change.2 := by
  obtain ⟨before, after, rfl⟩ := List.append_of_mem hmem
  have hlater := (List.pairwise_cons.mp (List.pairwise_append.mp hapart).2.1).1
  exact lookup_setAll_append_cons (fun later h ↦ (hlater later h).symm) before change.2 members

/-- After a write at a path the value is found there; all that branches off is as before; on the way
stand objects whose other members are those that were there before, if there was an object; and a
later write at the same path leaves no trace of the earlier one. -/
theorem lookup_set_laws (members : Members) (path : String) (value : Value) :
    lookup (set members path value) path = some value ∧
      (∀ other, ¬keys other <+: keys path → ¬keys path <+: keys other →
        lookup (set members path value) other = lookup members other) ∧
      (∀ front next rest, keys path = front ++ next :: rest →
        ∃ inner : Members,
          lookupKeys front (.object (set members path value)) = some (.object inner) ∧
          inner.without next =
            (membersOf (lookupKeys front (.object members))).without next) ∧
      ∀ later, set (set members path value) path later = set members path later := by
  refine ⟨?_, ?_, ?_, ?_⟩
  · exact lookupKeys_setKeys_self (keys_ne_nil path) value members
  · intro other hother hpath
    exact lookupKeys_setKeys_of_branch hother hpath value members
  · intro front next rest hkeys
    rw [set, hkeys]
    exact exists_lookupKeys_setKeys front next rest value members
  · intro later
    exact setKeys_setKeys (keys path) value later members

/-- A number on the way becomes an object, and what branches off before it stays. -/
theorem lookup_set_laws_of_number_on_the_way :
    let members : Members := [("net", .object [("", .null), ("rpc", .boolean true)])]
    ¬keys "net." <+: keys "net.rpc.addr" ∧ ¬keys "net.rpc.addr" <+: keys "net." ∧
      lookup (set members "net.rpc.addr" (.string "a")) "net.rpc.addr" = some (.string "a") ∧
      lookup (set members "net.rpc.addr" (.string "a")) "net." = some .null ∧
      ∃ inner : Members, lookupKeys ["net", "rpc"]
          (.object (set members "net.rpc.addr" (.string "a"))) = some (.object inner) ∧
        inner.without "addr" = [] := by
  intro members
  have hother : ¬keys "net." <+: keys "net.rpc.addr" := by decide +kernel
  have hpath : ¬keys "net.rpc.addr" <+: keys "net." := by decide +kernel
  have hkeys : keys "net.rpc.addr" = ["net", "rpc"] ++ "addr" :: [] := by decide +kernel
  obtain ⟨hself, hbranch, hway, -⟩ := lookup_set_laws members "net.rpc.addr" (.string "a")
  exact ⟨hother, hpath, hself, hbranch "net." hother hpath, hway _ _ _ hkeys⟩

end BlockWatch.Json.DottedPath
