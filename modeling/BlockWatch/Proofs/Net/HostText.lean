import BlockWatch.Net.AddressReader
import Mathlib.Data.Nat.Digits.Defs

/-!
# Hosts from their text

The text of a host is read back as the host: octets and groups are read to the end of their digits,
groups up to the double colon or the end, and the zero groups that the text leaves out are put
back where they were.
-/

namespace BlockWatch.Net

namespace Reader

/-! ## Numbers -/

/-- Numbers of that base end before the text. -/
def Ends (base : ℕ) (rest : List Char) : Prop := ∀ c ∈ rest.head?, digit? base c = none

theorem digit?_digitChar : ∀ base ≤ 16, ∀ d < base, digit? base (Nat.digitChar d) = some d := by
  decide

theorem length_filterMap_digit? {base : ℕ} {cs : List Char}
    (h : ∀ c ∈ cs, (digit? base c).isSome = true) :
    (cs.filterMap (digit? base)).length = cs.length := by
  induction cs with
  | nil => rfl
  | cons c cs ih =>
    obtain ⟨hc, hcs⟩ := List.forall_mem_cons.mp h
    obtain ⟨d, hd⟩ := Option.isSome_iff_exists.mp hc
    rw [List.filterMap_cons_some hd, List.length_cons, List.length_cons, ih hcs]

theorem takeWhile_digit? {base : ℕ} {cs rest : List Char}
    (h : ∀ c ∈ cs, (digit? base c).isSome = true) (hrest : Ends base rest) :
    (cs ++ rest).takeWhile (fun c ↦ (digit? base c).isSome) = cs := by
  rw [List.takeWhile_append_of_pos h]
  cases rest with
  | nil => exact List.append_nil cs
  | cons c rest =>
    rw [List.takeWhile_cons, hrest c rfl]
    exact List.append_nil cs

/-- What the reader of numbers accepts. -/
theorem number_of_digits {base : ℕ} {width : Option ℕ} {leadingZero : Bool} {limit : ℕ}
    {s : List Char} {found : List ℕ} (hfound : digits base s = found) (hne : found ≠ [])
    (hwidth : ∀ most ∈ width, found.length ≤ most)
    (hleading : found.head? = some 0 → found.length ≤ 1)
    (hlimit : found.foldl (fun n d ↦ n * base + d) 0 < limit) :
    number base width leadingZero limit s =
      some (found.foldl (fun n d ↦ n * base + d) 0, s.drop found.length) := by
  have hempty : found.isEmpty = false := List.isEmpty_eq_false_iff.mpr hne
  have hzeros : (!leadingZero && found.head? == some 0 && decide (1 < found.length)) = false := by
    by_cases hzero : found.head? = some 0
    · rw [decide_eq_false (Nat.not_lt.mpr (hleading hzero)), Bool.and_false]
    · rw [beq_false_of_ne hzero, Bool.and_false, Bool.false_and]
  have hvalue : ¬limit ≤ found.foldl (fun n d ↦ n * base + d) 0 := Nat.not_le.mpr hlimit
  unfold number
  cases width with
  | none =>
    simp only [hfound, hempty, hzeros, if_neg hvalue, Bool.or_self, Bool.false_eq_true, if_false]
  | some most =>
    have hnarrow : decide (most < found.length) = false :=
      decide_eq_false (Nat.not_lt.mpr (hwidth most rfl))
    simp only [hfound, hempty, hzeros, hnarrow, if_neg hvalue, Bool.or_self, Bool.false_eq_true,
      if_false]

section Digits

variable {base : ℕ} (hbase : 1 < base) (hmost : base ≤ 16)
include hbase hmost

theorem isSome_digit?_toDigits (n : ℕ) :
    ∀ c ∈ Nat.toDigits base n, (digit? base c).isSome = true := by
  induction n using Nat.strong_induction_on with
  | _ n ih =>
    have hdigit (d : ℕ) (hd : d < base) : (digit? base (Nat.digitChar d)).isSome = true := by
      rw [digit?_digitChar base hmost d hd]
      rfl
    rw [Nat.toDigits_eq_if hbase]
    split_ifs with hsmall
    · exact List.forall_mem_singleton.mpr (hdigit n hsmall)
    · refine List.forall_mem_append.mpr ⟨ih _ ?_, List.forall_mem_singleton.mpr (hdigit _ ?_)⟩
      · exact Nat.div_lt_self (by omega) hbase
      · exact Nat.mod_lt n (by omega)

theorem foldl_toDigits (n : ℕ) :
    ((Nat.toDigits base n).filterMap (digit? base)).foldl (fun n d ↦ n * base + d) 0 = n := by
  induction n using Nat.strong_induction_on with
  | _ n ih =>
    rw [Nat.toDigits_eq_if hbase]
    split_ifs with hsmall
    · simp [digit?_digitChar base hmost n hsmall]
    · have hlast : n % base < base := Nat.mod_lt n (by omega)
      rw [List.filterMap_append, List.foldl_append, ih _ (Nat.div_lt_self (by omega) hbase)]
      simp [digit?_digitChar base hmost _ hlast, Nat.div_add_mod']

/-- Only zero is written with a leading zero. -/
theorem eq_zero_of_head?_toDigits (n : ℕ)
    (h : ((Nat.toDigits base n).filterMap (digit? base)).head? = some 0) : n = 0 := by
  induction n using Nat.strong_induction_on with
  | _ n ih =>
    rw [Nat.toDigits_eq_if hbase] at h
    split_ifs at h with hsmall
    · simpa [digit?_digitChar base hmost n hsmall] using h
    · have hlength := length_filterMap_digit? (isSome_digit?_toDigits hbase hmost (n / base))
      have hne : (Nat.toDigits base (n / base)).filterMap (digit? base) ≠ [] := by
        rw [← List.length_pos_iff, hlength]
        exact Nat.length_toDigits_pos
      rw [List.filterMap_append, List.head?_append, List.head?_eq_some_head hne, Option.some_or,
        ← List.head?_eq_some_head hne] at h
      have hpos : 0 < n / base := Nat.div_pos (by omega) (by omega)
      exact absurd (ih _ (Nat.div_lt_self (by omega) hbase) h) hpos.ne'

/-- The digits of a number are read as the number, up to where they end. -/
theorem number_toDigits {width : Option ℕ} (leadingZero : Bool) {limit n : ℕ} (hlimit : n < limit)
    (hwidth : ∀ most ∈ width, 0 < most ∧ n < base ^ most) {rest : List Char}
    (hrest : Ends base rest) :
    number base width leadingZero limit (Nat.toDigits base n ++ rest) = some (n, rest) := by
  have hsome := isSome_digit?_toDigits hbase hmost n
  have hlength := length_filterMap_digit? hsome
  have hdigits : digits base (Nat.toDigits base n ++ rest) =
      (Nat.toDigits base n).filterMap (digit? base) := by
    rw [digits, takeWhile_digit? hsome hrest]
  have hvalue := foldl_toDigits hbase hmost n
  rw [number_of_digits hdigits, hvalue, hlength, List.drop_left]
  · rw [← List.length_pos_iff, hlength]
    exact Nat.length_toDigits_pos
  · intro most hmem
    obtain ⟨hpos, hn⟩ := hwidth most hmem
    exact hlength.trans_le ((Nat.length_toDigits_le_iff hbase hpos).mpr hn)
  · intro hzero
    rw [hlength, eq_zero_of_head?_toDigits hbase hmost n hzero, Nat.toDigits_zero]
    exact le_rfl
  · exact hvalue.trans_lt hlimit

end Digits

/-! ## IPv4 -/

theorem toList_toString_byte (n : UInt8) : (toString n).toList = Nat.toDigits 10 n.toNat := by
  change (toString n.toNat).toList = _
  rw [Nat.toString_eq_ofList_toDigits, String.toList_ofList]

theorem octet_text (n : UInt8) {rest : List Char} (hrest : Ends 10 rest) :
    number 10 (some 3) false 256 ((toString n).toList ++ rest) = some (n.toNat, rest) := by
  have hn : n.toNat < 256 := n.toNat_lt
  rw [toList_toString_byte]
  refine number_toDigits (by decide) (by decide) false hn (fun most hmost ↦ ?_) hrest
  cases hmost
  exact ⟨by decide, hn.trans (by decide)⟩

theorem ends_cons {base : ℕ} {c : Char} (h : digit? base c = none) (rest : List Char) :
    Ends base (c :: rest) := by
  intro d hd
  cases hd
  exact h

theorem ipv4_text (a : Ipv4) {rest : List Char} (hrest : Ends 10 rest) :
    ipv4 (a.text.toList ++ rest) = some (a, rest) := by
  have hdot (s : List Char) : Ends 10 ('.' :: s) := ends_cons rfl s
  have htext : a.text.toList ++ rest = (toString a.first).toList ++ '.' ::
      ((toString a.second).toList ++ '.' :: ((toString a.third).toList ++ '.' ::
        ((toString a.fourth).toList ++ rest))) := by
    simp [Ipv4.text]
  rw [htext, ipv4]
  simp only [octet_text _ (hdot _), octet_text _ hrest, char, Option.bind_eq_bind, Option.bind_some,
    if_pos, UInt8.ofNat_toNat]
  rfl

theorem ipv4_whole (a : Ipv4) : ipv4 a.text.toList = some (a, []) := by
  have hread := ipv4_text a (show Ends 10 [] from fun _ h ↦ nomatch h)
  rwa [List.append_nil] at hread

/-- What the reader of numbers leaves. -/
theorem number_eq_some {base : ℕ} {width : Option ℕ} {leadingZero : Bool} {limit n : ℕ}
    {s rest : List Char} (h : number base width leadingZero limit s = some (n, rest)) :
    rest = s.dropWhile fun c ↦ (digit? base c).isSome := by
  have hdrop : rest = s.drop (digits base s).length := by
    unfold number at h
    simp only at h
    split_ifs at h
    exact (congrArg Prod.snd (Option.some.inj h)).symm
  have hall : ∀ c ∈ s.takeWhile fun c ↦ (digit? base c).isSome, (digit? base c).isSome = true :=
    fun c hc ↦ List.all_eq_true.mp List.all_takeWhile c hc
  rw [hdrop, digits, length_filterMap_digit? hall]
  nth_rewrite 2 [← List.takeWhile_append_dropWhile (p := fun c ↦ (digit? base c).isSome) (l := s)]
  exact List.drop_left

theorem char_eq_some {c : Char} {s rest : List Char} {u : Unit} (h : char c s = some (u, rest)) :
    s.head? = some c := by
  cases s with
  | nil => cases h
  | cons d s =>
    rw [char] at h
    split_ifs at h with hc
    rw [hc, List.head?_cons]

/-- There is no IPv4 host where no dot follows the first digits. -/
theorem ipv4_eq_none {s : List Char}
    (h : ∀ c ∈ (s.dropWhile fun c ↦ (digit? 10 c).isSome).head?, c ≠ '.') : ipv4 s = none := by
  rw [ipv4]
  cases hoctet : number 10 (some 3) false 256 s with
  | none => rfl
  | some found =>
    obtain ⟨n, rest⟩ := found
    cases hdot : char '.' rest with
    | none => simp only [Option.bind_eq_bind, Option.bind_some, hdot, Option.bind_none]
    | some found =>
      have hhead := char_eq_some hdot
      rw [number_eq_some hoctet] at hhead
      exact absurd rfl (h '.' hhead)

/-! ## Groups -/

/-- The rest of a text that goes on with a colon, if it goes on. -/
def Colon (rest : List Char) : Prop := ∀ c ∈ rest.head?, c = ':'

theorem colon_nil : Colon [] := fun _ h ↦ nomatch h

theorem colon_cons (rest : List Char) : Colon (':' :: rest) := fun _ h ↦ (Option.some.inj h).symm

theorem Colon.ends {rest : List Char} (h : Colon rest) {base : ℕ} : Ends base rest := by
  intro c hc
  rw [h c hc]
  rfl

theorem group_text (g : UInt16) {rest : List Char} (hrest : Colon rest) :
    number 16 (some 4) true 65536 (Nat.toDigits 16 g.toNat ++ rest) = some (g.toNat, rest) := by
  have hg : g.toNat < 65536 := g.toNat_lt
  refine number_toDigits (by decide) (by decide) true hg (fun most hmost ↦ ?_) hrest.ends
  cases hmost
  exact ⟨by decide, hg⟩

/-- The digits of a group are no IPv4 host. -/
theorem ipv4_group {cs rest : List Char} (hcs : ∀ c ∈ cs, (digit? 16 c).isSome = true)
    (hrest : Colon rest) : ipv4 (cs ++ rest) = none := by
  apply ipv4_eq_none
  induction cs with
  | nil =>
    cases rest with
    | nil => exact fun c hc ↦ nomatch hc
    | cons c rest =>
      obtain rfl : c = ':' := hrest c rfl
      intro d hd
      obtain rfl : ':' = d := Option.some.inj hd
      decide
  | cons c cs ih =>
    obtain ⟨hc, hmore⟩ := List.forall_mem_cons.mp hcs
    rw [List.cons_append, List.dropWhile_cons]
    split_ifs
    · exact ih hmore
    · intro d hd
      obtain rfl : c = d := Option.some.inj hd
      rintro rfl
      cases hc

/-- Groups with colons between them, and one before the first unless they start the text. -/
def groupChars (first : Bool) : List UInt16 → List Char
  | [] => []
  | g :: gs => (if first then [] else [':']) ++ (Nat.toDigits 16 g.toNat ++ groupChars false gs)

/-- No groups start here. -/
def Halts (rest : List Char) : Prop := ∀ first room, groups first room rest = ([], false, rest)

theorem groups_of_none {first : Bool} {s : List Char} (hipv4 : separated first ipv4 s = none)
    (hgroup : separated first (number 16 (some 4) true 65536) s = none) (room : ℕ) :
    groups first room s = ([], false, s) := by
  cases room with
  | zero => rfl
  | succ room =>
    rw [groups, hipv4, hgroup]
    simp only [ite_self]

theorem halts_nil : Halts [] := by
  intro first
  cases first <;> exact groups_of_none rfl rfl

theorem halts_colons (rest : List Char) : Halts (':' :: ':' :: rest) := by
  intro first
  cases first <;> exact groups_of_none rfl rfl

theorem separated_mark {α : Type} (first : Bool) (inner : Reader α) (s : List Char) :
    separated first inner ((if first then [] else [':']) ++ s) = inner s := by
  cases first <;> rfl

theorem groups_cons (first : Bool) (g : UInt16) (room : ℕ) {rest : List Char} (hrest : Colon rest) :
    groups first (room + 1) ((if first then [] else [':']) ++ (Nat.toDigits 16 g.toNat ++ rest)) =
      (g :: (groups false room rest).1, (groups false room rest).2) := by
  have hipv4 := ipv4_group (isSome_digit?_toDigits (by decide) le_rfl g.toNat) hrest
  rw [groups, separated_mark, separated_mark, hipv4, group_text g hrest]
  simp only [ite_self, UInt16.ofNat_toNat]

/-- An IPv4 host in place of the last two groups. -/
theorem groups_ipv4 {first : Bool} {s rest : List Char} {a : Ipv4}
    (h : separated first ipv4 s = some (a, rest)) (room : ℕ) :
    groups first (room + 2) s = ([a.first.toUInt16 * 256 + a.second.toUInt16,
      a.third.toUInt16 * 256 + a.fourth.toUInt16], true, rest) := by
  rw [groups, if_neg (Nat.succ_ne_zero room), h]

theorem colon_groupChars (gs : List UInt16) {rest : List Char} (hrest : Colon rest) :
    Colon (groupChars false gs ++ rest) := by
  cases gs with
  | nil => exact hrest
  | cons g gs => exact colon_cons _

/-- The groups of a text are read up to where no more start. -/
theorem groups_groupChars {gs : List UInt16} {room : ℕ} (hroom : gs.length ≤ room) (first : Bool)
    {rest : List Char} (hrest : Colon rest) (hhalts : Halts rest) :
    groups first room (groupChars first gs ++ rest) = (gs, false, rest) := by
  induction gs generalizing first room with
  | nil => exact hhalts first room
  | cons g gs ih =>
    obtain ⟨fewer, rfl⟩ := Nat.exists_eq_add_of_lt hroom
    rw [groupChars, List.append_assoc, List.append_assoc, groups_cons _ _ _
      (colon_groupChars gs hrest), ih (Nat.le_add_right _ _) false]

/-! ## IPv6 -/

theorem ofGroups?_toList (a : Ipv6) : ofGroups? a.groups.toList = some a := by
  rw [ofGroups?, dif_pos a.groups.length_toList]
  rfl

theorem ipv6_whole (a : Ipv6) : ipv6 (groupChars true a.groups.toList) = some (a, []) := by
  have hlength : a.groups.toList.length = 8 := a.groups.length_toList
  have hgroups := groups_groupChars hlength.le true colon_nil halts_nil
  rw [List.append_nil] at hgroups
  rw [ipv6, hgroups]
  simp only [if_pos hlength, ofGroups?_toList]
  rfl

/-- The zero groups that were left out are put back. -/
theorem ipv6_of_groups {a : Ipv6} {head tail : List UInt16} {zeros : ℕ} {embedded : Bool}
    {s more rest : List Char} (hhead : groups true 8 s = (head, false, ':' :: ':' :: more))
    (htail : groups true (8 - (head.length + 1)) more = (tail, embedded, rest))
    (hzeros : 0 < zeros) (hgroups : head ++ List.replicate zeros 0 ++ tail = a.groups.toList) :
    ipv6 s = some (a, rest) := by
  have hlength : head.length + zeros + tail.length = 8 := by
    rw [← a.groups.length_toList, ← hgroups, List.length_append, List.length_append,
      List.length_replicate]
  have hmissing : 8 - head.length - tail.length = zeros := by omega
  rw [ipv6, hhead]
  simp only [if_neg (show ¬head.length = 8 by omega), char, Bool.false_eq_true, if_false, if_pos,
    Option.bind_eq_bind, Option.bind_some, htail, hmissing, hgroups, ofGroups?_toList]
  rfl

theorem ipv6_short {a : Ipv6} {head tail : List UInt16} {zeros : ℕ} (hzeros : 0 < zeros)
    (hgroups : head ++ List.replicate zeros 0 ++ tail = a.groups.toList) :
    ipv6 (groupChars true head ++ ':' :: ':' :: groupChars true tail) = some (a, []) := by
  have hlength : head.length + zeros + tail.length = 8 := by
    rw [← a.groups.length_toList, ← hgroups, List.length_append, List.length_append,
      List.length_replicate]
  have hhead : groups true 8 (groupChars true head ++ ':' :: ':' :: groupChars true tail) =
      (head, false, ':' :: ':' :: groupChars true tail) :=
    groups_groupChars (by omega) true (colon_cons _) (halts_colons _)
  have htail : groups true (8 - (head.length + 1)) (groupChars true tail) = (tail, false, []) := by
    rw [← List.append_nil (groupChars true tail)]
    exact groups_groupChars (by omega) true colon_nil halts_nil
  exact ipv6_of_groups hhead htail hzeros hgroups

theorem join_bytes (g : UInt16) : (g >>> 8).toUInt8.toUInt16 * 256 + g.toUInt8.toUInt16 = g := by
  have hg := g.toNat_lt
  apply UInt16.toNat_inj.mp
  simp [UInt16.toNat_add, UInt16.toNat_mul, Nat.shiftRight_eq_div_pow]
  omega

theorem ipv6_embedded {a : Ipv6} {inner : Ipv4} (h : a.embedded? = some inner) :
    ipv6 ("::ffff:" ++ inner.text).toList = some (a, []) := by
  rw [Ipv6.embedded?] at h
  split at h
  · rename_i high low hgroups
    have hmark : "::ffff:".toList =
        [':', ':'] ++ (Nat.toDigits 16 (0xffff : UInt16).toNat ++ [':']) := by decide +kernel
    have htext : ("::ffff:" ++ inner.text).toList =
        ':' :: ':' :: (Nat.toDigits 16 (0xffff : UInt16).toNat ++ ':' :: inner.text.toList) := by
      rw [String.toList_append, hmark, List.append_assoc, List.append_assoc]
      simp only [List.cons_append, List.nil_append]
    have hinner : separated false ipv4 (':' :: inner.text.toList) = some (inner, []) :=
      (separated_mark false ipv4 _).trans (ipv4_whole inner)
    have hhigh : inner.first.toUInt16 * 256 + inner.second.toUInt16 = high := by
      rw [← Option.some.inj h]
      exact join_bytes high
    have hlow : inner.third.toUInt16 * 256 + inner.fourth.toUInt16 = low := by
      rw [← Option.some.inj h]
      exact join_bytes low
    have hlast : groups false 6 (':' :: inner.text.toList) = ([high, low], true, []) := by
      rw [groups_ipv4 hinner 4, hhigh, hlow]
    have htail : groups true 7 ([] ++ (Nat.toDigits 16 (0xffff : UInt16).toNat ++
        ':' :: inner.text.toList)) = ([0xffff, high, low], true, []) :=
      (groups_cons true 0xffff 6 (colon_cons inner.text.toList)).trans (by rw [hlast])
    have hzeros : [] ++ List.replicate 5 0 ++ [0xffff, high, low] = a.groups.toList := hgroups.symm
    rw [htext]
    rw [List.nil_append] at htail
    exact ipv6_of_groups (halts_colons _ true 8) htail (by decide) hzeros
  · cases h

end Reader

namespace Ipv6

/-! ## Zero groups -/

theorem append_of_le_leadingZeros {groups : List UInt16} {zeros : ℕ}
    (h : zeros ≤ leadingZeros groups) : List.replicate zeros 0 ++ groups.drop zeros = groups := by
  induction groups generalizing zeros with
  | nil =>
    obtain rfl := Nat.le_zero.mp h
    rfl
  | cons g groups ih =>
    cases zeros with
    | zero => rfl
    | succ zeros =>
      rw [leadingZeros, List.takeWhile_cons] at h
      split_ifs at h with hzero
      · rw [List.replicate_succ, List.cons_append, List.drop_succ_cons,
          ih (Nat.le_of_succ_le_succ h), beq_iff_eq.mp hzero]
      · cases h

theorem longestZeros_le (groups : List UInt16) :
    (longestZeros groups).2 ≤ leadingZeros (groups.drop (longestZeros groups).1) := by
  have hfound (best : ℕ × ℕ) (hbest : best.2 ≤ leadingZeros (groups.drop best.1)) (start : ℕ) :
      (if best.2 < leadingZeros (groups.drop start) then (start, leadingZeros (groups.drop start))
        else best).2 ≤
      leadingZeros (groups.drop (if best.2 < leadingZeros (groups.drop start)
        then (start, leadingZeros (groups.drop start)) else best).1) := by
    split_ifs
    · exact le_rfl
    · exact hbest
  have hstart : ((0, 0) : ℕ × ℕ).2 ≤ leadingZeros (groups.drop ((0, 0) : ℕ × ℕ).1) := Nat.zero_le _
  exact List.foldlRecOn (motive := fun best ↦ best.2 ≤ leadingZeros (groups.drop best.1)) _ _
    hstart fun best hbest start _ ↦ hfound best hbest start

/-- The longest run of zero groups stands where it was found. -/
theorem append_longestZeros (groups : List UInt16) :
    groups.take (longestZeros groups).1 ++ List.replicate (longestZeros groups).2 0 ++
      groups.drop ((longestZeros groups).1 + (longestZeros groups).2) = groups := by
  rw [List.append_assoc, ← List.drop_drop, append_of_le_leadingZeros (longestZeros_le groups),
    List.take_append_drop]

/-! ## Text -/

theorem toList_groups (groups : List UInt16) :
    (":".intercalate (groups.map fun g ↦ String.ofList (Nat.toDigits 16 g.toNat))).toList =
      Reader.groupChars true groups := by
  have hlist : [':'].intercalate (groups.map fun g ↦ Nat.toDigits 16 g.toNat) =
      Reader.groupChars true groups := by
    induction groups with
    | nil => rfl
    | cons g groups ih =>
      cases groups with
      | nil => simp [Reader.groupChars]
      | cons second groups =>
        rw [List.map_cons] at ih ⊢
        rw [List.map_cons, List.intercalate_cons_cons, ih]
        simp [Reader.groupChars]
  rw [String.toList_intercalate, List.map_map, ← hlist]
  congr 1
  exact List.map_congr_left fun g _ ↦ String.toList_ofList

theorem toList_text {a : Ipv6} (h : a.embedded? = none) : a.text.toList =
    if 1 < (longestZeros a.groups.toList).2 then
      Reader.groupChars true (a.groups.toList.take (longestZeros a.groups.toList).1) ++
        ':' :: ':' :: Reader.groupChars true (a.groups.toList.drop
          ((longestZeros a.groups.toList).1 + (longestZeros a.groups.toList).2))
    else Reader.groupChars true a.groups.toList := by
  rw [text, h]
  simp only
  split_ifs
  · rw [String.toList_append, String.toList_append, ← toList_groups, ← toList_groups,
      List.append_assoc]
    rfl
  · rw [← toList_groups]
    rfl

end Ipv6

namespace Reader

theorem ipv4_groupChars (gs : List UInt16) {rest : List Char} (hrest : Colon rest) :
    ipv4 (groupChars true gs ++ rest) = none := by
  cases gs with
  | nil => exact ipv4_group (fun _ h ↦ absurd h List.not_mem_nil) hrest
  | cons g gs =>
    rw [groupChars, if_pos rfl, List.nil_append, List.append_assoc]
    exact ipv4_group (isSome_digit?_toDigits (by decide) le_rfl g.toNat) (colon_groupChars gs hrest)

/-- The text of an IPv6 host is not taken for an IPv4 host. -/
theorem ipv4_text_v6 (a : Ipv6) : ipv4 a.text.toList = none := by
  cases h : a.embedded? with
  | some inner =>
    rw [Ipv6.text, h]
    simp only [String.toList_append]
    exact ipv4_groupChars [] (colon_cons _)
  | none =>
    rw [Ipv6.toList_text h]
    split_ifs
    · exact ipv4_groupChars _ (colon_cons _)
    · rw [← List.append_nil (groupChars true _)]
      exact ipv4_groupChars _ colon_nil

theorem ipv6_text (a : Ipv6) : ipv6 a.text.toList = some (a, []) := by
  cases h : a.embedded? with
  | some inner =>
    rw [Ipv6.text, h]
    exact ipv6_embedded h
  | none =>
    rw [Ipv6.toList_text h]
    split_ifs with hzeros
    · exact ipv6_short (Nat.zero_lt_of_lt hzeros) (Ipv6.append_longestZeros _)
    · exact ipv6_whole a

end Reader

/-- The text of a host is read as the host. -/
theorem Host.ofText?_text (host : Host) : ofText? host.text = some host := by
  cases host with
  | v4 a =>
    have hread : Reader.host a.text.toList = some (.v4 a, []) := by
      rw [Reader.host, Reader.ipv4_whole]
    rw [ofText?, text, Reader.whole, hread]
  | v6 a =>
    have hread : Reader.host a.text.toList = some (.v6 a, []) := by
      rw [Reader.host, Reader.ipv4_text_v6, Reader.ipv6_text]
      rfl
    rw [ofText?, text, Reader.whole, hread]

end BlockWatch.Net
