import BlockWatch.Time.Itemized
import Mathlib.Data.Nat.Digits.Defs

/-!
# Spans from their text

The text of a span lists amounts of units that add up to the span. Each amount is read and added in
turn, and no sum on the way is too large, since the last one is a span.
-/

namespace BlockWatch.Span

/-! ## Characters -/

/-- Steps one after the other. -/
theorem steps_append (reading : Reading) (offset : ℕ) (cs rest : List Char) :
    ∃ next, steps reading offset (cs ++ rest) =
      steps reading offset cs >>= fun reading ↦ steps reading next rest := by
  induction cs generalizing reading offset with
  | nil => exact ⟨offset, rfl⟩
  | cons c cs ih =>
    rw [List.cons_append, steps, steps]
    cases step reading offset c with
    | error stop => exact ⟨0, rfl⟩
    | ok reading => exact ih reading (offset + c.utf8Size)

/-- A character of the name of a unit. -/
def IsLetter (c : Char) : Prop :=
  c.isDigit = false ∧ Text.isBlank c = false ∧ (c.isAlpha || c == 'µ') = true

instance (c : Char) : Decidable (IsLetter c) := inferInstanceAs (Decidable (_ ∧ _))

variable {total : Span} {offset : ℕ} {c : Char}

theorem step_number_digit (start : ℕ) (first : Bool) (h : c.isDigit = true) :
    step ⟨total, .number start first⟩ offset c = .ok ⟨total, .whole (c.toNat - '0'.toNat)⟩ := by
  change (if c.isDigit = true then _ else _) = _
  rw [if_pos h]
  rfl

theorem step_whole_digit (amount : ℕ) (h : c.isDigit = true)
    (hword : amount * 10 + (c.toNat - '0'.toNat) < UInt64.size) :
    step ⟨total, .whole amount⟩ offset c =
      .ok ⟨total, .whole (amount * 10 + (c.toNat - '0'.toNat))⟩ := by
  change (if c.isDigit = true then
    (do pure ⟨total, .whole (← word (amount * 10 + (c.toNat - '0'.toNat)))⟩ : ReadResult Reading)
    else _) = _
  rw [if_pos h, word, if_pos hword]
  rfl

theorem step_whole_letter (amount : ℕ) (h : IsLetter c) :
    step ⟨total, .whole amount⟩ offset c = .ok ⟨total, .unit ⟨amount, none⟩ [c]⟩ := by
  change (if c.isDigit = true then _ else if Text.isBlank c = true then _
    else if (c.isAlpha || c == 'µ') = true then _ else _) = _
  rw [if_neg (by simp [h.1]), if_neg (by simp [h.2.1]), if_pos h.2.2]
  rfl

theorem step_unit_letter (amount : Amount) (letters : List Char) (h : IsLetter c) :
    step ⟨total, .unit amount letters⟩ offset c = .ok ⟨total, .unit amount (letters ++ [c])⟩ := by
  change (if c.isDigit = true then _ else if Text.isBlank c = true then _
    else if (c.isAlpha || c == 'µ') = true then _ else _) = _
  rw [if_neg (by simp [h.1]), if_neg (by simp [h.2.1]), if_pos h.2.2]
  rfl

theorem step_unit_space (amount : Amount) (letters : List Char) {sum : Span}
    (h : addAmount total amount letters = .ok sum) :
    step ⟨total, .unit amount letters⟩ offset ' ' = .ok ⟨sum, .number (offset + 1) false⟩ := by
  change (do pure ⟨← addAmount total amount letters, .number (offset + ' '.utf8Size) false⟩ :
    ReadResult Reading) = _
  rw [h]
  rfl

theorem digit_digitChar : ∀ d < 10, (Nat.digitChar d).isDigit = true ∧
    (Nat.digitChar d).toNat - '0'.toNat = d := by
  decide

theorem steps_toDigits (start : ℕ) (first : Bool) {n : ℕ} (h : n < UInt64.size) :
    steps ⟨total, .number start first⟩ offset (Nat.toDigits 10 n) = .ok ⟨total, .whole n⟩ := by
  induction n using Nat.strong_induction_on with
  | _ n ih =>
    rw [Nat.toDigits_eq_if (by decide)]
    split_ifs with hsmall
    · obtain ⟨hdigit, hvalue⟩ := digit_digitChar n hsmall
      rw [steps, step_number_digit start first hdigit, hvalue]
      rfl
    · obtain ⟨hdigit, hvalue⟩ := digit_digitChar (n % 10) (Nat.mod_lt n (by decide))
      have hsplit : n / 10 * 10 + n % 10 = n := Nat.div_add_mod' n 10
      obtain ⟨next, hsteps⟩ := steps_append ⟨total, .number start first⟩ offset
        (Nat.toDigits 10 (n / 10)) [(n % 10).digitChar]
      rw [hsteps, ih (n / 10) (by omega) (by omega)]
      change (step ⟨total, .whole (n / 10)⟩ next (n % 10).digitChar >>= fun reading ↦
        steps reading _ []) = _
      rw [step_whole_digit _ hdigit (by rw [hvalue, hsplit]; exact h), hvalue, hsplit]
      rfl

theorem steps_letters (amount : Amount) (letters : List Char) {cs : List Char}
    (h : ∀ c ∈ cs, IsLetter c) :
    steps ⟨total, .unit amount letters⟩ offset cs = .ok ⟨total, .unit amount (letters ++ cs)⟩ := by
  induction cs generalizing letters offset with
  | nil => rw [List.append_nil]; rfl
  | cons c cs ih =>
    obtain ⟨hc, hcs⟩ := List.forall_mem_cons.mp h
    rw [steps, step_unit_letter amount letters hc]
    change steps _ _ cs = _
    rw [ih _ hcs, List.append_assoc, List.singleton_append]

/-! ## Amounts -/

/-- An amount of a unit under one of its names. -/
structure Part where
  amount : ℕ
  name : String
  unit : SpanUnit

namespace Part

def chars (part : Part) : List Char := Nat.toDigits 10 part.amount ++ part.name.toList

def nanos (part : Part) : ℕ := part.amount * part.unit.nanos

end Part

/-- The name is read as the name of the unit. -/
def IsName (name : String) (unit : SpanUnit) : Prop :=
  SpanUnit.ofName? name = some unit ∧ (∀ c ∈ name.toList, IsLetter c) ∧ name.toList ≠ []

instance (name : String) (unit : SpanUnit) : Decidable (IsName name unit) :=
  decidable_of_iff (SpanUnit.ofName? name = some unit ∧
      (name.toList.all fun c ↦ decide (IsLetter c)) = true ∧ name.toList ≠ []) (by simp [IsName])

theorem steps_part {part : Part} (h : IsName part.name part.unit) (start : ℕ) (first : Bool)
    (hamount : part.amount < UInt64.size) :
    steps ⟨total, .number start first⟩ offset part.chars =
      .ok ⟨total, .unit ⟨part.amount, none⟩ part.name.toList⟩ := by
  obtain ⟨next, hsteps⟩ := steps_append ⟨total, .number start first⟩ offset
    (Nat.toDigits 10 part.amount) part.name.toList
  obtain ⟨-, hletters, hne⟩ := h
  obtain ⟨c, cs, hname⟩ := List.exists_cons_of_ne_nil hne
  rw [hname] at hletters
  obtain ⟨hc, hcs⟩ := List.forall_mem_cons.mp hletters
  rw [Part.chars, hsteps, steps_toDigits start first hamount, hname]
  change (step ⟨total, .whole part.amount⟩ next c >>= fun reading ↦ steps reading _ cs) = _
  rw [step_whole_letter _ hc]
  exact steps_letters _ [c] hcs

theorem word_eq {n : ℕ} (h : n < UInt64.size) : word n = pure n := if_pos h

theorem addParts_eq {sum : Span} {seconds nanos : ℕ}
    (hsum : total.nanos + seconds * nanosPerSecond + nanos = sum.nanos)
    (hnanos : nanos < nanosPerSecond) : addParts total seconds nanos = .ok sum := by
  have hsplit := total.seconds_subsecond
  have hbounded := sum.bounded
  have hsubsecond : total.subsecond < nanosPerSecond := Nat.mod_lt total.nanos (by decide)
  simp only [nanosPerSecond, limit, UInt64.size] at hsum hnanos hsplit hbounded hsubsecond
  have hsecond : total.subsecond + nanos < UInt64.size := by
    rw [UInt64.size]
    omega
  have hwhole : total.seconds + seconds < UInt64.size := by
    rw [UInt64.size]
    omega
  have hnew : ofNanos? ((total.seconds + seconds) * nanosPerSecond + (total.subsecond + nanos)) =
      some sum := by
    rw [ofNanos?_eq_some, nanosPerSecond]
    omega
  rw [addParts, word_eq hsecond, pure_bind, word_eq hwhole, pure_bind, hnew]
  rfl

theorem nanos_of_countsSeconds {unit : SpanUnit} (h : unit.countsSeconds = true) :
    unit.nanos / nanosPerSecond * nanosPerSecond = unit.nanos := by
  cases unit with
  | nano | micro | milli => cases h
  | _ => decide

theorem addWhole_eq {unit : SpanUnit} {amount : ℕ} {sum : Span}
    (hsum : total.nanos + amount * unit.nanos = sum.nanos)
    (hsmall : unit.countsSeconds = false → amount * unit.nanos < nanosPerSecond) :
    addWhole total unit amount = .ok sum := by
  cases hunit : unit.countsSeconds with
  | true =>
    have hnanos : amount * unit.nanos =
        amount * (unit.nanos / nanosPerSecond) * nanosPerSecond := by
      rw [Nat.mul_assoc, nanos_of_countsSeconds hunit]
    have hfits : amount * (unit.nanos / nanosPerSecond) < UInt64.size := by
      have hbounded : sum.nanos < UInt64.size * nanosPerSecond := sum.bounded
      rw [← hsum, hnanos] at hbounded
      exact Nat.lt_of_mul_lt_mul_right ((Nat.le_add_left _ _).trans_lt hbounded)
    rw [addWhole, if_pos hunit, word_eq hfits, pure_bind]
    exact addParts_eq (by rw [← hnanos]; exact hsum) (by decide)
  | false =>
    have hfits : amount * unit.nanos < UInt64.size := (hsmall hunit).trans (by decide)
    rw [addWhole, hunit, if_neg Bool.false_ne_true, word_eq hfits, pure_bind]
    exact addParts_eq (by rw [Nat.zero_mul]; exact hsum) (hsmall hunit)

theorem addAmount_eq {name : String} {unit : SpanUnit} (h : SpanUnit.ofName? name = some unit)
    {amount : ℕ} {sum : Span} (hsum : addWhole total unit amount = .ok sum) :
    addAmount total ⟨amount, none⟩ name.toList = .ok sum := by
  rw [addAmount, String.ofList_toList]
  simp only [h, hsum]
  rfl

/-! ## Sums -/

def nanosOf (parts : List Part) : ℕ := (parts.map Part.nanos).sum

theorem nanosOf_nil : nanosOf [] = 0 := rfl

theorem nanosOf_cons (part : Part) (parts : List Part) :
    nanosOf (part :: parts) = part.amount * part.unit.nanos + nanosOf parts := by
  rw [nanosOf, List.map_cons, List.sum_cons, Part.nanos, nanosOf]

/-- A part that `Span.itemized` may write. -/
structure Part.Valid (part : Part) : Prop where
  named : IsName part.name part.unit
  positive : 0 < part.amount
  small : part.unit.countsSeconds = false → part.nanos < nanosPerSecond

theorem Part.Valid.amount_lt {part : Part} (h : part.Valid) {sum : Span}
    (hsum : part.nanos ≤ sum.nanos) : part.amount < UInt64.size := by
  cases hunit : part.unit.countsSeconds with
  | true =>
    have hunitNanos : nanosPerSecond ≤ part.unit.nanos := by
      cases hname : part.unit with
      | nano | micro | milli =>
        rw [hname] at hunit
        cases hunit
      | _ => decide
    have hbounded : sum.nanos < UInt64.size * nanosPerSecond := sum.bounded
    have hseconds : part.amount * nanosPerSecond ≤ part.nanos := Nat.mul_le_mul_left _ hunitNanos
    exact Nat.lt_of_mul_lt_mul_right ((hseconds.trans hsum).trans_lt hbounded)
  | false =>
    have hpos : 0 < part.unit.nanos := by cases part.unit <;> decide
    have hnanos : part.amount ≤ part.nanos := Nat.le_mul_of_pos_right _ hpos
    exact (hnanos.trans_lt (h.small hunit)).trans (by decide)

/-- The parts of a text are added up. -/
theorem steps_parts {parts : List Part} (hne : parts ≠ []) (hvalid : ∀ part ∈ parts, part.Valid)
    {sum : Span} (hsum : total.nanos + nanosOf parts = sum.nanos) (start : ℕ) (first : Bool) :
    (steps ⟨total, .number start first⟩ offset ([' '].intercalate (parts.map Part.chars)) >>=
      finish) = .ok sum := by
  induction parts generalizing total offset start first with
  | nil => exact absurd rfl hne
  | cons part parts ih =>
    obtain ⟨hpart, hmore⟩ := List.forall_mem_cons.mp hvalid
    have hsplit : nanosOf (part :: parts) = part.nanos + nanosOf parts := nanosOf_cons part parts
    have hbounded : total.nanos + part.nanos < limit := by
      have := sum.bounded
      omega
    have hamount : part.amount < UInt64.size :=
      hpart.amount_lt (show part.nanos ≤ sum.nanos by omega)
    have hadd : addAmount total ⟨part.amount, none⟩ part.name.toList =
        .ok ⟨total.nanos + part.nanos, hbounded⟩ :=
      addAmount_eq hpart.named.1 (addWhole_eq rfl hpart.small)
    cases parts with
    | nil =>
      have hend : sum = ⟨total.nanos + part.nanos, hbounded⟩ := ext (by rw [← hsum, hsplit]; rfl)
      rw [List.map_singleton, List.intercalate_singleton,
        steps_part hpart.named start first hamount, hend]
      exact hadd
    | cons second parts =>
      obtain ⟨next, hsteps⟩ := steps_append ⟨total, .number start first⟩ offset part.chars
        (' ' :: [' '].intercalate ((second :: parts).map Part.chars))
      have hspace : step ⟨total, .unit ⟨part.amount, none⟩ part.name.toList⟩ next ' ' =
          .ok ⟨⟨total.nanos + part.nanos, hbounded⟩, .number (next + 1) false⟩ :=
        step_unit_space _ _ hadd
      rw [List.map_cons, List.map_cons, List.intercalate_cons_cons, List.append_assoc,
        List.singleton_append, ← List.map_cons, hsteps, steps_part hpart.named start first hamount]
      change ((step ⟨total, .unit ⟨part.amount, none⟩ part.name.toList⟩ next ' ' >>= fun reading ↦
        steps reading (next + ' '.utf8Size) _) >>= finish) = _
      rw [hspace]
      exact ih (List.cons_ne_nil _ _) hmore (by rw [← hsum, hsplit, Nat.add_assoc]) _ _

/-! ## Texts -/

/-- The amounts that make up a span, from the largest unit down. -/
def amounts (d : Span) : List Part :=
  let inYear := d.seconds % 31557600
  let inMonth := inYear % 2630016
  let inDay := inMonth % 86400
  let word (amount : ℕ) (name : String) (unit : SpanUnit) : Part :=
    ⟨amount, if 1 < amount then name ++ "s" else name, unit⟩
  [word (d.seconds / 31557600) "year" .year, word (inYear / 2630016) "month" .month,
    word (inMonth / 86400) "day" .day, ⟨inDay / 3600, "h", .hour⟩,
    ⟨inDay % 3600 / 60, "m", .minute⟩, ⟨inDay % 60, "s", .second⟩,
    ⟨d.subsecond / 1000000, "ms", .milli⟩, ⟨d.subsecond / 1000 % 1000, "us", .micro⟩,
    ⟨d.subsecond % 1000, "ns", .nano⟩]

def parts (d : Span) : List Part := d.amounts.filter (0 < ·.amount)

theorem nanosOf_filter (parts : List Part) :
    nanosOf (parts.filter (0 < ·.amount)) = nanosOf parts := by
  induction parts with
  | nil => rfl
  | cons part parts ih =>
    by_cases hpos : 0 < part.amount
    · rw [List.filter_cons_of_pos (by simpa using hpos), nanosOf_cons, nanosOf_cons, ih]
    · rw [List.filter_cons_of_neg (by simpa using hpos), nanosOf_cons, ih,
        Nat.eq_zero_of_not_pos hpos, Nat.zero_mul, Nat.zero_add]

theorem sum_of_units (n : ℕ) : n / 31557600 * 31557600 + n % 31557600 / 2630016 * 2630016 +
    n % 31557600 % 2630016 / 86400 * 86400 + n % 31557600 % 2630016 % 86400 / 3600 * 3600 +
    n % 31557600 % 2630016 % 86400 % 3600 / 60 * 60 + n % 31557600 % 2630016 % 86400 % 60 = n := by
  omega

theorem sum_of_fractions (n : ℕ) :
    n / 1000000 * 1000000 + n / 1000 % 1000 * 1000 + n % 1000 = n := by
  omega

theorem nanosOf_parts (d : Span) : nanosOf d.parts = d.nanos := by
  have hunits : SpanUnit.year.nanos = 31557600 * nanosPerSecond ∧
      SpanUnit.month.nanos = 2630016 * nanosPerSecond ∧
      SpanUnit.day.nanos = 86400 * nanosPerSecond ∧ SpanUnit.hour.nanos = 3600 * nanosPerSecond ∧
      SpanUnit.minute.nanos = 60 * nanosPerSecond ∧ SpanUnit.second.nanos = nanosPerSecond ∧
      SpanUnit.milli.nanos = 1000000 ∧ SpanUnit.micro.nanos = 1000 ∧ SpanUnit.nano.nanos = 1 :=
    ⟨rfl, rfl, rfl, rfl, rfl, rfl, rfl, rfl, rfl⟩
  obtain ⟨hyear, hmonth, hday, hhour, hminute, hsecond, hmilli, hmicro, hnano⟩ := hunits
  rw [parts, nanosOf_filter, ← d.seconds_subsecond]
  simp only [amounts, nanosOf_cons, nanosOf_nil, hyear, hmonth, hday, hhour, hminute, hsecond,
    hmilli, hmicro, hnano]
  generalize nanosPerSecond = per
  conv_rhs => rw [← sum_of_units d.seconds, ← sum_of_fractions d.subsecond]
  ring

theorem isName_word {name : String} {unit : SpanUnit} (hone : IsName name unit)
    (hmany : IsName (name ++ "s") unit) (amount : ℕ) :
    IsName (if 1 < amount then name ++ "s" else name) unit := by
  split_ifs
  · exact hmany
  · exact hone

theorem named_of_mem_amounts {d : Span} : ∀ part ∈ d.amounts, IsName part.name part.unit := by
  simp only [amounts, List.forall_mem_cons, List.not_mem_nil, false_implies, implies_true, and_true]
  refine ⟨isName_word (by decide +kernel) (by decide +kernel) _,
    isName_word (by decide +kernel) (by decide +kernel) _,
    isName_word (by decide +kernel) (by decide +kernel) _, ?_, ?_, ?_, ?_, ?_, ?_⟩
  all_goals decide +kernel

theorem small_of_mem_amounts {d : Span} : ∀ part ∈ d.amounts,
    part.unit.countsSeconds = false → part.nanos < nanosPerSecond := by
  have hsubsecond : d.subsecond < 1000000000 := Nat.mod_lt d.nanos (by decide)
  have hmilli : d.subsecond / 1000000 * SpanUnit.milli.nanos < nanosPerSecond := by
    rw [show SpanUnit.milli.nanos = 1000000 from rfl, nanosPerSecond]
    omega
  have hmicro : d.subsecond / 1000 % 1000 * SpanUnit.micro.nanos < nanosPerSecond := by
    rw [show SpanUnit.micro.nanos = 1000 from rfl, nanosPerSecond]
    omega
  have hnano : d.subsecond % 1000 * SpanUnit.nano.nanos < nanosPerSecond := by
    rw [show SpanUnit.nano.nanos = 1 from rfl, nanosPerSecond]
    omega
  simp only [amounts, List.forall_mem_cons, List.not_mem_nil, false_implies, implies_true, and_true]
  refine ⟨?_, ?_, ?_, ?_, ?_, ?_, fun _ ↦ hmilli, fun _ ↦ hmicro, fun _ ↦ hnano⟩
  all_goals exact fun hwhole ↦ absurd hwhole (by decide)

theorem valid_of_mem_parts {d : Span} : ∀ part ∈ d.parts, part.Valid := by
  intro part hpart
  obtain ⟨hmem, hpos⟩ := List.mem_filter.mp hpart
  exact ⟨named_of_mem_amounts part hmem, of_decide_eq_true hpos, small_of_mem_amounts part hmem⟩

/-- What is written for an amount, unless it is zero. -/
def written (part : Part) : List String :=
  if part.amount = 0 then [] else [toString part.amount ++ part.name]

theorem items_eq (d : Span) : d.items = (d.amounts.map written).foldl (· ++ ·) [] := rfl

theorem toList_written (part : Part) : (written part).map String.toList =
    ([part].filter (0 < ·.amount)).map Part.chars := by
  rw [written]
  split_ifs with hzero
  · simp [hzero]
  · simp [Nat.pos_of_ne_zero hzero, Part.chars]

theorem foldl_written (parts : List Part) (before : List String) :
    ((parts.map written).foldl (· ++ ·) before).map String.toList =
      before.map String.toList ++ (parts.filter (0 < ·.amount)).map Part.chars := by
  induction parts generalizing before with
  | nil => simp
  | cons part parts ih =>
    rw [List.map_cons, List.foldl_cons, ih, List.map_append, toList_written, List.append_assoc,
      ← List.map_append, ← List.filter_append, List.singleton_append]

theorem toList_items (d : Span) : d.items.map String.toList = d.parts.map Part.chars := by
  rw [items_eq, foldl_written]
  rfl

/-- The text of a span is read as the span. -/
theorem read_itemized (d : Span) : read d.itemized = .ok d := by
  cases hzero : d.isZero with
  | true =>
    have hd : d = zero := ext (beq_iff_eq.mp hzero)
    rw [hd]
    rfl
  | false =>
    have hne : d.parts ≠ [] := by
      intro hnil
      have hnanos := nanosOf_parts d
      rw [hnil] at hnanos
      rw [isZero, ← hnanos] at hzero
      cases hzero
    have htext : d.itemized.toList = [' '].intercalate (d.parts.map Part.chars) := by
      rw [itemized, hzero, if_neg Bool.false_ne_true, String.toList_intercalate, toList_items]
      rfl
    have hread : (steps ⟨zero, .number 0 true⟩ 0 d.itemized.toList >>= finish) = .ok d := by
      rw [htext]
      exact steps_parts hne valid_of_mem_parts (by rw [nanosOf_parts]; exact Nat.zero_add _) 0 true
    have hshort : d.itemized ≠ "0" := by
      intro heq
      rw [heq] at hread
      cases hread
    rw [read, if_neg hshort]
    exact hread

end BlockWatch.Span
