import BlockWatch.Json.Reader
import BlockWatch.Proofs.Json.Shape

/-!
# The shape of what is read

The keys of every object that was read ascend, and no more arrays and objects lie in each other than
a reader keeps open. Every token keeps this of the values that are complete. A text that is not read
has an error, since nothing in a reader can end with a fault.
-/

namespace BlockWatch

theorem bind_eq_ok {ε α β : Type} {x : Except ε α} {f : α → Except ε β} {b : β}
    (h : x >>= f = .ok b) : ∃ a, x = .ok a ∧ f a = .ok b := by
  cases x with
  | error cause => cases h
  | ok a => exact ⟨a, rfl, h⟩

namespace Json

/-- The keys ascend, and at most so many arrays and objects lie in each other. -/
structure Value.Shaped (levels : ℕ) (value : Value) : Prop where
  ordered : value.Ordered
  nests : value.Nests levels

variable {levels : ℕ}

theorem Value.shaped_scalar {value : Value} (h : value.isContainer = false) :
    value.Shaped levels where
  ordered := by
    apply all_of_not_isContainer h
    cases value with
    | object members => exact absurd h (by simp [isContainer])
    | _ => trivial
  nests := .scalar h

theorem Value.shaped_array {items : List Value} (h : ∀ item ∈ items, item.Shaped levels) :
    (Value.array items).Shaped (levels + 1) where
  ordered := all_array_iff.mpr ⟨trivial, fun item hitem ↦ (h item hitem).ordered⟩
  nests := nests_array_iff.mpr fun item hitem ↦ (h item hitem).nests

theorem Value.shaped_object {members : Members} (hascend : members.Pairwise (·.1 < ·.1))
    (h : ∀ member ∈ members, member.2.Shaped levels) :
    (Value.object members).Shaped (levels + 1) where
  ordered := ordered_object_iff.mpr ⟨hascend, fun member hmember ↦ (h member hmember).ordered⟩
  nests := nests_object_iff.mpr fun member hmember ↦ (h member hmember).nests

/-- What an open array or object holds so far has a shape. -/
def Frame.Shaped (levels : ℕ) : Frame → Prop
  | array items => ∀ item ∈ items, item.Shaped levels
  | object members _ =>
    members.Pairwise (·.1 < ·.1) ∧ ∀ member ∈ members, member.2.Shaped levels

/-- What is open leaves room: the `n`-th of `depthLimit` levels may hold `depthLimit - n` more. -/
def stackShaped : List Frame → Prop
  | [] => True
  | frame :: stack =>
    (∃ levels, levels + (stack.length + 1) = depthLimit ∧ frame.Shaped levels) ∧ stackShaped stack

namespace Expecting

/-- Everything that is complete has a shape. -/
def Sound : Expecting → Prop
  | value stack => stackShaped stack
  | firstItem stack => stackShaped (.array [] :: stack)
  | firstKey stack => stackShaped (.object [] "" :: stack)
  | key members stack => stackShaped (.object members "" :: stack)
  | colon members name stack => stackShaped (.object members name :: stack)
  | more frame stack => stackShaped (frame :: stack)
  | done found => found.Shaped depthLimit

variable {stack : List Frame}

theorem sound_after {value : Value} (hstack : stackShaped stack)
    (hlevels : levels + stack.length = depthLimit) (hvalue : value.Shaped levels) :
    (after value stack).Sound := by
  cases stack with
  | nil =>
    obtain rfl : levels = depthLimit := hlevels
    exact hvalue
  | cons frame stack =>
    obtain ⟨⟨inner, hinner, hframe⟩, hrest⟩ := hstack
    obtain rfl : inner = levels := by
      have hlength : (frame :: stack).length = stack.length + 1 := List.length_cons
      omega
    cases frame with
    | array items => exact ⟨⟨inner, hinner, List.forall_mem_cons.mpr ⟨hvalue, hframe⟩⟩, hrest⟩
    | object members name =>
      refine ⟨⟨inner, hinner, Members.pairwise_insert hframe.1, fun member hmember ↦ ?_⟩, hrest⟩
      rcases Members.mem_insert hmember with rfl | hmember
      · exact hvalue
      · exact hframe.2 member hmember

/-- A scalar fits everywhere. -/
theorem sound_after_scalar {value : Value} (hstack : stackShaped stack)
    (h : value.isContainer = false) : (after value stack).Sound := by
  have hroom : ∃ levels, levels + stack.length = depthLimit := by
    cases stack with
    | nil => exact ⟨depthLimit, rfl⟩
    | cons frame stack =>
      obtain ⟨⟨inner, hinner, -⟩, -⟩ := hstack
      exact ⟨inner, hinner⟩
  obtain ⟨levels, hlevels⟩ := hroom
  exact sound_after hstack hlevels (Value.shaped_scalar h)

/-- What is open may be closed. -/
theorem sound_close {frame : Frame} {value : Value} (h : stackShaped (frame :: stack))
    (hvalue : ∀ levels, frame.Shaped levels → value.Shaped (levels + 1)) :
    (after value stack).Sound := by
  obtain ⟨⟨inner, hinner, hframe⟩, hstack⟩ := h
  exact sound_after hstack (by omega) (hvalue inner hframe)

theorem stackShaped_open {frame : Frame} (h : stackShaped stack) (hroom : stack.length < depthLimit)
    (hframe : ∀ levels, frame.Shaped levels) : stackShaped (frame :: stack) :=
  ⟨⟨depthLimit - (stack.length + 1), by omega, hframe _⟩, h⟩

theorem sound_value_step {token : Token} {next : Expecting} (hstack : stackShaped stack)
    (h : (value stack).step token = .ok next) : next.Sound := by
  cases token with
  | openArray =>
    have hstep : (value stack).step .openArray =
      if stack.length < depthLimit then pure (firstItem stack) else fail .syntaxError := rfl
    rw [hstep] at h
    split_ifs at h with hroom
    · obtain rfl := Except.ok.inj h
      exact stackShaped_open hstack hroom fun _ _ hitem ↦ absurd hitem List.not_mem_nil
    · cases h
  | openObject =>
    have hstep : (value stack).step .openObject =
      if stack.length < depthLimit then pure (firstKey stack) else fail .syntaxError := rfl
    rw [hstep] at h
    split_ifs at h with hroom
    · obtain rfl := Except.ok.inj h
      exact stackShaped_open hstack hroom fun _ ↦
        ⟨.nil, fun _ hmember ↦ absurd hmember List.not_mem_nil⟩
    · cases h
  | null =>
    obtain rfl := Except.ok.inj h
    exact sound_after_scalar hstack rfl
  | boolean flag =>
    obtain rfl := Except.ok.inj h
    exact sound_after_scalar hstack rfl
  | number text =>
    obtain ⟨n, -, h⟩ := bind_eq_ok h
    cases n with
    | integer n =>
      obtain rfl := Except.ok.inj h
      exact sound_after_scalar hstack rfl
    | float x =>
      obtain rfl := Except.ok.inj h
      exact sound_after_scalar hstack rfl
  | string pieces =>
    obtain ⟨text, -, h⟩ := bind_eq_ok h
    obtain rfl := Except.ok.inj h
    exact sound_after_scalar hstack rfl
  | brokenString pieces cause =>
    have hstep : (value stack).step (.brokenString pieces cause) =
      brokenString pieces cause := rfl
    rw [hstep, brokenString] at h
    split at h <;> cases h
  | _ => cases h

theorem sound_key_step {members : Members} {token : Token} {next : Expecting}
    (hstack : stackShaped (.object members "" :: stack))
    (h : (key members stack).step token = .ok next) : next.Sound := by
  cases token with
  | string pieces =>
    obtain ⟨text, -, h⟩ := bind_eq_ok h
    obtain rfl := Except.ok.inj h
    exact hstack
  | brokenString pieces cause =>
    have hstep : (key members stack).step (.brokenString pieces cause) =
      brokenString pieces cause := rfl
    rw [hstep, brokenString] at h
    split at h <;> cases h
  | _ => cases h

/-- Every token keeps what is complete in shape. -/
theorem sound_step {state next : Expecting} {token : Token} (hstate : state.Sound)
    (h : state.step token = .ok next) : next.Sound := by
  cases state with
  | value stack => exact sound_value_step hstate h
  | firstItem stack =>
    cases token with
    | closeArray =>
      obtain rfl := Except.ok.inj h
      exact sound_close hstate fun _ ↦ Value.shaped_array
    | _ => exact sound_value_step hstate h
  | firstKey stack =>
    cases token with
    | closeObject =>
      obtain rfl := Except.ok.inj h
      exact sound_close hstate fun _ hframe ↦ Value.shaped_object hframe.1 hframe.2
    | _ => exact sound_key_step hstate h
  | key members stack => exact sound_key_step hstate h
  | colon members name stack =>
    cases token with
    | colon =>
      obtain rfl := Except.ok.inj h
      exact hstate
    | _ => cases h
  | more frame stack =>
    cases frame with
    | array items =>
      cases token with
      | comma =>
        obtain rfl := Except.ok.inj h
        exact hstate
      | closeArray =>
        obtain rfl := Except.ok.inj h
        exact sound_close hstate fun _ hframe ↦
          Value.shaped_array fun item hitem ↦ hframe item (List.mem_reverse.mp hitem)
      | _ => cases h
    | object members name =>
      cases token with
      | comma =>
        obtain rfl := Except.ok.inj h
        exact hstate
      | closeObject =>
        obtain rfl := Except.ok.inj h
        exact sound_close hstate fun _ hframe ↦ Value.shaped_object hframe.1 hframe.2
      | _ => cases h
  | done value => cases h

theorem sound_steps {state last : Expecting} {tokens : List Token} (hstate : state.Sound)
    (h : state.steps tokens = .ok last) : last.Sound := by
  induction tokens generalizing state with
  | nil =>
    obtain rfl := Except.ok.inj h
    exact hstate
  | cons token rest ih =>
    obtain ⟨next, hnext, hrest⟩ := bind_eq_ok h
    exact ih (sound_step hstate hnext) hrest

end Expecting

/-- Whatever is read has ascending keys and nests no deeper than a reader goes. -/
theorem Value.shaped_of_ofText {text : String} {value : Value}
    (h : Value.ofText text = .ok value) : value.Shaped depthLimit := by
  obtain ⟨last, hsteps, hlast⟩ := bind_eq_ok h
  have hstart : Expecting.Sound (.value []) := trivial
  have hsound : last.Sound := Expecting.sound_steps hstart hsteps
  cases last with
  | done found =>
    obtain rfl := Except.ok.inj hlast
    exact hsound
  | _ => cases hlast

/-! ## Errors -/

/-- The outcome is a result or an error, but no fault. -/
def Faultless {α : Type} (outcome : Result α) : Prop := ∀ fault, outcome ≠ .error (.fault fault)

section Faultless

variable {α β : Type}

theorem faultless_pure (value : α) : Faultless (pure value : Result α) := fun _ h ↦ nomatch h

theorem faultless_fail (cause : ReadError) : Faultless (fail cause : Result α) :=
  fun _ h ↦ nomatch h

theorem Faultless.bind {outcome : Result α} {f : α → Result β} (h : Faultless outcome)
    (hf : ∀ value, Faultless (f value)) : Faultless (outcome >>= f) := by
  cases outcome with
  | ok value => exact hf value
  | error stop => exact fun fault hfault ↦ h fault (congrArg _ (Except.error.inj hfault))

theorem Faultless.exists_cause {outcome : Result α} (h : Faultless outcome)
    {stop : Stop ReadError} (hstop : outcome = .error stop) : ∃ cause, stop = .error cause := by
  cases stop with
  | error cause => exact ⟨cause, rfl⟩
  | fault fault => exact absurd hstop (h fault)

theorem faultless_stringOf (pieces : List Piece) : Faultless (stringOf pieces) := by
  rw [stringOf]
  split
  · exact faultless_pure _
  · exact faultless_fail _

theorem faultless_brokenString (pieces : List Piece) (cause : Break) :
    Faultless (brokenString pieces cause : Result α) := by
  rw [brokenString]
  split <;> exact faultless_fail _

theorem faultless_numberOf (text : NumberText) : Faultless (numberOf text) := by
  rw [numberOf]
  split
  · exact faultless_pure _
  · exact faultless_fail _

end Faultless

namespace Expecting

theorem faultless_value_step (stack : List Frame) (token : Token) :
    Faultless ((value stack).step token) := by
  cases token with
  | openArray =>
    have hstep : (value stack).step .openArray =
      if stack.length < depthLimit then pure (firstItem stack) else fail .syntaxError := rfl
    rw [hstep]
    split_ifs
    · exact faultless_pure _
    · exact faultless_fail _
  | openObject =>
    have hstep : (value stack).step .openObject =
      if stack.length < depthLimit then pure (firstKey stack) else fail .syntaxError := rfl
    rw [hstep]
    split_ifs
    · exact faultless_pure _
    · exact faultless_fail _
  | number text =>
    refine (faultless_numberOf text).bind fun n ↦ ?_
    cases n <;> exact faultless_pure _
  | string pieces => exact (faultless_stringOf pieces).bind fun _ ↦ faultless_pure _
  | brokenString pieces cause => exact faultless_brokenString pieces cause
  | null | boolean _ => exact faultless_pure _
  | _ => exact faultless_fail _

theorem faultless_key_step (members : Members) (stack : List Frame) (token : Token) :
    Faultless ((key members stack).step token) := by
  cases token with
  | string pieces => exact (faultless_stringOf pieces).bind fun _ ↦ faultless_pure _
  | brokenString pieces cause => exact faultless_brokenString pieces cause
  | _ => exact faultless_fail _

theorem faultless_step (state : Expecting) (token : Token) : Faultless (state.step token) := by
  cases state with
  | value stack => exact faultless_value_step stack token
  | firstItem stack =>
    cases token with
    | closeArray => exact faultless_pure _
    | _ => exact faultless_value_step (.array [] :: stack) _
  | firstKey stack =>
    cases token with
    | closeObject => exact faultless_pure _
    | _ => exact faultless_key_step [] stack _
  | key members stack => exact faultless_key_step members stack token
  | colon members name stack =>
    cases token with
    | colon => exact faultless_pure _
    | _ => exact faultless_fail _
  | more frame stack =>
    cases frame with
    | array items =>
      cases token with
      | comma | closeArray => exact faultless_pure _
      | _ => exact faultless_fail _
    | object members name =>
      cases token with
      | comma | closeObject => exact faultless_pure _
      | _ => exact faultless_fail _
  | done value => exact faultless_fail _

theorem faultless_steps (state : Expecting) (tokens : List Token) :
    Faultless (state.steps tokens) := by
  induction tokens generalizing state with
  | nil => exact faultless_pure _
  | cons token rest ih => exact (faultless_step state token).bind ih

end Expecting

/-- A text that is not read has an error. -/
theorem Value.faultless_ofText (text : String) : Faultless (Value.ofText text) := by
  refine (Expecting.faultless_steps _ _).bind fun last ↦ ?_
  cases last with
  | done value => exact faultless_pure _
  | _ => exact faultless_fail _

end Json

end BlockWatch
