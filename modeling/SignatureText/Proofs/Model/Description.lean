/-
**Consistent descriptions of integral values.**

A description gives a value exactly if it meets five conditions, and otherwise it is refused for the
first of them that it breaks. How the type is said plays no part in what is given.

* `IntegralType.ofWidth?_eq_some_iff` — width and sign name the one type that has them.
* `Integral.Description.IsConsistent` — the five conditions in order, and
  `Integral.Description.Breaks` — the first of them that is broken, with the fault it is reported by.
* `Integral.Description.resolve_of_breaks`, `Integral.Description.resolve_of_designates` — what is
  done in either case; `Integral.Description.breaks_or_isConsistent`: there is no third.
* `Integral.Description.resolve_exact` — the theorem about descriptions.
-/

import SignatureText.Proofs.Model.Integral

namespace SignatureText

/-! ### Types by width and sign -/

namespace IntegralType

/-- **Width and sign name the type that has them.** -/
theorem ofWidth?_eq_some_iff {type : IntegralType} {width : Nat} {signed : Bool} :
    ofWidth? width signed = some type ↔ type.width = width ∧ type.isSigned = signed := by
  constructor
  · intro found
    simpa using List.find?_some found
  · rintro ⟨rfl, rfl⟩
    cases type <;> rfl

theorem ofWidth?_self (type : IntegralType) : ofWidth? type.width type.isSigned = some type :=
  ofWidth?_eq_some_iff.mpr ⟨rfl, rfl⟩

theorem ofWidth?_eq_none_iff {width : Nat} {signed : Bool} :
    ofWidth? width signed = none ↔
      ¬∃ type : IntegralType, type.width = width ∧ type.isSigned = signed := by
  rw [Option.eq_none_iff_forall_ne_some, not_exists]
  simp only [ne_eq, ofWidth?_eq_some_iff]

/-- Two types do not share both width and sign. -/
theorem eq_of_width {type other : IntegralType} (width : type.width = other.width)
    (sign : type.isSigned = other.isSigned) : type = other :=
  Option.some.inj ((ofWidth?_eq_some_iff.mpr ⟨width, sign⟩).symm.trans other.ofWidth?_self)

end IntegralType

namespace Integral.Description

/-! ### Conditions -/

/-- Width and sign are both given or both absent. -/
def IsPaired (d : Description) : Prop :=
  d.width.isSome = d.signed.isSome

/-- Width and sign, where both are given, are those of a type. -/
def PairIsKnown (d : Description) : Prop :=
  ∀ width signed, d.width = some width → d.signed = some signed →
    ∃ type : IntegralType, type.width = width ∧ type.isSigned = signed

/-- The named type, where width and sign are given too, has this width and this sign. -/
def Agrees (d : Description) : Prop :=
  ∀ type width signed, d.type = some type → d.width = some width → d.signed = some signed →
    type.width = width ∧ type.isSigned = signed

/-- A type is said, by its name or by width and sign. -/
def IsTyped (d : Description) : Prop :=
  d.type.isSome = true ∨ d.width.isSome = true ∧ d.signed.isSome = true

/-- The type is said by its name or by width and sign. -/
def Designates (d : Description) (type : IntegralType) : Prop :=
  d.type = some type ∨ d.width = some type.width ∧ d.signed = some type.isSigned

/-- What a description has to meet, in the order in which it is asked for. -/
structure IsConsistent (d : Description) : Prop where
  paired : d.IsPaired
  known : d.PairIsKnown
  agrees : d.Agrees
  typed : d.IsTyped
  fits : ∀ type, d.Designates type → type.Holds d.value

/-- The first condition that a description breaks, with the fault that reports it. -/
inductive Breaks (d : Description) : DescriptionFault → Prop where
  | halfPair (half : ¬d.IsPaired) : Breaks d .halfPair
  | noType {width : Nat} (paired : d.IsPaired) (given : d.width = some width)
      (unknown : ¬d.PairIsKnown) : Breaks d (.noType width)
  | contradiction {type : IntegralType} {width : Nat} (paired : d.IsPaired)
      (known : d.PairIsKnown) (named : d.type = some type) (given : d.width = some width)
      (different : ¬d.Agrees) : Breaks d (.contradiction type width)
  | missingType (paired : d.IsPaired) (known : d.PairIsKnown) (agrees : d.Agrees)
      (untyped : ¬d.IsTyped) : Breaks d .missingType
  | outOfRange {type : IntegralType} (paired : d.IsPaired) (known : d.PairIsKnown)
      (agrees : d.Agrees) (designates : d.Designates type) (beyond : ¬type.Holds d.value) :
      Breaks d (.outOfRange ⟨type, d.value⟩)

variable {d : Description} {type : IntegralType} {width : Nat}

/-! ### Width and sign -/

theorem pairType_of_half (half : ¬d.IsPaired) : d.pairType = .error .halfPair := by
  unfold IsPaired at half
  unfold pairType
  revert half
  cases d.width <;> cases d.signed <;> simp

theorem pairType_of_unknown (given : d.width = some width) (unknown : ¬d.PairIsKnown) :
    d.pairType = .error (.noType width) := by
  simp only [PairIsKnown, not_forall] at unknown
  obtain ⟨other, signed, wide, sign, none⟩ := unknown
  obtain rfl : width = other := Option.some.inj (given.symm.trans wide)
  simp only [pairType, wide, sign, IntegralType.ofWidth?_eq_none_iff.mpr none]

/-- A pair that is known, or absent, gives the type that it designates, if any. -/
theorem exists_pairType (paired : d.IsPaired) (known : d.PairIsKnown) :
    ∃ pair, d.pairType = .ok pair ∧
      ∀ type, pair = some type ↔ d.width = some type.width ∧ d.signed = some type.isSigned := by
  unfold IsPaired at paired
  unfold pairType
  cases wide : d.width with
  | none =>
      have sign : d.signed = none := by
        rw [← Option.not_isSome_iff_eq_none, ← paired, wide]
        exact Bool.false_ne_true
      exact ⟨none, by rw [sign], by simp⟩
  | some width =>
      obtain ⟨signed, sign⟩ : ∃ signed, d.signed = some signed := by
        rw [← Option.isSome_iff_exists, ← paired, wide]
        rfl
      obtain ⟨type, rfl, rfl⟩ := known width signed wide sign
      rw [sign]
      refine ⟨some type, by simp only [type.ofWidth?_self], fun other => ⟨?_, ?_⟩⟩
      · rintro ⟨⟩
        exact ⟨rfl, rfl⟩
      · rintro ⟨width, sign⟩
        rw [IntegralType.eq_of_width (Option.some.inj width) (Option.some.inj sign)]

/-! ### The type -/

theorem resolveType_of_contradiction (paired : d.IsPaired) (known : d.PairIsKnown)
    (named : d.type = some type) (given : d.width = some width) (different : ¬d.Agrees) :
    d.resolveType = .error (.contradiction type width) := by
  simp only [Agrees, not_forall] at different
  obtain ⟨_, _, signed, named', wide, sign, apart⟩ := different
  obtain rfl : type = _ := Option.some.inj (named.symm.trans named')
  obtain rfl : width = _ := Option.some.inj (given.symm.trans wide)
  obtain ⟨other, rfl, rfl⟩ := known width signed wide sign
  obtain ⟨pair, result, means⟩ := exists_pairType paired known
  obtain rfl : pair = some other := (means other).mpr ⟨wide, sign⟩
  have different : type ≠ other := by
    rintro rfl
    exact apart ⟨rfl, rfl⟩
  simp [resolveType, result, named, different]

theorem resolveType_of_untyped (paired : d.IsPaired) (known : d.PairIsKnown)
    (untyped : ¬d.IsTyped) : d.resolveType = .error .missingType := by
  obtain ⟨pair, result, means⟩ := exists_pairType paired known
  have unnamed : d.type = none := by
    cases named : d.type with
    | none => rfl
    | some type => exact absurd (.inl (by rw [named]; rfl)) untyped
  cases pair with
  | none => simp [resolveType, result, unnamed]
  | some type =>
      obtain ⟨wide, sign⟩ := (means type).mp rfl
      exact absurd (.inr ⟨by rw [wide]; rfl, by rw [sign]; rfl⟩) untyped

/-- **The type that is designated is found**, whichever way it is said. -/
theorem resolveType_of_designates (paired : d.IsPaired) (known : d.PairIsKnown)
    (agrees : d.Agrees) (designates : d.Designates type) : d.resolveType = .ok type := by
  obtain ⟨pair, result, means⟩ := exists_pairType paired known
  rcases designates with named | spelled
  · cases pair with
    | none => simp [resolveType, result, named]
    | some other =>
        obtain ⟨wide, sign⟩ := (means other).mp rfl
        obtain ⟨width, signed⟩ := agrees type _ _ named wide sign
        simp [resolveType, result, named, IntegralType.eq_of_width width signed]
  · obtain rfl : pair = some type := (means type).mpr spelled
    cases named : d.type with
    | none => simp [resolveType, result, named]
    | some other =>
        obtain ⟨width, signed⟩ := agrees other _ _ named spelled.1 spelled.2
        simp [resolveType, result, named, IntegralType.eq_of_width width signed]

theorem exists_designates (known : d.PairIsKnown) (typed : d.IsTyped) :
    ∃ type, d.Designates type := by
  rcases typed with named | ⟨wide, sign⟩
  · obtain ⟨type, named⟩ := Option.isSome_iff_exists.mp named
    exact ⟨type, .inl named⟩
  · obtain ⟨width, wide⟩ := Option.isSome_iff_exists.mp wide
    obtain ⟨signed, sign⟩ := Option.isSome_iff_exists.mp sign
    obtain ⟨type, rfl, rfl⟩ := known width signed wide sign
    exact ⟨type, .inr ⟨wide, sign⟩⟩

/-! ### The value -/

/-- **With a type designated, only the range is left to be asked about.** -/
theorem resolve_of_designates (paired : d.IsPaired) (known : d.PairIsKnown) (agrees : d.Agrees)
    (designates : d.Designates type) :
    d.resolve = (ofInt type d.value).mapError .outOfRange := by
  rw [resolve, resolveType_of_designates paired known agrees designates, ok_bind]

/-- **A description is refused for the first condition that it breaks.** -/
theorem resolve_of_breaks {fault : DescriptionFault} (breaks : d.Breaks fault) :
    d.resolve = .error fault := by
  cases breaks with
  | halfPair half => rw [resolve, resolveType, pairType_of_half half, error_bind, error_bind]
  | noType paired given unknown =>
      rw [resolve, resolveType, pairType_of_unknown given unknown, error_bind, error_bind]
  | contradiction paired known named given different =>
      rw [resolve, resolveType_of_contradiction paired known named given different, error_bind]
  | missingType paired known agrees untyped =>
      rw [resolve, resolveType_of_untyped paired known untyped, error_bind]
  | outOfRange paired known agrees designates beyond =>
      rw [resolve_of_designates paired known agrees designates, ofInt_of_not_holds beyond]
      rfl

theorem resolve_of_isConsistent (consistent : d.IsConsistent) :
    ∃ n, d.resolve = .ok n ∧ d.Designates n.type ∧ n.value = d.value := by
  obtain ⟨type, designates⟩ := exists_designates consistent.known consistent.typed
  refine ⟨⟨type, d.value, consistent.fits type designates⟩, ?_, designates, rfl⟩
  rw [resolve_of_designates consistent.paired consistent.known consistent.agrees designates,
    ofInt_of_holds (consistent.fits type designates)]
  rfl

/-- A description that is not consistent breaks a first condition. -/
theorem breaks_or_isConsistent (d : Description) : (∃ fault, d.Breaks fault) ∨ d.IsConsistent := by
  by_cases paired : d.IsPaired
  case neg => exact .inl ⟨_, .halfPair paired⟩
  by_cases known : d.PairIsKnown
  case neg =>
    obtain ⟨width, _, wide, _⟩ : ∃ width signed, d.width = some width ∧ d.signed = some signed := by
      simp only [PairIsKnown, not_forall] at known
      obtain ⟨width, signed, wide, sign, _⟩ := known
      exact ⟨width, signed, wide, sign⟩
    exact .inl ⟨_, .noType paired wide known⟩
  by_cases agrees : d.Agrees
  case neg =>
    obtain ⟨type, width, named, wide⟩ :
        ∃ type width, d.type = some type ∧ d.width = some width := by
      simp only [Agrees, not_forall] at agrees
      obtain ⟨type, width, _, named, wide, _⟩ := agrees
      exact ⟨type, width, named, wide⟩
    exact .inl ⟨_, .contradiction paired known named wide agrees⟩
  by_cases typed : d.IsTyped
  case neg => exact .inl ⟨_, .missingType paired known agrees typed⟩
  by_cases fits : ∀ type, d.Designates type → type.Holds d.value
  case neg =>
    simp only [not_forall] at fits
    obtain ⟨type, designates, beyond⟩ := fits
    exact .inl ⟨_, .outOfRange paired known agrees designates beyond⟩
  exact .inr ⟨paired, known, agrees, typed, fits⟩

/-! ### Whole descriptions -/

theorem resolve_eq_error_iff_breaks {fault : DescriptionFault} :
    d.resolve = .error fault ↔ d.Breaks fault := by
  refine ⟨fun failed => ?_, resolve_of_breaks⟩
  rcases breaks_or_isConsistent d with ⟨first, breaks⟩ | consistent
  · cases failed.symm.trans (resolve_of_breaks breaks)
    exact breaks
  · obtain ⟨n, made, -, -⟩ := resolve_of_isConsistent consistent
    cases made.symm.trans failed

theorem resolve_eq_ok_iff_isConsistent {n : Integral} :
    d.resolve = .ok n ↔ d.IsConsistent ∧ d.Designates n.type ∧ n.value = d.value := by
  constructor
  · intro made
    rcases breaks_or_isConsistent d with ⟨first, breaks⟩ | consistent
    · cases made.symm.trans (resolve_of_breaks breaks)
    · obtain ⟨m, made', designates, value⟩ := resolve_of_isConsistent consistent
      cases made.symm.trans made'
      exact ⟨consistent, designates, value⟩
  · rintro ⟨consistent, designates, value⟩
    rw [resolve_of_designates consistent.paired consistent.known consistent.agrees designates,
      ← value, ofInt_of_holds n.in_range]
    rfl

/--
**A description is accepted exactly if it is consistent.** It gives a value exactly if width and
sign come together, are those of a type and do not contradict the name, a type is said at all, and
the type holds the integer; the value has the type that is said and the integer that was given. Any
other description is refused for the first of these conditions that it breaks. So a type said by its
name, by width and sign or by both gives the same integer, and the same refusal beyond its range.
-/
theorem resolve_exact (d : Description) :
    ((∃ n, d.resolve = .ok n) ↔ d.IsConsistent) ∧
    (∀ n, d.resolve = .ok n ↔ d.IsConsistent ∧ d.Designates n.type ∧ n.value = d.value) ∧
    (∀ fault, d.resolve = .error fault ↔ d.Breaks fault) ∧
    ∀ (type : IntegralType) (value : Int),
      let outcome := (ofInt type value).mapError DescriptionFault.outOfRange
      resolve ⟨some type, none, none, value⟩ = outcome ∧
        resolve ⟨none, some type.width, some type.isSigned, value⟩ = outcome ∧
        resolve ⟨some type, some type.width, some type.isSigned, value⟩ = outcome := by
  refine ⟨⟨fun ⟨_, made⟩ => ?_, fun consistent => ?_⟩, fun n => resolve_eq_ok_iff_isConsistent,
    fun fault => resolve_eq_error_iff_breaks, fun type value => ?_⟩
  · exact (resolve_eq_ok_iff_isConsistent.mp made).1
  · obtain ⟨n, made, -, -⟩ := resolve_of_isConsistent consistent
    exact ⟨n, made⟩
  · have known (name) :
        PairIsKnown ⟨name, some type.width, some type.isSigned, value⟩ := by
      rintro _ _ ⟨⟩ ⟨⟩
      exact ⟨type, rfl, rfl⟩
    have agrees : Agrees ⟨some type, some type.width, some type.isSigned, value⟩ := by
      rintro _ _ _ ⟨⟩ ⟨⟩ ⟨⟩
      exact ⟨rfl, rfl⟩
    exact ⟨resolve_of_designates rfl nofun nofun (.inl rfl),
      resolve_of_designates rfl (known none) nofun (.inr ⟨rfl, rfl⟩),
      resolve_of_designates rfl (known _) agrees (.inl rfl)⟩

/--
Of three faults the one that is asked about first counts: no type has 17 bits, whatever the name
says and the integer is. Said in each of the three ways, 255 is the same `byte`.
-/
theorem resolve_exact_byte :
    let d : Description := ⟨some .int, some 17, some true, 5000000000⟩
    let n : Integral := ⟨.byte, 255, by decide⟩
    d.resolve = .error (.noType 17) ∧ ¬d.IsConsistent ∧
      resolve ⟨some .byte, none, none, 255⟩ = .ok n ∧
      resolve ⟨none, some 8, some false, 255⟩ = .ok n ∧
      resolve ⟨some .byte, some 8, some false, 255⟩ = .ok n := by
  intro d n
  obtain ⟨accepted, -, refused, forms⟩ := resolve_exact d
  have unknown : ¬d.PairIsKnown := by
    intro known
    obtain ⟨type, width, -⟩ := known 17 true rfl rfl
    cases type <;> cases width
  have first : d.resolve = .error (.noType 17) := (refused _).mpr (.noType rfl rfl unknown)
  refine ⟨first, fun consistent => ?_, forms .byte 255⟩
  obtain ⟨m, made⟩ := accepted.mpr consistent
  cases first.symm.trans made

end Integral.Description

end SignatureText
