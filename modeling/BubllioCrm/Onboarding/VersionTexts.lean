import BubllioCrm.Onboarding.Orchestration

/-!
Owns what the CRM and the agent make of the text of a version: the pattern of
`validate_target_version`, `StableVersion.parse`, and when the two agree.

Both patterns take every decimal digit of Unicode behind the first one, and the
conversion of the agent takes a bounded number of digits.
-/

namespace BubllioCrm.Onboarding

open BubllioCrm.Foundations
open BubllioCrm.UpdateAgent

variable {text first second : String} {major minor patch part : List Char}

/-! ### The two readers -/

/-- `validate_target_version` accepts the text. -/
def validateTargetVersion (value : String) : Bool :=
  (versionParts value).isSome

/-- The text behind an optional `v`. -/
def unprefixed (text : String) : List Char :=
  if text.toList.head? = some 'v' then text.toList.tail else text.toList

/-- Three parts of the pattern with dots between them. -/
def partsOf (chars : List Char) : Option (List Char × List Char × List Char) :=
  match chars.splitOn '.' with
  | [major, minor, patch] =>
      if StableVersion.isPart major && StableVersion.isPart minor && StableVersion.isPart patch then
        some (major, minor, patch)
      else none
  | _ => none

theorem versionParts_eq : versionParts text = partsOf text.toList := rfl

/-- What the parts of a text are. -/
theorem partsOf_eq_some {chars : List Char} :
    partsOf chars = some (major, minor, patch) ↔
      chars.splitOn '.' = [major, minor, patch] ∧ StableVersion.isPart major = true ∧
        StableVersion.isPart minor = true ∧ StableVersion.isPart patch = true := by
  unfold partsOf
  split
  next first second third split =>
      rw [split]
      split_ifs with valid
      · simp only [Bool.and_eq_true] at valid
        simp only [Option.some.injEq, Prod.mk.injEq, List.cons.injEq, and_true]
        constructor
        · rintro ⟨rfl, rfl, rfl⟩
          exact ⟨⟨rfl, rfl, rfl⟩, valid.1.1, valid.1.2, valid.2⟩
        · exact And.left
      · simp only [List.cons.injEq, and_true, false_iff]
        rintro ⟨⟨rfl, rfl, rfl⟩, isMajor, isMinor, isPatch⟩
        exact valid (by simp [isMajor, isMinor, isPatch])
  next other =>
      simp only [reduceCtorEq, false_iff]
      exact fun split => other _ _ _ split.1

/-- The parts with the dots between them are the text. -/
theorem join_partsOf {chars : List Char} (areParts : partsOf chars = some (major, minor, patch)) :
    chars = major ++ '.' :: (minor ++ '.' :: patch) := by
  have split := (partsOf_eq_some.mp areParts).1
  have joined : ['.'].intercalate (chars.splitOn '.') = chars := List.intercalate_splitOn '.'
  rw [← joined, split]
  simp [List.intercalate]

/-- `parse` converts the parts behind an optional `v`. -/
theorem parse_str : StableVersion.parse (.str text) =
    match partsOf (unprefixed text) with
    | none => .error (.agentError .requestValidation
        "Only exact stable semantic versions are accepted")
    | some (major, minor, patch) =>
        match digitsInt major, digitsInt minor, digitsInt patch with
        | some major, some minor, some patch =>
            .ok { major := major, minor := minor, patch := patch }
        | _, _, _ => .error .otherException := by
  unfold StableVersion.parse partsOf
  change (match (unprefixed text).splitOn '.' with
    | [major, minor, patch] => _
    | _ => _) = _
  split
  next major minor patch split =>
      by_cases valid : (StableVersion.isPart major && StableVersion.isPart minor &&
          StableVersion.isPart patch) = true
      · rewrite [if_pos valid, if_pos valid]
        rfl
      · rw [if_neg valid, if_neg valid]
  next other => rfl

/-! ### Texts that convert -/

theorem digitsInt_eq_some {number : Nat} : digitsInt part = some number ↔
    part.length ≤ maxStringDigits ∧ decimalNumber part = number := by
  unfold digitsInt
  split_ifs with long
  · simp only [false_iff, not_and]
    exact fun short => absurd short (Nat.not_le.mpr long)
  · simp only [Option.some.injEq, Nat.not_lt.mp long, true_and]

/-- No part has more digits than `int()` takes. -/
def Short (major minor patch : List Char) : Prop :=
  ∀ part ∈ [major, minor, patch], part.length ≤ maxStringDigits

instance (major minor patch : List Char) : Decidable (Short major minor patch) :=
  inferInstanceAs (Decidable (∀ part ∈ [major, minor, patch], _))

/-- The version of three parts. -/
def versionOf (major minor patch : List Char) : StableVersion where
  major := decimalNumber major
  minor := decimalNumber minor
  patch := decimalNumber patch

theorem parse_short (areParts : partsOf (unprefixed text) = some (major, minor, patch))
    (short : Short major minor patch) :
    StableVersion.parse (.str text) = .ok (versionOf major minor patch) := by
  have number : ∀ part ∈ [major, minor, patch], digitsInt part = some (decimalNumber part) :=
    fun part member => digitsInt_eq_some.mpr ⟨short part member, rfl⟩
  rw [parse_str, areParts]
  simp only [number major (by simp), number minor (by simp), number patch (by simp)]
  rfl

theorem parse_long (areParts : partsOf (unprefixed text) = some (major, minor, patch))
    (long : ¬ Short major minor patch) :
    StableVersion.parse (.str text) = .error .otherException := by
  rw [parse_str, areParts]
  dsimp only
  split
  next first second third isMajor isMinor isPatch =>
      apply absurd _ long
      intro part member
      simp only [List.mem_cons, List.not_mem_nil, or_false] at member
      rcases member with rfl | rfl | rfl
      · exact (digitsInt_eq_some.mp isMajor).1
      · exact (digitsInt_eq_some.mp isMinor).1
      · exact (digitsInt_eq_some.mp isPatch).1
  next => rfl

/-- All digits are those of ASCII. -/
def Ascii (major minor patch : List Char) : Prop :=
  ∀ part ∈ [major, minor, patch], ∀ char ∈ part, char.isDigit = true

instance (major minor patch : List Char) : Decidable (Ascii major minor patch) :=
  inferInstanceAs (Decidable (∀ part ∈ [major, minor, patch], _))

theorem isPart_leading (isPart : StableVersion.isPart part = true) :
    part ≠ [] ∧ (part.head? = some '0' → part = ['0']) := by
  unfold StableVersion.isPart at isPart
  split at isPart
  · cases isPart
  · exact ⟨List.cons_ne_nil _ _, fun _ => rfl⟩
  next firstDigit rest notZero =>
      refine ⟨List.cons_ne_nil _ _, fun isZero => ?_⟩
      rw [Option.some.inj isZero] at isPart
      simp at isPart

theorem isDecimal_of_isPart {char : Char} (isPart : StableVersion.isPart part = true)
    (member : char ∈ part) : isDecimal char = true := by
  unfold StableVersion.isPart at isPart
  split at isPart
  · cases isPart
  · rw [List.mem_singleton.mp member]
    decide
  next firstDigit rest notZero =>
      simp only [Bool.and_eq_true, decide_eq_true_eq, List.all_eq_true] at isPart
      rcases List.mem_cons.mp member with rfl | later
      · apply isDecimal_of_isDigit
        have listed := isPart.1
        simp only [List.mem_cons, List.not_mem_nil, or_false] at listed
        rcases listed with rfl | rfl | rfl | rfl | rfl | rfl | rfl | rfl | rfl <;> rfl
      · exact isPart.2 char later

theorem toList_versionOf : (versionOf major minor patch).text.toList =
    Nat.toDigits 10 (decimalNumber major) ++ '.' ::
      (Nat.toDigits 10 (decimalNumber minor) ++ '.' ::
        Nat.toDigits 10 (decimalNumber patch)) := by
  simp [versionOf, StableVersion.text, Nat.toString_eq_repr, String.toList_append,
    Nat.toList_repr]

/-- The text of a version is the one that it was read from, if that is ASCII. -/
theorem text_versionOf {chars : List Char} (areParts : partsOf chars = some (major, minor, patch)) :
    (versionOf major minor patch).text.toList = chars ↔ Ascii major minor patch := by
  have joined := join_partsOf areParts
  obtain ⟨-, isMajor, isMinor, isPatch⟩ := partsOf_eq_some.mp areParts
  have isPart : ∀ part ∈ [major, minor, patch], StableVersion.isPart part = true := by
    simp [isMajor, isMinor, isPatch]
  constructor
  · intro same part member char inPart
    have inChars : char ∈ (versionOf major minor patch).text.toList := by
      rw [same, joined]
      simp only [List.mem_cons, List.not_mem_nil, or_false] at member
      rcases member with rfl | rfl | rfl <;> simp [inPart]
    rcases StableVersion.mem_text inChars with isDot | isDigit
    · have decimal := isDecimal_of_isPart (isPart part member) inPart
      rw [isDot] at decimal
      exact absurd decimal (by decide)
    · exact isDigit
  · intro ascii
    have digits : ∀ part ∈ [major, minor, patch], Nat.toDigits 10 (decimalNumber part) = part := by
      intro part member
      obtain ⟨nonempty, leading⟩ := isPart_leading (isPart part member)
      exact toDigits_decimalNumber nonempty (ascii part member) leading
    rw [toList_versionOf, digits major (by simp), digits minor (by simp), digits patch (by simp),
      joined]

/-! ### Agreement -/

/-- The text starts with a `v`. -/
def HasPrefix (text : String) : Prop :=
  text.toList.head? = some 'v'

instance : DecidablePred HasPrefix :=
  fun text => inferInstanceAs (Decidable (text.toList.head? = some 'v'))

/-- The CRM accepts what the agent reads without a `v`, the agent echoes it, and
refuses the rest with its own error. -/
structure Agrees (text : String) : Prop where
  accepts : validateTargetVersion text = true ↔
    (∃ version, StableVersion.parse (.str text) = .ok version) ∧ ¬ HasPrefix text
  echoes : validateTargetVersion text = true →
    ∃ version, StableVersion.parse (.str text) = .ok version ∧ version.text = text
  errors : ∀ error, StableVersion.parse (.str text) = .error error →
    ∃ message, error = .agentError .requestValidation message

/-- Two texts without a `v` that are read as one version are one text. -/
def ReadApart (first second : String) : Prop :=
  ∀ version, ¬ HasPrefix first → ¬ HasPrefix second →
    StableVersion.parse (.str first) = .ok version →
    StableVersion.parse (.str second) = .ok version → first = second

/-- A text that matches has no part that is too long, and no digits but those of
ASCII unless it starts with a `v`. -/
def Canonical (text : String) : Prop :=
  ∀ major minor patch, partsOf (unprefixed text) = some (major, minor, patch) →
    Short major minor patch ∧ (¬ HasPrefix text → Ascii major minor patch)

theorem unprefixed_of_not (noPrefix : ¬ HasPrefix text) : unprefixed text = text.toList :=
  if_neg noPrefix

/-- The pattern of the CRM has no `v`. -/
theorem not_hasPrefix (accepted : validateTargetVersion text = true) : ¬ HasPrefix text := by
  intro hasPrefix
  obtain ⟨⟨major, minor, patch⟩, areParts⟩ := Option.isSome_iff_exists.mp accepted
  rw [versionParts_eq] at areParts
  obtain ⟨-, isMajor, -, -⟩ := partsOf_eq_some.mp areParts
  unfold HasPrefix at hasPrefix
  rw [join_partsOf areParts] at hasPrefix
  obtain ⟨nonempty, -⟩ := isPart_leading isMajor
  rw [List.head?_append_of_ne_nil _ nonempty] at hasPrefix
  have decimal := isDecimal_of_isPart isMajor (List.mem_of_mem_head? hasPrefix)
  exact absurd decimal (by decide)

theorem validateTargetVersion_of_not (noPrefix : ¬ HasPrefix text) :
    validateTargetVersion text = (partsOf (unprefixed text)).isSome := by
  rw [unprefixed_of_not noPrefix]
  rfl

theorem agrees_iff : Agrees text ↔ Canonical text := by
  cases areParts : partsOf (unprefixed text) with
  | none =>
      apply iff_of_true
      · have refused : StableVersion.parse (.str text) = .error (.agentError .requestValidation
            "Only exact stable semantic versions are accepted") := by
          rw [parse_str, areParts]
        have rejected : validateTargetVersion text ≠ true := by
          intro accepted
          rw [validateTargetVersion_of_not (not_hasPrefix accepted), areParts] at accepted
          cases accepted
        refine ⟨iff_of_false rejected ?_, fun accepted => absurd accepted rejected, ?_⟩
        · rintro ⟨⟨version, isVersion⟩, -⟩
          rw [refused] at isVersion
          cases isVersion
        · intro error failed
          rw [refused] at failed
          exact ⟨_, (Except.error.inj failed).symm⟩
      · intro major minor patch isSome
        rw [areParts] at isSome
        cases isSome
  | some parts =>
      obtain ⟨major, minor, patch⟩ := parts
      have canonical : Canonical text ↔
          Short major minor patch ∧ (¬ HasPrefix text → Ascii major minor patch) := by
        constructor
        · exact fun canonical => canonical major minor patch areParts
        · intro holds first second third same
          rw [areParts] at same
          cases same
          exact holds
      rw [canonical]
      by_cases short : Short major minor patch
      · have parses := parse_short areParts short
        have accepts : ¬ HasPrefix text → validateTargetVersion text = true := by
          intro noPrefix
          rw [validateTargetVersion_of_not noPrefix, areParts]
          rfl
        have echoed : ¬ HasPrefix text →
            ((versionOf major minor patch).text = text ↔ Ascii major minor patch) := by
          intro noPrefix
          rw [unprefixed_of_not noPrefix] at areParts
          rw [← text_versionOf areParts, String.toList_inj]
        constructor
        · intro agrees
          refine ⟨short, fun noPrefix => (echoed noPrefix).mp ?_⟩
          obtain ⟨version, isVersion, same⟩ := agrees.echoes (accepts noPrefix)
          rw [parses] at isVersion
          rw [Except.ok.inj isVersion]
          exact same
        · rintro ⟨-, ascii⟩
          refine ⟨⟨fun accepted => ⟨⟨_, parses⟩, not_hasPrefix accepted⟩,
            fun read => accepts read.2⟩, fun accepted => ?_, fun error failed => ?_⟩
          · have noPrefix := not_hasPrefix accepted
            exact ⟨_, parses, (echoed noPrefix).mpr (ascii noPrefix)⟩
          · rw [parses] at failed
            cases failed
      · apply iff_of_false
        · intro agrees
          obtain ⟨message, isRequest⟩ := agrees.errors _ (parse_long areParts short)
          cases isRequest
        · exact fun holds => short holds.1

/-- For every two texts: the CRM and the agent agree on both, and read them apart,
exactly when both are canonical. -/
theorem versions_agree_iff (first second : String) :
    (Agrees first ∧ Agrees second ∧ ReadApart first second) ↔
      Canonical first ∧ Canonical second := by
  rw [← agrees_iff, ← agrees_iff]
  constructor
  · exact fun agree => ⟨agree.1, agree.2.1⟩
  · rintro ⟨firstAgrees, secondAgrees⟩
    refine ⟨firstAgrees, secondAgrees, fun version noPrefix noPrefix' isFirst isSecond => ?_⟩
    have echoes : ∀ {text : String}, Agrees text → ¬ HasPrefix text →
        StableVersion.parse (.str text) = .ok version → version.text = text := by
      intro text agrees without isVersion
      have accepted := agrees.accepts.mpr ⟨⟨version, isVersion⟩, without⟩
      obtain ⟨other, isOther, same⟩ := agrees.echoes accepted
      rw [isVersion] at isOther
      rw [Except.ok.inj isOther]
      exact same
    rw [← echoes firstAgrees noPrefix isFirst, echoes secondAgrees noPrefix' isSecond]

/-- A version with an Arabic digit is echoed with an ASCII one. -/
theorem arabic_digit_disagrees : ¬ Agrees "1\u0662.0.0" := by
  intro agrees
  have accepted : validateTargetVersion "1\u0662.0.0" = true := by decide +kernel
  have parses : StableVersion.parse (.str "1\u0662.0.0") = .ok ⟨12, 0, 0⟩ := by decide +kernel
  have echoed : (⟨12, 0, 0⟩ : StableVersion).text ≠ "1\u0662.0.0" := by decide +kernel
  obtain ⟨version, isVersion, same⟩ := agrees.echoes accepted
  rw [parses] at isVersion
  rw [← Except.ok.inj isVersion] at same
  exact echoed same

end BubllioCrm.Onboarding
