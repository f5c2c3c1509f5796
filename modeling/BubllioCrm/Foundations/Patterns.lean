import BubllioCrm.Foundations.Digits

/-!
Owns the character classes of the patterns that names are matched against,
patterns of one class for the first character and one for the rest, canonical
identifiers, and `strip`.
-/

namespace BubllioCrm.Foundations

/-- The text has a first character of one class, and its others are of a second. -/
def matchesHeadTail (head tail : Char → Bool) (text : String) : Bool :=
  match text.toList with
  | [] => false
  | first :: rest => head first && rest.all tail

/-- All characters are of one class. -/
def matchesAll (cls : Char → Bool) (text : String) : Bool :=
  text.toList.all cls

/-- `[0-9a-f]`. -/
def isLowerHex (char : Char) : Bool :=
  char.isDigit || char ∈ ['a', 'b', 'c', 'd', 'e', 'f']

/-- `[a-z0-9]`. -/
def isLowerAlphanum (char : Char) : Bool :=
  char.isLower || char.isDigit

/-- `str.isspace` of a character. -/
def isSpace (char : Char) : Bool :=
  isIntSpace char || char.toNat ∈ [0x1c, 0x1d, 0x1e, 0x1f]

/-- `str.strip`. -/
def strip (text : String) : String :=
  String.ofList ((((text.toList.dropWhile isSpace).reverse).dropWhile isSpace).reverse)

/-- `str(uuid.UUID(text)) == text`: lower-case digits in groups of 8, 4, 4, 4 and 12. -/
def isCanonicalUuid (text : String) : Bool :=
  let groups := text.toList.splitOn '-'
  groups.map List.length = [8, 4, 4, 4, 12] && groups.all fun group => group.all isLowerHex

variable {head tail cls : Char → Bool} {text : String} {char : Char}

theorem not_mem_of_matchesHeadTail (matched : matchesHeadTail head tail text = true)
    (notHead : head char = false) (notTail : tail char = false) : char ∉ text.toList := by
  unfold matchesHeadTail at matched
  cases chars : text.toList with
  | nil => simp
  | cons first rest =>
      simp only [chars, Bool.and_eq_true, List.all_eq_true] at matched
      rw [List.mem_cons, not_or]
      constructor
      · rintro rfl
        rw [matched.1] at notHead
        cases notHead
      · intro member
        rw [matched.2 char member] at notTail
        cases notTail

theorem not_mem_of_matchesAll (matched : matchesAll cls text = true) (absent : cls char = false) :
    char ∉ text.toList := by
  intro member
  rw [List.all_eq_true.mp matched char member] at absent
  cases absent

theorem isUpper_range {char : Char} (capital : char.isUpper = true) :
    65 ≤ char.toNat ∧ char.toNat ≤ 90 := by
  have bounds : 'A'.val ≤ char.val ∧ char.val ≤ 'Z'.val := of_decide_eq_true capital
  exact ⟨UInt32.le_iff_toNat_le.mp bounds.1, UInt32.le_iff_toNat_le.mp bounds.2⟩

theorem isLowerHex_ascii {char : Char} (hex : isLowerHex char = true) : char.toNat < 128 := by
  rcases Bool.or_eq_true_iff.mp hex with digit | letter
  · have range : 48 ≤ char.toNat ∧ char.toNat ≤ 57 := Char.isDigit_iff_toNat.mp digit
    omega
  · simp only [List.mem_cons, List.not_mem_nil, or_false, decide_eq_true_eq] at letter
    rcases letter with rfl | rfl | rfl | rfl | rfl | rfl <;> decide

theorem mem_intercalate {Item : Type*} {separator item : Item} :
    ∀ {groups : List (List Item)}, item ∈ [separator].intercalate groups →
      item = separator ∨ ∃ group ∈ groups, item ∈ group
  | [], member => by simp at member
  | [group], member => Or.inr ⟨group, List.mem_cons_self, by simpa using member⟩
  | group :: next :: rest, member => by
      rw [List.intercalate_cons_of_ne_nil (List.cons_ne_nil next rest)] at member
      rcases List.mem_append.mp member with inPrefix | later
      · rcases List.mem_append.mp inPrefix with inGroup | isSeparator
        · exact Or.inr ⟨group, List.mem_cons_self, inGroup⟩
        · exact Or.inl (List.mem_singleton.mp isSeparator)
      · rcases mem_intercalate later with isSeparator | ⟨other, isGroup, inGroup⟩
        · exact Or.inl isSeparator
        · exact Or.inr ⟨other, List.mem_cons_of_mem _ isGroup, inGroup⟩

theorem mem_of_isCanonicalUuid {text : String} {char : Char}
    (canonical : isCanonicalUuid text = true) (member : char ∈ text.toList) :
    char = '-' ∨ isLowerHex char = true := by
  simp only [isCanonicalUuid, Bool.and_eq_true, List.all_eq_true] at canonical
  have joined : ['-'].intercalate (text.toList.splitOn '-') = text.toList :=
    List.intercalate_splitOn '-'
  rw [← joined] at member
  rcases mem_intercalate member with isHyphen | ⟨group, isGroup, inGroup⟩
  · exact Or.inl isHyphen
  · exact Or.inr (canonical.2 group isGroup char inGroup)

end BubllioCrm.Foundations
