import BubllioCrm.Foundations.Digits
import BubllioCrm.Foundations.Json
import BubllioCrm.UpdateAgent.Release

/-!
Owns the text of stable versions: `StableVersion.parse` and `str`.
-/

namespace BubllioCrm.UpdateAgent

open BubllioCrm.Foundations

namespace StableVersion

/-- `0|[1-9]\d*`. -/
def isPart (part : List Char) : Bool :=
  match part with
  | [] => false
  | ['0'] => true
  | first :: rest => first ∈ ['1', '2', '3', '4', '5', '6', '7', '8', '9'] && rest.all isDecimal

/-- Matches the pattern and converts the parts, which raises a `ValueError`
where a part has too many digits. -/
def parse (value : Json) : Except Raised StableVersion :=
  let mismatch : Except Raised StableVersion :=
    .error (.agentError .requestValidation "Only exact stable semantic versions are accepted")
  match value with
  | .str text =>
      let unprefixed := if text.toList.head? = some 'v' then text.toList.tail else text.toList
      match unprefixed.splitOn '.' with
      | [major, minor, patch] =>
          if isPart major && isPart minor && isPart patch then
            match digitsInt major, digitsInt minor, digitsInt patch with
            | some major, some minor, some patch =>
                .ok { major := major, minor := minor, patch := patch }
            | _, _, _ => .error .otherException
          else mismatch
      | _ => mismatch
  | _ => .error (.agentError .requestValidation "Version must be a string")

/-- `str`. -/
def text (version : StableVersion) : String :=
  toString version.major ++ "." ++ toString version.minor ++ "." ++ toString version.patch

theorem mem_text {version : StableVersion} {char : Char} (member : char ∈ version.text.toList) :
    char = '.' ∨ char.isDigit = true := by
  have digits : ∀ number : Nat, char ∈ Nat.toDigits 10 number → char.isDigit = true :=
    fun number => Nat.isDigit_of_mem_toDigits (by decide) (by decide)
  simp only [text, Nat.toString_eq_repr, String.toList_append, Nat.toList_repr,
    List.mem_append] at member
  rcases member with (((major | dot) | minor) | dot) | patch
  · exact Or.inr (digits _ major)
  · exact Or.inl (by simpa using dot)
  · exact Or.inr (digits _ minor)
  · exact Or.inl (by simpa using dot)
  · exact Or.inr (digits _ patch)

end StableVersion

end BubllioCrm.UpdateAgent
