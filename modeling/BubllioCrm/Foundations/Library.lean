import BubllioCrm.Foundations.Documents
import BubllioCrm.Foundations.Signing

/-!
Owns the functions of the standard library that both parties of a signed
exchange call and whose results the proofs leave open.
-/

namespace BubllioCrm.Foundations

/-- The parts of a split request target. -/
structure SplitTarget where
  path : String
  query : String
  fragment : String

inductive LoadsResult where
  | decoded (value : Document)
  /-- A `UnicodeDecodeError` or a `JSONDecodeError`. -/
  | invalid
  /-- Any other exception, such as that of a number with too many digits. -/
  | raised

structure Library where
  /-- `str.upper`. -/
  upper : String → String
  /-- `json.loads`. -/
  loads : ByteArray → LoadsResult
  /-- `urllib.parse.urlsplit`, where `none` is a `ValueError`. -/
  urlsplit : String → Option SplitTarget
  upper_line : ∀ text, IsLine text → IsLine (upper text)
  upper_capitals : ∀ text, (text.toList.all Char.isUpper) = true → upper text = text

end BubllioCrm.Foundations
