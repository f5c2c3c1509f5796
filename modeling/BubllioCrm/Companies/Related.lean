/-!
Owns what the serializers of the customer modules look up in the tables they
do not write, and the shape of their errors.
-/

namespace BubllioCrm.Companies

/-- Field errors of a `ValidationError`: field and message. -/
abbrev FieldErrors := List (String × String)

/-- The columns of related rows by the id of the row, where `none` stands for no
such row, and how text is compared. -/
structure Related where
  companyOrganization : Nat → Option Nat
  contactOrganization : Nat → Option Nat
  contactCompany : Nat → Option Nat
  dealOrganization : Nat → Option Nat
  dealCompany : Nat → Option Nat
  catalogItemOrganization : Nat → Option Nat
  isMember : (organization user : Nat) → Bool
  hasCostLines : (deal : Nat) → Bool
  /-- `str.upper`. -/
  upper : String → String
  /-- The lookup `iexact` of the database. -/
  iexact : String → String → Bool
  /-- `Lower` of the database. -/
  lower : String → String

end BubllioCrm.Companies
