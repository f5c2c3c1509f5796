import BubllioCrm.Companies.Related
import BubllioCrm.Foundations.References
import Mathlib.Tactic.SplitIfs

/-!
Owns the rows of external collaborators, their services and the cost lines of
deals, and the checks of the serializers of services and cost lines.

Amounts are cents and quantities are hundredths. A `ServiceAttrs` or a
`LineAttrs` is what the fields of a serializer have accepted, with `none` for a
field that is not named.
-/

namespace BubllioCrm.Costing

open BubllioCrm.Companies BubllioCrm.Foundations

/-- `str.upper`, which leaves what it returns as it is. -/
structure Casing where
  upper : String → String
  upper_upper : ∀ text, upper (upper text) = upper text

structure ExternalCollaborator where
  id : Nat
  organization : Nat
  name : String
  isActive : Bool := true
deriving DecidableEq

structure CollaboratorService where
  id : Nat
  organization : Nat
  collaborator : Nat
  name : String
  description : String := ""
  defaultCost : Int
  currency : String := "EUR"
  isActive : Bool := true
deriving DecidableEq

inductive Status where
  | estimated
  | committed
  | paid
  | cancelled
deriving DecidableEq

structure DealCostLine where
  id : Nat
  organization : Nat
  deal : Nat
  collaborator : Nat
  collaboratorService : Option Nat := none
  collaboratorName : String
  serviceName : String
  description : String := ""
  quantity : Int := 100
  unitCost : Int
  currency : String
  status : Status := .estimated
deriving DecidableEq

/-- Three ASCII letters. -/
def IsCode (currency : String) : Prop :=
  currency.length = 3 ∧ currency.toList.all Char.isAlpha = true

instance : DecidablePred IsCode :=
  fun currency => inferInstanceAs (Decidable (currency.length = 3 ∧ _))

def currencyMessage : String := "Enter a three-letter currency code."

def normalizeCurrency (casing : Casing) (value : String) : Except String String :=
  if IsCode (casing.upper value) then .ok (casing.upper value) else .error currencyMessage

theorem normalizeCurrency_ok {casing : Casing} {value currency : String}
    (normalized : normalizeCurrency casing value = .ok currency) :
    currency = casing.upper value := by
  unfold normalizeCurrency at normalized
  split_ifs at normalized
  exact (Except.ok.inj normalized).symm

/-! ### Services -/

structure ServiceAttrs where
  collaborator : Option Nat := none
  name : Option String := none
  description : Option String := none
  defaultCost : Option Int := none
  currency : Option String := none
  isActive : Option Bool := none
deriving DecidableEq

/-- `serializer.save()` on the loaded service. -/
def ServiceAttrs.setOn (casing : Casing) (attrs : ServiceAttrs) (service : CollaboratorService) :
    CollaboratorService :=
  { service with
    collaborator := attrs.collaborator.getD service.collaborator
    name := attrs.name.getD service.name
    description := attrs.description.getD service.description
    defaultCost := attrs.defaultCost.getD service.defaultCost
    currency := casing.upper (attrs.currency.getD service.currency)
    isActive := attrs.isActive.getD service.isActive }

/-- The row of a create request that names the required fields. -/
def ServiceAttrs.toRow (casing : Casing) (attrs : ServiceAttrs) (id organization : Nat) :
    Option CollaboratorService := do
  let collaborator ← attrs.collaborator
  let name ← attrs.name
  let defaultCost ← attrs.defaultCost
  return attrs.setOn casing {
    id := id
    organization := organization
    collaborator := collaborator
    name := name
    defaultCost := defaultCost }

/-- `CollaboratorServiceSerializer.validate`, where `collaborators` finds the
collaborators and `stored` is the instance of a PATCH request. -/
def validateService (casing : Casing) (collaborators : Nat → Option ExternalCollaborator)
    (organization : Nat) (stored : Option CollaboratorService) (attrs : ServiceAttrs) :
    Except FieldErrors ServiceAttrs :=
  let collaborator := attrs.collaborator <|> stored.map CollaboratorService.collaborator
  if collaborator.any fun id =>
      (collaborators id).map ExternalCollaborator.organization ≠ some organization then
    .error [("collaborator", "Choose a collaborator from this workspace.")]
  else if stored = none ∧ collaborator.any fun id =>
      (collaborators id).any fun row => ¬ row.isActive then
    .error [("collaborator", "Choose an active collaborator.")]
  else
    match attrs.currency with
    | none => .ok attrs
    | some currency =>
        match normalizeCurrency casing currency with
        | .ok currency => .ok { attrs with currency := some currency }
        | .error message => .error [("non_field_errors", message)]

/-- The organizations of the collaborators that a check finds. -/
def organizations (collaborators : Nat → Option ExternalCollaborator) (id : Nat) : Option Nat :=
  (collaborators id).map ExternalCollaborator.organization

/-- The collaborator of a valid service is of the organization. -/
theorem organization_of_validateService {casing : Casing}
    {collaborators : Nat → Option ExternalCollaborator} {organization : Nat}
    {stored : Option CollaboratorService} {attrs accepted : ServiceAttrs}
    (valid : validateService casing collaborators organization stored attrs = .ok accepted) :
    accepted.collaborator = attrs.collaborator ∧ Leads (organizations collaborators) organization
      (attrs.collaborator <|> stored.map CollaboratorService.collaborator) := by
  unfold validateService at valid
  dsimp only at valid
  split_ifs at valid with elsewhere inactive
  refine ⟨?_, leads_of_grouped elsewhere⟩
  cases named : attrs.currency with
  | none =>
      rw [named] at valid
      rw [← Except.ok.inj valid]
  | some currency =>
      rw [named] at valid
      dsimp only at valid
      split at valid
      · rw [← Except.ok.inj valid]
      · cases valid

theorem ServiceAttrs.toRow_owner {casing : Casing} {attrs : ServiceAttrs} {id organization : Nat}
    {service : CollaboratorService} (isRow : attrs.toRow casing id organization = some service) :
    service.id = id ∧ service.organization = organization ∧
      attrs.collaborator = some service.collaborator := by
  unfold ServiceAttrs.toRow at isRow
  simp only [Option.bind_eq_bind, Option.bind_eq_some_iff, Option.pure_def,
    Option.some.injEq] at isRow
  obtain ⟨collaborator, isCollaborator, name, -, defaultCost, -, rfl⟩ := isRow
  exact ⟨rfl, rfl, by simp [setOn, isCollaborator]⟩

/-! ### Cost lines -/

structure LineAttrs where
  collaborator : Option Nat := none
  collaboratorService : Option (Option Nat) := none
  collaboratorName : Option String := none
  serviceName : Option String := none
  description : Option String := none
  quantity : Option Int := none
  unitCost : Option Int := none
  currency : Option String := none
  status : Option Status := none
deriving DecidableEq

/-- `serializer.save()` on the loaded line. It writes every column of the row. -/
def LineAttrs.setOn (casing : Casing) (attrs : LineAttrs) (line : DealCostLine) : DealCostLine :=
  { line with
    collaborator := attrs.collaborator.getD line.collaborator
    collaboratorService := attrs.collaboratorService.getD line.collaboratorService
    collaboratorName := attrs.collaboratorName.getD line.collaboratorName
    serviceName := attrs.serviceName.getD line.serviceName
    description := attrs.description.getD line.description
    quantity := attrs.quantity.getD line.quantity
    unitCost := attrs.unitCost.getD line.unitCost
    currency := casing.upper (attrs.currency.getD line.currency)
    status := attrs.status.getD line.status }

/-- The row of a create request with the fields that the checks leave named. -/
def LineAttrs.toRow (casing : Casing) (attrs : LineAttrs) (id organization deal : Nat) :
    Option DealCostLine := do
  let collaborator ← attrs.collaborator
  let collaboratorName ← attrs.collaboratorName
  let serviceName ← attrs.serviceName
  let unitCost ← attrs.unitCost
  let currency ← attrs.currency
  return attrs.setOn casing {
    id := id
    organization := organization
    deal := deal
    collaborator := collaborator
    collaboratorName := collaboratorName
    serviceName := serviceName
    unitCost := unitCost
    currency := currency }

/-- `setdefault` with the values of the service of the catalogue. -/
def LineAttrs.withDefaults (service : CollaboratorService) (attrs : LineAttrs) : LineAttrs :=
  { attrs with
    serviceName := attrs.serviceName <|> some service.name
    description := attrs.description <|> some service.description
    unitCost := attrs.unitCost <|> some service.defaultCost
    currency := attrs.currency <|> some service.currency }

def missingMessage : String :=
  "This field is required when no catalog service provides a default."

/-- The fields that have no value, neither in the request nor on the stored line. -/
def missingFields (stored : Option DealCostLine) (attrs : LineAttrs) : FieldErrors :=
  let serviceName := attrs.serviceName <|> stored.map DealCostLine.serviceName
  let currency := attrs.currency <|> stored.map DealCostLine.currency
  (if serviceName = none ∨ serviceName = some "" then [("service_name", missingMessage)] else []) ++
  (if (attrs.unitCost <|> stored.map DealCostLine.unitCost) = none then
    [("unit_cost", missingMessage)] else []) ++
  (if currency = none ∨ currency = some "" then [("currency", missingMessage)] else [])

/-- What a check of a cost line looks up. -/
structure Catalog where
  collaborators : Nat → Option ExternalCollaborator
  services : Nat → Option CollaboratorService

/-- The references of a cost line, as `DealCostLineSerializer.validate` checks
them: `none` where nothing speaks against them. -/
def lineRefusal (catalog : Catalog) (organization : Nat) (stored : Option DealCostLine)
    (attrs : LineAttrs) : Option FieldErrors :=
  let collaborator := attrs.collaborator <|> stored.map DealCostLine.collaborator
  let service := attrs.collaboratorService.getD (stored.bind DealCostLine.collaboratorService)
  let collaboratorChanged := collaborator ≠ stored.map DealCostLine.collaborator
  let serviceChanged := stored = none ∨ service ≠ stored.bind DealCostLine.collaboratorService
  if collaborator.any fun id =>
      (catalog.collaborators id).map ExternalCollaborator.organization ≠ some organization then
    some [("collaborator", "Choose a collaborator from this workspace.")]
  else if service.any fun id =>
      (catalog.services id).map CollaboratorService.organization ≠ some organization then
    some [("collaborator_service", "Choose a service from this workspace.")]
  else if service.any fun id => collaborator.any fun collaborator =>
      (catalog.services id).map CollaboratorService.collaborator ≠ some collaborator then
    some [("collaborator_service", "Choose a service from the selected collaborator.")]
  else if collaboratorChanged ∧ collaborator.any fun id =>
      (catalog.collaborators id).any fun row => ¬ row.isActive then
    some [("collaborator", "Choose an active collaborator.")]
  else if serviceChanged ∧ service.any fun id =>
      (catalog.services id).any fun row => ¬ row.isActive then
    some [("collaborator_service", "Choose an active collaborator service.")]
  else none

/-- The catalogue values that a line takes when it is created or its service
changes. -/
def takeDefaults (catalog : Catalog) (stored : Option DealCostLine) (attrs : LineAttrs) :
    LineAttrs :=
  let service := attrs.collaboratorService.getD (stored.bind DealCostLine.collaboratorService)
  match service.bind catalog.services with
  | none => attrs
  | some row =>
      if stored = none ∨ service ≠ stored.bind DealCostLine.collaboratorService then
        attrs.withDefaults row
      else attrs

/-- The name of the collaborator, when it is created or changes. -/
def nameCollaborator (catalog : Catalog) (stored : Option DealCostLine) (attrs : LineAttrs) :
    LineAttrs :=
  match attrs.collaborator with
  | none => attrs
  | some collaborator =>
      if stored.map DealCostLine.collaborator = some collaborator then attrs
      else
        { attrs with
          collaboratorName :=
            (catalog.collaborators collaborator).map ExternalCollaborator.name }

/-- `DealCostLineSerializer.validate`, where `dealCurrency` is the currency of
the deal that the request has loaded. -/
def validateLine (casing : Casing) (catalog : Catalog) (organization : Nat)
    (dealCurrency : String) (stored : Option DealCostLine) (attrs : LineAttrs) :
    Except FieldErrors LineAttrs :=
  match lineRefusal catalog organization stored attrs with
  | some errors => .error errors
  | none =>
      let defaulted := takeDefaults catalog stored attrs
      match missingFields stored defaulted with
      | [] =>
          let named := (defaulted.currency <|> stored.map DealCostLine.currency).getD ""
          match normalizeCurrency casing named with
          | .error message => .error [("currency", message)]
          | .ok currency =>
              if currency ≠ casing.upper dealCurrency then
                .error [("currency", "Cost currency must match the deal currency.")]
              else .ok (nameCollaborator catalog stored
                { defaulted with currency := some currency })
      | missing => .error missing

/-! ### What the checks of a line leave -/

section Lines

variable {casing : Casing} {catalog : Catalog} {organization deal id : Nat} {dealCurrency : String}
  {stored : Option DealCostLine} {line : DealCostLine} {attrs accepted : LineAttrs}

def Catalog.serviceOrganization (catalog : Catalog) (id : Nat) : Option Nat :=
  (catalog.services id).map CollaboratorService.organization

/-- The references that nothing speaks against are of the organization. -/
theorem organization_of_lineRefusal
    (accepts : lineRefusal catalog organization stored attrs = none) :
    Leads (organizations catalog.collaborators) organization
        (attrs.collaborator <|> stored.map DealCostLine.collaborator) ∧
      Leads catalog.serviceOrganization organization
        (attrs.collaboratorService.getD (stored.bind DealCostLine.collaboratorService)) := by
  unfold lineRefusal at accepts
  dsimp only at accepts
  split_ifs at accepts with collaborator service pair active activeService
  exact ⟨leads_of_grouped collaborator, leads_of_grouped service⟩

/-- The checks name no other references than the request. -/
structure SameReferences (first second : LineAttrs) : Prop where
  collaborator : first.collaborator = second.collaborator
  collaboratorService : first.collaboratorService = second.collaboratorService

theorem takeDefaults_references : SameReferences (takeDefaults catalog stored attrs) attrs := by
  unfold takeDefaults
  dsimp only
  split
  · exact ⟨rfl, rfl⟩
  · split_ifs
    · exact ⟨rfl, rfl⟩
    · exact ⟨rfl, rfl⟩

theorem nameCollaborator_references :
    SameReferences (nameCollaborator catalog stored attrs) attrs := by
  unfold nameCollaborator
  split
  · exact ⟨rfl, rfl⟩
  · split_ifs
    · exact ⟨rfl, rfl⟩
    · exact ⟨rfl, rfl⟩

theorem nameCollaborator_currency :
    (nameCollaborator catalog stored attrs).currency = attrs.currency := by
  unfold nameCollaborator
  split
  · rfl
  · split_ifs <;> rfl

/-- What the checks return: the request with its defaults, its currency in upper
case and the name of a collaborator that is new. -/
theorem validateLine_eq
    (valid : validateLine casing catalog organization dealCurrency stored attrs = .ok accepted) :
    lineRefusal catalog organization stored attrs = none ∧
      casing.upper (((takeDefaults catalog stored attrs).currency <|>
        stored.map DealCostLine.currency).getD "") = casing.upper dealCurrency ∧
      accepted = nameCollaborator catalog stored { takeDefaults catalog stored attrs with
        currency := some (casing.upper dealCurrency) } := by
  unfold validateLine at valid
  cases refusal : lineRefusal catalog organization stored attrs with
  | some errors => simp [refusal] at valid
  | none =>
      simp only [refusal] at valid
      cases missing : missingFields stored (takeDefaults catalog stored attrs) with
      | cons error rest => simp [missing] at valid
      | nil =>
          simp only [missing] at valid
          split at valid
          · cases valid
          · rename_i currency normalized
            split_ifs at valid with differs
            rw [not_not] at differs
            rw [← normalizeCurrency_ok normalized]
            exact ⟨rfl, differs, by rw [← Except.ok.inj valid, differs]⟩

/-- What the checks leave of a request: its references, which nothing speaks
against, and the currency of the deal. -/
theorem validateLine_ok
    (valid : validateLine casing catalog organization dealCurrency stored attrs = .ok accepted) :
    lineRefusal catalog organization stored attrs = none ∧ SameReferences accepted attrs ∧
      accepted.currency = some (casing.upper dealCurrency) := by
  have ⟨accepts, _, isAccepted⟩ := validateLine_eq valid
  have defaulted : SameReferences (takeDefaults catalog stored attrs) attrs :=
    takeDefaults_references
  rw [isAccepted]
  exact ⟨accepts, ⟨nameCollaborator_references.collaborator.trans defaulted.collaborator,
    nameCollaborator_references.collaboratorService.trans defaulted.collaboratorService⟩,
    nameCollaborator_currency⟩

theorem LineAttrs.toRow_columns (isRow : attrs.toRow casing id organization deal = some line) :
    line.id = id ∧ line.organization = organization ∧ line.deal = deal ∧
      attrs.collaborator = some line.collaborator ∧
      line.collaboratorService = attrs.collaboratorService.getD none ∧
      line.currency = casing.upper (attrs.currency.getD "") := by
  unfold LineAttrs.toRow at isRow
  simp only [Option.bind_eq_bind, Option.bind_eq_some_iff, Option.pure_def,
    Option.some.injEq] at isRow
  obtain ⟨collaborator, isCollaborator, name, -, service, -, cost, -, currency, isCurrency, rfl⟩ :=
    isRow
  exact ⟨rfl, rfl, rfl, by simp [setOn, isCollaborator], rfl, by simp [setOn, isCurrency]⟩

end Lines

end BubllioCrm.Costing
