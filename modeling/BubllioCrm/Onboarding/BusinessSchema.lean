import BubllioCrm.Foundations.Fallible
import BubllioCrm.Foundations.Ownership
import Mathlib.Tactic.SplitIfs

/-!
Owns the models of a business transfer with their columns, and the check that
no relation of theirs crosses organizations, which refuses the transfer.
-/

namespace BubllioCrm.Onboarding.BusinessTransfer

open BubllioCrm.Foundations

/-- The models of `BUSINESS_DATASETS`. -/
inductive Dataset where
  | organizations
  | organizationSettings
  | memberships
  | customerCodeCounters
  | companies
  | contacts
  | deals
  | tasks
  | externalCollaborators
  | collaboratorServices
  | dealCostLines
  | serviceCatalogItems
  | customerSubscriptions
  | charges
  | payments
  | companyActivities
  | contactActivities
  | companyTimelineEvents
deriving DecidableEq

def Dataset.name : Dataset → String
  | .organizations => "organizations"
  | .organizationSettings => "organization_settings"
  | .memberships => "memberships"
  | .customerCodeCounters => "customer_code_counters"
  | .companies => "companies"
  | .contacts => "contacts"
  | .deals => "deals"
  | .tasks => "tasks"
  | .externalCollaborators => "external_collaborators"
  | .collaboratorServices => "collaborator_services"
  | .dealCostLines => "deal_cost_lines"
  | .serviceCatalogItems => "service_catalog_items"
  | .customerSubscriptions => "customer_subscriptions"
  | .charges => "charges"
  | .payments => "payments"
  | .companyActivities => "company_activities"
  | .contactActivities => "contact_activities"
  | .companyTimelineEvents => "company_timeline_events"

/-- `BUSINESS_DATASETS`. -/
def businessDatasets : List Dataset :=
  [.organizations, .organizationSettings, .memberships, .customerCodeCounters, .companies,
    .contacts, .deals, .tasks, .externalCollaborators, .collaboratorServices, .dealCostLines,
    .serviceCatalogItems, .customerSubscriptions, .charges, .payments, .companyActivities,
    .contactActivities, .companyTimelineEvents]

/-- The types of primary keys. -/
inductive IdType where
  | uuid
  | integer

/-- The type of `id`. A model that declares none has the default, an integer. -/
def Dataset.idType : Dataset → IdType
  | .organizationSettings => .integer
  | _ => .uuid

theorem mem_businessDatasets (dataset : Dataset) : dataset ∈ businessDatasets := by
  cases dataset <;> decide

/-- The relations of the models to each other. -/
inductive ForeignKey where
  | organization
  | company
  | contact
  | deal
  | collaborator
  | collaboratorService
  | catalogItem
  | originatingDeal
  | subscription
  | charge
deriving DecidableEq

namespace ForeignKey

def attname : ForeignKey → String
  | organization => "organization_id"
  | company => "company_id"
  | contact => "contact_id"
  | deal => "deal_id"
  | collaborator => "collaborator_id"
  | collaboratorService => "collaborator_service_id"
  | catalogItem => "catalog_item_id"
  | originatingDeal => "originating_deal_id"
  | subscription => "subscription_id"
  | charge => "charge_id"

def relatedModel : ForeignKey → Dataset
  | organization => .organizations
  | company => .companies
  | contact => .contacts
  | deal | originatingDeal => .deals
  | collaborator => .externalCollaborators
  | collaboratorService => .collaboratorServices
  | catalogItem => .serviceCatalogItems
  | subscription => .customerSubscriptions
  | charge => .charges

end ForeignKey

namespace Dataset

/-- The relations of a model to the others. -/
def foreignKeys : Dataset → List ForeignKey
  | .organizations => []
  | .organizationSettings => [.organization]
  | .memberships => [.organization]
  | .customerCodeCounters => [.organization]
  | .companies => [.organization]
  | .contacts => [.organization, .company]
  | .deals => [.organization, .company, .contact]
  | .tasks => [.organization, .company, .contact, .deal]
  | .externalCollaborators => [.organization]
  | .collaboratorServices => [.organization, .collaborator]
  | .dealCostLines => [.organization, .deal, .collaborator, .collaboratorService]
  | .serviceCatalogItems => [.organization]
  | .customerSubscriptions => [.organization, .company, .catalogItem, .originatingDeal]
  | .charges => [.organization, .subscription]
  | .payments => [.organization, .charge]
  | .companyActivities => [.organization, .company]
  | .contactActivities => [.organization, .contact]
  | .companyTimelineEvents => [.organization, .company]

/-- The relations of a model to users. -/
def userFields : Dataset → List String
  | .organizations => ["personal_owner_id"]
  | .memberships => ["user_id"]
  | .companies => ["assigned_to_id"]
  | .contacts => ["assigned_to_id"]
  | .deals => ["assigned_to_id"]
  | .tasks => ["assigned_to_id", "created_by_id", "completed_by_id"]
  | .customerSubscriptions => ["assigned_to_id"]
  | .payments => ["recorded_by_id"]
  | .companyActivities => ["actor_id"]
  | .contactActivities => ["actor_id"]
  | .companyTimelineEvents => ["actor_id"]
  | _ => []

/-- The columns of a model that are no relations. -/
def plainFields : Dataset → List String
  | .organizations => ["id", "name", "slug", "is_personal", "created_at", "updated_at"]
  | .organizationSettings =>
      ["id", "timezone", "locale", "default_from_name", "legal_name", "trading_name", "tax_id",
        "tax_office", "registration_number", "business_email", "phone", "website",
        "address_line_1", "address_line_2", "city", "postal_code", "country", "currency",
        "fiscal_year_start_month", "default_tax_rate", "default_payment_terms_days",
        "document_prefix", "next_document_number", "created_at", "updated_at"]
  | .memberships => ["id", "role", "created_at", "updated_at"]
  | .customerCodeCounters => ["id", "last_number"]
  | .companies =>
      ["id", "customer_code", "name", "tax_id", "industry", "email", "phone_number", "website",
        "address_line_1", "address_line_2", "city", "postal_code", "country", "notes",
        "lifecycle_stage", "created_at", "updated_at", "archived_at"]
  | .contacts =>
      ["id", "first_name", "last_name", "email", "phone_number", "department", "job_title",
        "status", "is_primary", "created_at", "updated_at", "archived_at"]
  | .deals =>
      ["id", "title", "value", "currency", "tax_rate", "amount_includes_tax", "probability",
        "stage", "sort_order", "expected_close_date", "lost_reason", "notes", "archived_at",
        "created_at", "updated_at"]
  | .tasks =>
      ["id", "title", "kind", "priority", "workflow_status", "due_at", "reminder_at", "notes",
        "completed_at", "created_at", "updated_at"]
  | .externalCollaborators =>
      ["id", "name", "specialty", "email", "phone_number", "notes", "is_active", "created_at",
        "updated_at"]
  | .collaboratorServices =>
      ["id", "name", "description", "default_cost", "currency", "is_active", "created_at",
        "updated_at"]
  | .dealCostLines =>
      ["id", "collaborator_name", "service_name", "description", "quantity", "unit_cost",
        "currency", "status", "created_at", "updated_at"]
  | .serviceCatalogItems =>
      ["id", "name", "description", "internal_code", "default_net_price", "currency",
        "default_tax_rate", "billing_interval", "is_active", "created_at", "updated_at"]
  | .customerSubscriptions =>
      ["id", "name", "net_price", "currency", "tax_rate", "billing_interval", "start_date",
        "next_billing_date", "renewal_date", "end_date", "cancellation_effective_date",
        "cancelled_at", "auto_renew", "status", "operational_reference", "notes", "created_at",
        "updated_at"]
  | .charges =>
      ["id", "coverage_start", "coverage_end", "due_date", "net_amount", "tax_rate",
        "tax_amount", "gross_amount", "currency", "state", "created_at", "updated_at"]
  | .payments =>
      ["id", "amount", "paid_date", "payment_method", "external_reference", "note",
        "created_at"]
  | .companyActivities => ["id", "action", "details", "created_at"]
  | .contactActivities => ["id", "action", "details", "created_at"]
  | .companyTimelineEvents =>
      ["id", "category", "event_type", "source_type", "source_id", "body", "details",
        "occurred_at"]

/-- `model._meta.concrete_fields`. -/
def concreteFields (dataset : Dataset) : List String :=
  dataset.plainFields ++ dataset.foreignKeys.map ForeignKey.attname ++ dataset.userFields

/-- `BUSINESS_FIELDS`. -/
def businessFields : Dataset → List String
  | .organizations =>
      ["id", "name", "slug", "is_personal", "personal_owner_id", "created_at", "updated_at"]
  | .organizationSettings =>
      ["id", "organization_id", "timezone", "locale", "default_from_name", "legal_name",
        "trading_name", "tax_id", "tax_office", "registration_number", "business_email",
        "phone", "website", "address_line_1", "address_line_2", "city", "postal_code",
        "country", "currency", "fiscal_year_start_month", "default_tax_rate",
        "default_payment_terms_days", "document_prefix", "next_document_number", "created_at",
        "updated_at"]
  | .memberships => ["id", "organization_id", "user_id", "role", "created_at", "updated_at"]
  | .customerCodeCounters => ["id", "organization_id", "last_number"]
  | .companies =>
      ["id", "organization_id", "customer_code", "assigned_to_id", "name", "tax_id",
        "industry", "email", "phone_number", "website", "address_line_1", "address_line_2",
        "city", "postal_code", "country", "notes", "lifecycle_stage", "created_at",
        "updated_at", "archived_at"]
  | .contacts =>
      ["id", "organization_id", "company_id", "assigned_to_id", "first_name", "last_name",
        "email", "phone_number", "department", "job_title", "status", "is_primary",
        "created_at", "updated_at", "archived_at"]
  | .deals =>
      ["id", "organization_id", "company_id", "contact_id", "assigned_to_id", "title", "value",
        "currency", "tax_rate", "amount_includes_tax", "probability", "stage", "sort_order",
        "expected_close_date", "lost_reason", "notes", "archived_at", "created_at", "updated_at"]
  | .tasks =>
      ["id", "organization_id", "company_id", "contact_id", "deal_id", "assigned_to_id",
        "created_by_id", "completed_by_id", "title", "kind", "priority", "workflow_status",
        "due_at", "reminder_at", "notes", "completed_at", "created_at", "updated_at"]
  | .externalCollaborators =>
      ["id", "organization_id", "name", "specialty", "email", "phone_number", "notes",
        "is_active", "created_at", "updated_at"]
  | .collaboratorServices =>
      ["id", "organization_id", "collaborator_id", "name", "description", "default_cost",
        "currency", "is_active", "created_at", "updated_at"]
  | .dealCostLines =>
      ["id", "organization_id", "deal_id", "collaborator_id", "collaborator_service_id",
        "collaborator_name", "service_name", "description", "quantity", "unit_cost", "currency",
        "status", "created_at", "updated_at"]
  | .serviceCatalogItems =>
      ["id", "organization_id", "name", "description", "internal_code", "default_net_price",
        "currency", "default_tax_rate", "billing_interval", "is_active", "created_at",
        "updated_at"]
  | .customerSubscriptions =>
      ["id", "organization_id", "company_id", "catalog_item_id", "originating_deal_id",
        "assigned_to_id", "name", "net_price", "currency", "tax_rate", "billing_interval",
        "start_date", "next_billing_date", "renewal_date", "end_date",
        "cancellation_effective_date", "cancelled_at", "auto_renew", "status",
        "operational_reference", "notes", "created_at", "updated_at"]
  | .charges =>
      ["id", "organization_id", "subscription_id", "coverage_start", "coverage_end",
        "due_date", "net_amount", "tax_rate", "tax_amount", "gross_amount", "currency", "state",
        "created_at", "updated_at"]
  | .payments =>
      ["id", "organization_id", "charge_id", "amount", "paid_date", "payment_method",
        "external_reference", "note", "recorded_by_id", "created_at"]
  | .companyActivities =>
      ["id", "organization_id", "company_id", "actor_id", "action", "details", "created_at"]
  | .contactActivities =>
      ["id", "organization_id", "contact_id", "actor_id", "action", "details", "created_at"]
  | .companyTimelineEvents =>
      ["id", "organization_id", "company_id", "actor_id", "category", "event_type",
        "source_type", "source_id", "body", "details", "occurred_at"]

end Dataset

/-! ### The check -/

/-- The rows of each model with their organization and their relations. -/
abbrev Tables := Dataset → List (OwnedRow ForeignKey)

/-- `set(first) == set(second)`. -/
def SameFields (first second : List String) : Prop :=
  (∀ field ∈ first, field ∈ second) ∧ ∀ field ∈ second, field ∈ first

instance (first second : List String) : Decidable (SameFields first second) :=
  inferInstanceAs (Decidable (_ ∧ _))

/-- The organization of the row with an id. -/
def organizationOf (rows : List (OwnedRow ForeignKey)) (id : Nat) : Option Nat :=
  (rows.find? (·.id = id)).map OwnedRow.owner

/-- A row has a relation that leads to another organization. -/
def crosses (tables : Tables) (key : ForeignKey) (row : OwnedRow ForeignKey) : Bool :=
  (row.references.lookup key).join.any fun target =>
    if key.relatedModel = .organizations then target ≠ row.owner
    else organizationOf (tables key.relatedModel) target ≠ some row.owner

/-- The error of a model whose columns are not those of the format. -/
def schemaError (dataset : Dataset) : String :=
  "Business transfer schema changed for " ++ dataset.name ++ "; update the format version"

def relationError : String := "A business relation crosses organizations"

def checkDataset (tables : Tables) (dataset : Dataset) : Except String Unit :=
  if ¬ SameFields dataset.concreteFields dataset.businessFields then .error (schemaError dataset)
  else if dataset = .organizations then .ok ()
  else if dataset.foreignKeys.any fun key => (tables dataset).any (crosses tables key) then
    .error relationError
  else .ok ()

/-- `_validate_schema_and_tenants`. -/
def validateSchemaAndTenants (tables : Tables) : Except String Unit :=
  businessDatasets.forM (checkDataset tables)

/-- The columns of the models are those of the format. -/
theorem sameFields (dataset : Dataset) :
    SameFields dataset.concreteFields dataset.businessFields := by
  cases dataset <;> decide +kernel

variable {tables : Tables}

/-- An organization is its own. -/
def OwnedByThemselves (tables : Tables) : Prop :=
  ∀ row ∈ tables .organizations, row.id = row.owner

theorem mem_of_lookup {key : ForeignKey} {target : Nat}
    {references : List (ForeignKey × Option Nat)}
    (found : (references.lookup key).join = some target) : (key, some target) ∈ references := by
  rw [Option.join_eq_some_iff] at found
  induction references with
  | nil => cases found
  | cons reference rest inductionHypothesis =>
      rw [List.lookup_cons] at found
      by_cases isKey : key = reference.1
      · subst isKey
        simp only [beq_self_eq_true] at found
        rw [← Option.some.inj found]
        exact List.mem_cons_self
      · simp only [beq_eq_false_iff_ne.mpr isKey] at found
        exact List.mem_cons_of_mem _ (inductionHypothesis found)

/-- A relation within an organization is not found. -/
theorem not_crosses {dataset : Dataset} {row : OwnedRow ForeignKey} {key : ForeignKey}
    (isolated : Isolated ForeignKey.relatedModel tables) (themselves : OwnedByThemselves tables)
    (stored : row ∈ tables dataset) : crosses tables key row = false := by
  unfold crosses
  cases found : (row.references.lookup key).join with
  | none => rfl
  | some target =>
      obtain ⟨⟨other, otherStored, isTarget⟩, same⟩ :=
        isolated dataset row stored _ (mem_of_lookup found) target rfl
      rw [Option.any_some]
      split_ifs with isOrganization
      · dsimp only at otherStored
        rw [isOrganization] at otherStored
        have isOwner : target = row.owner := by
          rw [← isTarget, themselves other otherStored]
          exact same other (isOrganization ▸ otherStored) isTarget
        simp [isOwner]
      · have sameOwner : organizationOf (tables key.relatedModel) target = some row.owner := by
          unfold organizationOf
          cases isFound : (tables key.relatedModel).find? (·.id = target) with
          | none =>
              have missing := List.find?_eq_none.mp isFound other otherStored
              simp [isTarget] at missing
          | some first =>
              have isSought : first.id = target := by simpa using List.find?_some isFound
              rw [Option.map_some, same first (List.mem_of_find?_eq_some isFound) isSought]
        simp [sameOwner]

/-- The check passes where no relation leads to another organization. -/
theorem validate_of_isolated (isolated : Isolated ForeignKey.relatedModel tables)
    (themselves : OwnedByThemselves tables) : validateSchemaAndTenants tables = .ok () := by
  apply forM_eq_ok.mpr
  intro dataset _
  unfold checkDataset
  rw [if_neg (not_not.mpr (sameFields dataset))]
  split_ifs with isOrganizations found
  · rfl
  · obtain ⟨key, -, row, stored, crossing⟩ :
        ∃ key ∈ dataset.foreignKeys, ∃ row ∈ tables dataset, crosses tables key row = true := by
      simpa only [List.any_eq_true] using found
    rw [not_crosses isolated themselves stored] at crossing
    cases crossing
  · rfl

end BubllioCrm.Onboarding.BusinessTransfer
