import BubllioCrm.Activities.Services
import BubllioCrm.Companies.Related
import BubllioCrm.Foundations.References

/-!
Owns the checks of `TaskSerializer`, the row that a create request inserts, and
the row that `update_task` leaves when nothing interrupts it.
-/

namespace BubllioCrm.Activities

open BubllioCrm.Companies BubllioCrm.Foundations

/-- `TaskSerializer.validate`, where `stored` is the instance of a PATCH request. -/
def validate (related : Related) (organization : Nat) (stored : Option Task)
    (attrs : TaskAttrs) : Except FieldErrors TaskAttrs :=
  let company := attrs.company <|> stored.map Task.company
  let contact := attrs.contact.getD (stored.bind Task.contact)
  let deal := attrs.deal.getD (stored.bind Task.deal)
  let owner := attrs.assignedTo.getD (stored.bind Task.assignedTo)
  let dueAt := attrs.dueAt <|> stored.map Task.dueAt
  let reminderAt := attrs.reminderAt.getD (stored.bind Task.reminderAt)
  if company.any fun company => related.companyOrganization company ≠ some organization then
    .error [("company", "Choose a company from this workspace.")]
  else if contact.any fun contact => related.contactOrganization contact ≠ some organization ∨
      related.contactCompany contact ≠ company then
    .error [("contact", "Choose a contact from the selected company.")]
  else if deal.any fun deal => related.dealOrganization deal ≠ some organization ∨
      related.dealCompany deal ≠ company then
    .error [("deal", "Choose a deal from the selected company.")]
  else if owner.any fun owner => ¬ related.isMember organization owner then
    .error [("assigned_to", "Choose a member of this workspace.")]
  else if reminderAt.any fun reminderAt => dueAt.any (· < reminderAt) then
    .error [("reminder_at", "The reminder must be before the due time.")]
  else .ok attrs

/-- The row of a create request that names the required fields. -/
def TaskAttrs.toRow (attrs : TaskAttrs) (id organization : Nat) : Option Task := do
  let company ← attrs.company
  let title ← attrs.title
  let dueAt ← attrs.dueAt
  return attrs.setOn {
    id := id
    organization := organization
    company := company
    title := title
    dueAt := dueAt }

/-- What `update_task` makes of the row that it has locked. -/
def updateTask (attrs : TaskAttrs) (workflowStatus : Option WorkflowStatus) (user now : Nat)
    (row : Task) : Task :=
  let body := (Body.ofRow row).saveFields attrs
  match workflowStatus with
  | none => body.row
  | some workflowStatus => (body.saveStatus workflowStatus user now).row

/-! ### References -/

variable {attrs : TaskAttrs} {task : Task}

/-- The columns that tie a task to a customer. -/
structure SameReferences (first second : Task) : Prop where
  id : first.id = second.id
  company : first.company = second.company
  contact : first.contact = second.contact
  deal : first.deal = second.deal

/-- The status of a task has no part in its references. -/
theorem sameReferences_updateTask (attrs : TaskAttrs) (workflowStatus : Option WorkflowStatus)
    (user now : Nat) (row : Task) :
    SameReferences (updateTask attrs workflowStatus user now row) (attrs.setOn row) := by
  unfold updateTask
  cases workflowStatus with
  | none => exact ⟨rfl, rfl, rfl, rfl⟩
  | some _ => exact ⟨rfl, rfl, rfl, rfl⟩

theorem validate_ok {related : Related} {organization : Nat} {stored : Option Task}
    {accepted : TaskAttrs}
    (valid : validate related organization stored attrs = .ok accepted) : accepted = attrs := by
  unfold validate at valid
  dsimp only at valid
  split_ifs at valid with company contact deal owner reminder
  exact (Except.ok.inj valid).symm

/-- The contact and the deal that a valid task refers to are of its company. -/
theorem leads_of_validate {related : Related} {organization company : Nat} {stored : Option Task}
    {accepted : TaskAttrs}
    (valid : validate related organization stored attrs = .ok accepted)
    (isCompany : (attrs.company <|> stored.map Task.company) = some company) :
    Leads related.contactCompany company (attrs.contact.getD (stored.bind Task.contact)) ∧
      Leads related.dealCompany company (attrs.deal.getD (stored.bind Task.deal)) := by
  unfold validate at valid
  dsimp only at valid
  rw [isCompany] at valid
  split_ifs at valid with isElsewhere contact deal owner reminder
  exact ⟨leads_of_checked contact, leads_of_checked deal⟩

/-- The company, the contact and the deal of a valid task are of the organization. -/
theorem organization_of_validate {related : Related} {organization : Nat} {stored : Option Task}
    {accepted : TaskAttrs}
    (valid : validate related organization stored attrs = .ok accepted) :
    Leads related.companyOrganization organization (attrs.company <|> stored.map Task.company) ∧
      Leads related.contactOrganization organization
        (attrs.contact.getD (stored.bind Task.contact)) ∧
      Leads related.dealOrganization organization (attrs.deal.getD (stored.bind Task.deal)) := by
  unfold validate at valid
  dsimp only at valid
  split_ifs at valid with company contact deal owner reminder
  exact ⟨leads_of_grouped company, leads_of_first contact, leads_of_first deal⟩

theorem toRow_owner {id organization : Nat} (isRow : attrs.toRow id organization = some task) :
    task.id = id ∧ task.organization = organization := by
  unfold TaskAttrs.toRow at isRow
  cases company : attrs.company with
  | none => simp [company] at isRow
  | some owner =>
      cases title : attrs.title with
      | none => simp [company, title] at isRow
      | some _ =>
          cases dueAt : attrs.dueAt with
          | none => simp [company, title, dueAt] at isRow
          | some _ =>
              simp only [company, title, dueAt, Option.bind_eq_bind, Option.bind_some,
                Option.pure_def, Option.some.injEq] at isRow
              subst isRow
              exact ⟨rfl, rfl⟩

theorem toRow_references {id organization : Nat}
    (isRow : attrs.toRow id organization = some task) :
    attrs.company = some task.company ∧ task.contact = attrs.contact.getD none ∧
      task.deal = attrs.deal.getD none := by
  unfold TaskAttrs.toRow at isRow
  cases company : attrs.company with
  | none => simp [company] at isRow
  | some owner =>
      cases title : attrs.title with
      | none => simp [company, title] at isRow
      | some _ =>
          cases dueAt : attrs.dueAt with
          | none => simp [company, title, dueAt] at isRow
          | some _ =>
              simp only [company, title, dueAt, Option.bind_eq_bind, Option.bind_some,
                Option.pure_def, Option.some.injEq] at isRow
              subst isRow
              simp [TaskAttrs.setOn, company]

end BubllioCrm.Activities
