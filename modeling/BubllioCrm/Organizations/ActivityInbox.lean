import BubllioCrm.Deals.Models
import BubllioCrm.Foundations.FixedWidth
import BubllioCrm.Foundations.Paging
import BubllioCrm.Organizations.GlobalSearch
import BubllioCrm.Subscriptions.Overview
import Mathlib.Order.WithBot

/-!
Owns the activity inbox of a user in a workspace: the rows that raise signals,
in the order in which the database lists them, the items made of the first of
them, and which of all signals the inbox shows.

The collation of the database and where it puts nulls are parameters. The
clock is that of UTC, the time zone of the application.
-/

namespace BubllioCrm.Organizations.ActivityInbox

open BubllioCrm.Foundations

/-- How the database sorts names, and where nulls stand: SQLite lists them
first and PostgreSQL last. -/
structure DatabaseOrder (Key : Type) where
  collate : String → Key
  nullsFirst : Bool

/-! ### Rows -/

structure Company where
  id : Uuid
  organization : Uuid
  name : String
  assignedTo : Option Nat
  lifecycleStage : LifecycleStage := .lead
  archived : Bool := false
deriving DecidableEq

structure Deal where
  id : Uuid
  organization : Uuid
  company : Company
  title : String
  assignedTo : Option Nat
  stage : Deals.Stage := .lead
  expectedCloseDate : Option Date := none
  archived : Bool := false
deriving DecidableEq

structure Task where
  id : Uuid
  organization : Uuid
  company : Company
  deal : Option Uuid := none
  title : String
  assignedTo : Option Nat
  dueAt : DateTime
  completed : Bool := false
deriving DecidableEq

structure Invitation where
  organization : Uuid
  expiresAt : DateTime
  accepted : Bool := false
  revoked : Bool := false
deriving DecidableEq

/-- The tables that the inbox reads. Ids are primary keys, and `accounts` are the
agreements of a workspace. -/
structure Tables where
  tasks : List Task := []
  deals : List Deal := []
  companies : List Company := []
  invitations : List Invitation := []
  accounts : Uuid → List Subscriptions.Account := fun _ => []
  taskIds : (tasks.map Task.id).Nodup := by decide
  dealIds : (deals.map Deal.id).Nodup := by decide
  companyIds : (companies.map Company.id).Nodup := by decide

structure Request where
  organization : Uuid
  user : Nat
  canManageMembers : Bool
  now : DateTime

/-- `timezone.localdate()`. -/
def Request.today (request : Request) : Date := request.now.date

/-! ### Items -/

inductive Severity where
  | critical
  | warning
  | info
deriving DecidableEq

/-- `severity_order`. -/
def Severity.order : Severity → Nat
  | .critical => 0
  | .warning => 1
  | .info => 2

inductive Kind where
  | overdueTask
  | taskDueToday
  | dealWithoutNextAction
  | companyWithoutFollowUp
  | overdueCharges
  | renewalsDue
  | pendingInvitations
deriving DecidableEq

inductive EntityType where
  | task
  | deal
  | company
  | billing
  | members
deriving DecidableEq

/-- `_item`. The kind of every action is to navigate. -/
structure Item where
  id : String
  kind : Kind
  severity : Severity
  title : String
  description : String
  entityType : EntityType
  entityId : Option String
  dueAt : Option String
  path : String
deriving DecidableEq

/-- The key of `items.sort`. -/
def Item.key (item : Item) : Nat ×ₗ Bool ×ₗ String ×ₗ String :=
  toLex (item.severity.order, toLex (item.dueAt.isNone, toLex (item.dueAt.getD "", item.id)))

def taskItem (now : DateTime) (task : Task) : Item where
  id := "task:" ++ task.id.text
  kind := if task.dueAt < now then .overdueTask else .taskDueToday
  severity := if task.dueAt < now then .critical else .warning
  title := task.title
  description := task.company.name
  entityType := .task
  entityId := some task.id.text
  dueAt := some (String.ofList task.dueAt.isoformat)
  path := "tasks"

def dealItem (deal : Deal) : Item where
  id := "deal:" ++ (deal.id.text ++ ":next-action")
  kind := .dealWithoutNextAction
  severity := .warning
  title := deal.title
  description := deal.company.name
  entityType := .deal
  entityId := some deal.id.text
  dueAt := deal.expectedCloseDate.map fun date => String.ofList date.isoformat
  path := "deals"

def companyItem (company : Company) : Item where
  id := "company:" ++ (company.id.text ++ ":follow-up")
  kind := .companyWithoutFollowUp
  severity := .info
  title := company.name
  description := "No open follow-up"
  entityType := .company
  entityId := some company.id.text
  dueAt := none
  path := "companies/" ++ company.id.text

/-! ### Queries -/

/-- `MAX_ITEMS`. -/
def maxItems : Nat := 50

section Inbox

variable {Key : Type} [LinearOrder Key] (tables : Tables) (order : DatabaseOrder Key)
  (request : Request)

def Task.key (task : Task) : DateTime ×ₗ Uuid :=
  toLex (task.dueAt, task.id)

/-- `tasks`, up to its slice. -/
def dueTasks : List Task :=
  sortOn Task.key (tables.tasks.filter fun task =>
    task.organization = request.organization && task.assignedTo = some request.user &&
      !task.completed && task.dueAt.date ≤ request.today)

/-- `open_task_for_deal`. -/
def hasNextAction (deal : Deal) : Bool :=
  tables.tasks.any fun task =>
    task.organization = request.organization && task.deal = some deal.id && !task.completed

/-- `("expected_close_date", "id")`. -/
def Deal.key (deal : Deal) : Bool ×ₗ WithBot Date ×ₗ Uuid :=
  toLex (deal.expectedCloseDate.isSome == order.nullsFirst,
    toLex (deal.expectedCloseDate.elim ⊥ WithBot.some, deal.id))

/-- `deals`, up to its slice. -/
def dealsWithoutNextAction : List Deal :=
  sortOn (Deal.key order) (tables.deals.filter fun deal =>
    deal.organization = request.organization && deal.assignedTo = some request.user &&
      !deal.archived && deal.stage ∉ [Deals.Stage.won, Deals.Stage.lost] &&
      !hasNextAction tables request deal)

/-- The filters of `companies` without the exclusion of `deal_company_ids`. -/
def needsFollowUp (company : Company) : Bool :=
  company.organization = request.organization && company.assignedTo = some request.user &&
    !company.archived && company.lifecycleStage ≠ .inactive &&
    !tables.tasks.any fun task =>
      task.organization = request.organization && task.company.id = company.id && !task.completed

/-- `("name", "id")`. -/
def Company.key (company : Company) : Key ×ₗ Uuid :=
  toLex (order.collate company.name, company.id)

/-- `companies`, up to its slice. -/
def companiesWithoutFollowUp (dealCompanyIds : List Uuid) : List Company :=
  sortOn (Company.key order) (tables.companies.filter fun company =>
    needsFollowUp tables request company && company.id ∉ dealCompanyIds)

/-- `renewals_next_30_days` of the overview, where `horizon` is in 30 days. -/
def renewalsNext30Days (horizon : Date) : Nat :=
  (Subscriptions.activeAccounts request.today (tables.accounts request.organization)).countP
    fun account => account.subscription.renewalDate.any fun date =>
      request.today ≤ date && date ≤ horizon

def overdueCharges : Nat :=
  (Subscriptions.subscriptionOverview request.today
    (tables.accounts request.organization)).overdueCharges

def billingItems (horizon : Date) : List Item :=
  (if overdueCharges tables request ≠ 0 then [{
      id := "billing:overdue"
      kind := .overdueCharges
      severity := .critical
      title := "Overdue charges"
      description := toString (overdueCharges tables request)
      entityType := .billing
      entityId := none
      dueAt := none
      path := "services/billing" }]
    else []) ++
  if renewalsNext30Days tables request horizon ≠ 0 then [{
      id := "billing:renewals"
      kind := .renewalsDue
      severity := .warning
      title := "Renewals in 30 days"
      description := toString (renewalsNext30Days tables request horizon)
      entityType := .billing
      entityId := none
      dueAt := some (String.ofList horizon.isoformat)
      path := "services/customer-services" }]
  else []

/-- `pending`. -/
def pendingInvitations : List Invitation :=
  tables.invitations.filter fun invitation =>
    invitation.organization = request.organization && !invitation.accepted &&
      !invitation.revoked && request.now < invitation.expiresAt

def invitationItems : List Item :=
  let pending := pendingInvitations tables request
  if request.canManageMembers ∧ pending.length ≠ 0 then [{
      id := "members:pending-invitations"
      kind := .pendingInvitations
      severity := .info
      title := "Pending invitations"
      description := toString pending.length
      entityType := .members
      entityId := none
      dueAt := (pending.map Invitation.expiresAt).min?.map fun expiry =>
        String.ofList expiry.isoformat
      path := "members" }]
  else []

/-- The items made of the rows of the three tables and the grouped ones. -/
def collect (horizon : Date) (tasks : List Task) (deals : List Deal) (companies : List Company) :
    List Item :=
  tasks.map (taskItem request.now) ++ deals.map dealItem ++ companies.map companyItem ++
    billingItems tables request horizon ++ invitationItems tables request

/-- The ids of the companies of deals. -/
def dealCompanyIds (deals : List Deal) : List Uuid :=
  deals.map fun deal => deal.company.id

/-- `items` before it is sorted. -/
def collectedItems (horizon : Date) : List Item :=
  let deals := (dealsWithoutNextAction tables order request).take maxItems
  collect tables request horizon ((dueTasks tables request).take maxItems) deals
    ((companiesWithoutFollowUp tables order request (dealCompanyIds deals)).take maxItems)

structure Inbox where
  count : Nat
  items : List Item
deriving DecidableEq

/-- `activity_inbox`. It raises where the calendar ends within 30 days. -/
def activityInbox : Option Inbox :=
  (request.today.addDays 30).map fun horizon =>
    let items := (sortOn Item.key (collectedItems tables order request horizon)).take maxItems
    { count := items.length, items := items }

/-! ### All signals -/

/-- The companies whose follow-up is a signal: no deal of theirs raises one. -/
def followUps : List Company :=
  companiesWithoutFollowUp tables order request
    (dealCompanyIds (dealsWithoutNextAction tables order request))

/-- All signals of the user. -/
def allSignals (horizon : Date) : List Item :=
  collect tables request horizon (dueTasks tables request)
    (dealsWithoutNextAction tables order request) (followUps tables order request)

/-- The items of `collect` except those of companies. -/
def withoutCompanies (horizon : Date) (tasks : List Task) (deals : List Deal) : List Item :=
  tasks.map (taskItem request.now) ++ deals.map dealItem ++
    (billingItems tables request horizon ++ invitationItems tables request)

/-- All signals of the user except those of companies. -/
def otherSignals (horizon : Date) : List Item :=
  withoutCompanies tables request horizon (dueTasks tables request)
    (dealsWithoutNextAction tables order request)

/-- The inbox shows the first signals, and a follow-up is suppressed exactly for
the companies of deals with a signal of their own. -/
structure ShowsTop (horizon : Date) (inbox : Inbox) : Prop where
  items : inbox.items =
    (sortOn Item.key (allSignals tables order request horizon)).take maxItems
  suppressed : ∀ company ∈ tables.companies, needsFollowUp tables request company = true →
    (company ∉ companiesWithoutFollowUp tables order request
        (dealCompanyIds ((dealsWithoutNextAction tables order request).take maxItems)) ↔
      ∃ deal ∈ dealsWithoutNextAction tables order request,
        dealItem deal ∈ collectedItems tables order request horizon ∧
          deal.company.id = company.id)
  hidden : ∀ deal ∈ dealsWithoutNextAction tables order request, ∀ company,
    deal.company.id = company.id → companyItem company ∉ inbox.items

/-- The rows whose signals come first are among the first that the database
lists of their table. -/
structure OrdersAgree (horizon : Date) : Prop where
  deals : ∀ deal ∈ dealsWithoutNextAction tables order request,
    dealItem deal ∈ (sortOn Item.key (otherSignals tables order request horizon)).take maxItems →
      deal ∈ (dealsWithoutNextAction tables order request).take maxItems
  companies : ∀ company ∈ (sortOn Company.id (followUps tables order request)).take
      (maxItems - (otherSignals tables order request horizon).length),
    company ∈ (followUps tables order request).take maxItems

end Inbox

section Items

variable {Key : Type} {tables : Tables} {order : DatabaseOrder Key} {request : Request}
  {horizon : Date} {tasks : List Task} {deals : List Deal} {companies : List Company}

/-! ### Ids of items -/

/-- Ids of different sources begin with different letters. -/
def Item.Begins (letters : List Char) (item : Item) : Prop :=
  ∃ letter ∈ letters, item.id.toList.head? = some letter

theorem Item.Begins.mono {item : Item} {letters others : List Char} (begins : item.Begins letters)
    (subset : letters ⊆ others) : item.Begins others := by
  have ⟨letter, isLetter, head⟩ := begins
  exact ⟨letter, subset isLetter, head⟩

theorem begins_taskItem (now : DateTime) (task : Task) : (taskItem now task).Begins ['t'] :=
  ⟨'t', by decide, by simp [taskItem]⟩

theorem begins_dealItem (deal : Deal) : (dealItem deal).Begins ['d'] :=
  ⟨'d', by decide, by simp [dealItem]⟩

theorem begins_companyItem (company : Company) : (companyItem company).Begins ['c'] :=
  ⟨'c', by decide, by simp [companyItem]⟩

/-- No item is from two sources. -/
theorem Item.Begins.disjoint {item : Item} {letters others : List Char}
    (begins : item.Begins letters) (otherBegins : item.Begins others)
    (differ : ∀ letter ∈ letters, letter ∉ others) : False := by
  obtain ⟨letter, isLetter, head⟩ := begins
  obtain ⟨otherLetter, isOther, otherHead⟩ := otherBegins
  rw [head] at otherHead
  exact differ letter isLetter (Option.some.inj otherHead ▸ isOther)

theorem nodup_append_of_begins {first second : List Item} (letters others : List Char)
    (firstIds : (first.map Item.id).Nodup) (secondIds : (second.map Item.id).Nodup)
    (begins : ∀ item ∈ first, item.Begins letters)
    (otherBegins : ∀ item ∈ second, item.Begins others)
    (differ : ∀ letter ∈ letters, letter ∉ others) : ((first ++ second).map Item.id).Nodup := by
  rw [List.map_append, List.nodup_append]
  refine ⟨firstIds, secondIds, ?_⟩
  intro id isFirst other isSecond same
  subst same
  obtain ⟨item, isItem, isId⟩ := List.mem_map.mp isFirst
  obtain ⟨otherItem, isOther, isOtherId⟩ := List.mem_map.mp isSecond
  have itemBegins := begins item isItem
  have otherItemBegins := otherBegins otherItem isOther
  unfold Item.Begins at itemBegins otherItemBegins
  rw [isOtherId, ← isId] at otherItemBegins
  exact Item.Begins.disjoint itemBegins otherItemBegins differ

/-- The grouped items: at most one for each condition. -/
theorem groupedIds_sublist :
    ((billingItems tables request horizon ++ invitationItems tables request).map
      Item.id).Sublist
      ["billing:overdue", "billing:renewals", "members:pending-invitations"] := by
  unfold billingItems invitationItems
  dsimp only
  split_ifs <;> simp

theorem begins_groupedItem {item : Item}
    (member : item ∈ billingItems tables request horizon ++ invitationItems tables request) :
    item.Begins ['b', 'm'] := by
  have isId := groupedIds_sublist.subset (List.mem_map_of_mem (f := Item.id) member)
  simp only [List.mem_cons, List.not_mem_nil, or_false] at isId
  rcases isId with isOverdue | isRenewals | isPending
  · exact ⟨'b', by decide, by rw [isOverdue]; decide⟩
  · exact ⟨'b', by decide, by rw [isRenewals]; decide⟩
  · exact ⟨'m', by decide, by rw [isPending]; decide⟩

theorem nodup_ids_tasks (ids : (tasks.map Task.id).Nodup) :
    ((tasks.map (taskItem request.now)).map Item.id).Nodup := by
  have nodup := ids.map (Uuid.strictMono_surround "task:" "").injective
  rw [List.map_map] at nodup ⊢
  simp only [String.append_empty] at nodup
  exact nodup

theorem nodup_ids_deals (ids : (deals.map Deal.id).Nodup) :
    ((deals.map dealItem).map Item.id).Nodup := by
  have nodup := ids.map (Uuid.strictMono_surround "deal:" ":next-action").injective
  rw [List.map_map] at nodup ⊢
  exact nodup

theorem nodup_ids_companies (ids : (companies.map Company.id).Nodup) :
    ((companies.map companyItem).map Item.id).Nodup := by
  have nodup := ids.map (Uuid.strictMono_surround "company:" ":follow-up").injective
  rw [List.map_map] at nodup ⊢
  exact nodup

theorem forall_mem_withoutCompanies {property : Item → Prop}
    (ofTask : ∀ task ∈ tasks, property (taskItem request.now task))
    (ofDeal : ∀ deal ∈ deals, property (dealItem deal))
    (ofGroup : ∀ item ∈ billingItems tables request horizon ++ invitationItems tables request,
      property item) :
    ∀ item ∈ withoutCompanies tables request horizon tasks deals, property item := by
  intro item member
  unfold withoutCompanies at member
  rcases List.mem_append.mp member with isRow | isGroup
  · rcases List.mem_append.mp isRow with isTask | isDeal
    · exact List.forall_mem_map.mpr ofTask item isTask
    · exact List.forall_mem_map.mpr ofDeal item isDeal
  · exact ofGroup item isGroup

theorem nodup_ids_withoutCompanies (taskIds : (tasks.map Task.id).Nodup)
    (dealIds : (deals.map Deal.id).Nodup) :
    ((withoutCompanies tables request horizon tasks deals).map Item.id).Nodup := by
  have begins : ∀ item ∈ deals.map dealItem ++
      (billingItems tables request horizon ++ invitationItems tables request),
      item.Begins ['d', 'b', 'm'] := by
    intro item member
    rcases List.mem_append.mp member with isDeal | isGroup
    · exact List.forall_mem_map.mpr
        (fun deal _ => (begins_dealItem deal).mono (by simp)) item isDeal
    · exact (begins_groupedItem isGroup).mono (by simp)
  have grouped : ((billingItems tables request horizon ++ invitationItems tables request).map
      Item.id).Nodup := groupedIds_sublist.nodup (by decide)
  have rest := nodup_append_of_begins ['d'] ['b', 'm'] (nodup_ids_deals dealIds) grouped
    (List.forall_mem_map.mpr fun deal _ => begins_dealItem deal)
    (fun _ member => begins_groupedItem member) (by simp)
  unfold withoutCompanies
  rw [List.append_assoc]
  exact nodup_append_of_begins ['t'] ['d', 'b', 'm'] (nodup_ids_tasks taskIds) rest
    (List.forall_mem_map.mpr fun task _ => begins_taskItem request.now task) begins (by simp)

variable (tables request horizon) in
theorem nodup_ids_append_companies (taskIds : (tasks.map Task.id).Nodup)
    (dealIds : (deals.map Deal.id).Nodup) (companyIds : (companies.map Company.id).Nodup) :
    ((withoutCompanies tables request horizon tasks deals ++
      companies.map companyItem).map Item.id).Nodup := by
  apply nodup_append_of_begins ['t', 'd', 'b', 'm'] ['c']
    (nodup_ids_withoutCompanies taskIds dealIds) (nodup_ids_companies companyIds)
  · apply forall_mem_withoutCompanies
    · exact fun task _ => (begins_taskItem _ task).mono (by simp)
    · exact fun deal _ => (begins_dealItem deal).mono (by simp)
    · exact fun item member => (begins_groupedItem member).mono (by simp)
  · exact List.forall_mem_map.mpr fun company _ => begins_companyItem company
  · simp

theorem keysDiffer {items : List Item} (ids : (items.map Item.id).Nodup) :
    KeysDiffer Item.key items := by
  intro first isFirst second isSecond same
  have sameId : first.id = second.id :=
    congrArg (fun key => (ofLex (ofLex (ofLex key).2).2).2) same
  exact List.inj_on_of_nodup_map ids isFirst isSecond sameId

/-! ### Signals of companies come last -/

variable (tables request horizon tasks deals companies) in
theorem collect_perm : (collect tables request horizon tasks deals companies).Perm
    (withoutCompanies tables request horizon tasks deals ++ companies.map companyItem) := by
  unfold collect withoutCompanies
  rw [List.append_assoc, List.append_assoc (tasks.map _ ++ _), List.append_assoc (tasks.map _ ++ _)]
  exact List.Perm.append_left _ List.perm_append_comm

theorem key_lt_companyItem (company : Company) {item : Item}
    (before : item.severity ≠ .info ∨ item.dueAt ≠ none) :
    item.key < (companyItem company).key := by
  unfold Item.key companyItem
  rw [Prod.Lex.toLex_lt_toLex, Prod.Lex.toLex_lt_toLex]
  cases isSeverity : item.severity with
  | critical => simp [Severity.order]
  | warning => simp [Severity.order]
  | info =>
      have isDue : item.dueAt ≠ none := before.resolve_left fun other => other isSeverity
      have due : item.dueAt.isNone = false := by
        rw [Option.isNone_eq_false_iff]
        exact Option.ne_none_iff_isSome.mp isDue
      simp [due]

theorem key_le_companyItem (company : Company) :
    ∀ item ∈ withoutCompanies tables request horizon tasks deals,
      item.key ≤ (companyItem company).key := by
  apply forall_mem_withoutCompanies
  · intro task _
    exact (key_lt_companyItem company (Or.inr (Option.some_ne_none _))).le
  · intro deal _
    exact (key_lt_companyItem company (Or.inl Severity.noConfusion)).le
  · intro item member
    apply le_of_lt
    apply key_lt_companyItem
    rcases List.mem_append.mp member with isBilling | isInvitation
    · left
      unfold billingItems at isBilling
      rcases List.mem_append.mp isBilling with isOverdue | isRenewals
      · split_ifs at isOverdue
        · rw [List.mem_singleton.mp isOverdue]
          exact Severity.noConfusion
        · exact absurd isOverdue List.not_mem_nil
      · split_ifs at isRenewals
        · rw [List.mem_singleton.mp isRenewals]
          exact Severity.noConfusion
        · exact absurd isRenewals List.not_mem_nil
    · right
      unfold invitationItems at isInvitation
      dsimp only at isInvitation
      split_ifs at isInvitation with shown
      · rw [List.mem_singleton] at isInvitation
        rw [isInvitation]
        simp only [ne_eq, Option.map_eq_none_iff, List.min?_eq_none_iff, List.map_eq_nil_iff]
        exact List.ne_nil_of_length_pos (Nat.pos_of_ne_zero shown.2)
      · simp at isInvitation

theorem sortOn_companyItems (ids : (companies.map Company.id).Nodup) :
    sortOn Item.key (companies.map companyItem) =
      (sortOn Company.id companies).map companyItem := by
  apply sortOn_map (keysDiffer (nodup_ids_companies ids))
  intro first second less
  have texts := (Uuid.strictMono_surround "company:" ":follow-up").monotone less
  unfold Item.key companyItem
  simp only [Prod.Lex.toLex_le_toLex, lt_self_iff_false, true_and, false_or]
  exact texts

theorem sortOn_collect (taskIds : (tasks.map Task.id).Nodup) (dealIds : (deals.map Deal.id).Nodup)
    (companyIds : (companies.map Company.id).Nodup) :
    sortOn Item.key (collect tables request horizon tasks deals companies) =
      sortOn Item.key (withoutCompanies tables request horizon tasks deals) ++
        (sortOn Company.id companies).map companyItem := by
  have ids := nodup_ids_append_companies tables request horizon taskIds dealIds companyIds
  have parts := collect_perm tables request horizon tasks deals companies
  have before : ∀ item ∈ withoutCompanies tables request horizon tasks deals,
      ∀ other ∈ companies.map companyItem, item.key ≤ other.key := fun item isItem =>
    List.forall_mem_map.mpr fun company _ => key_le_companyItem company item isItem
  rw [sortOn_append (keysDiffer ((parts.map Item.id).nodup_iff.mpr ids)) parts before,
    sortOn_companyItems companyIds]

/-! ### Rows are listed as their items are sorted -/

theorem text_lt_text {first second : List Char} (less : first < second) :
    String.ofList first < String.ofList second := by
  rw [String.lt_iff_toList_lt, String.toList_ofList, String.toList_ofList]
  exact less

/-- Items of two severities, or with a time before another, or with one time. -/
theorem Item.key_le {first second : Item}
    (severity : first.severity.order ≤ second.severity.order)
    (due : first.dueAt.isNone < second.dueAt.isNone ∨
      first.dueAt.isNone = second.dueAt.isNone ∧
        (first.dueAt.getD "" < second.dueAt.getD "" ∨
          first.dueAt.getD "" = second.dueAt.getD "" ∧ first.id ≤ second.id)) :
    first.key ≤ second.key := by
  unfold Item.key
  rw [Prod.Lex.toLex_le_toLex, Prod.Lex.toLex_le_toLex, Prod.Lex.toLex_le_toLex]
  rcases severity.lt_or_eq with isLess | same
  · exact Or.inl isLess
  · exact Or.inr ⟨same, due⟩

theorem taskItem_sorts (now : DateTime) (first second : Task)
    (less : Task.key first ≤ Task.key second) :
    (taskItem now first).key ≤ (taskItem now second).key := by
  unfold Task.key at less
  rw [Prod.Lex.toLex_le_toLex] at less
  have ordered : first.dueAt ≤ second.dueAt := less.elim le_of_lt fun same => same.1.le
  apply Item.key_le
  · show (if first.dueAt < now then Severity.critical else Severity.warning).order ≤
      (if second.dueAt < now then Severity.critical else Severity.warning).order
    by_cases overdue : second.dueAt < now
    · rw [if_pos overdue, if_pos (ordered.trans_lt overdue)]
    · rw [if_neg overdue]
      split
      · exact Nat.zero_le 1
      · exact le_rfl
  · have isDue (task : Task) : (taskItem now task).dueAt.isNone = false := rfl
    right
    rw [isDue first, isDue second]
    refine ⟨rfl, ?_⟩
    rcases less with isEarlier | ⟨sameDue, isLess⟩
    · exact Or.inl (text_lt_text (DateTime.strictMono_isoformat isEarlier))
    · have ids := (Uuid.strictMono_surround "task:" "").monotone isLess
      simp only [String.append_empty] at ids
      have sameText : String.ofList first.dueAt.isoformat = String.ofList second.dueAt.isoformat :=
        congrArg (fun due : DateTime => String.ofList due.isoformat) sameDue
      exact Or.inr ⟨sameText, ids⟩

/-- A database that lists nulls last lists deals as their items are sorted. -/
theorem dealItem_sorts (nullsLast : order.nullsFirst = false)
    (first second : Deal) (less : Deal.key order first ≤ Deal.key order second) :
    (dealItem first).key ≤ (dealItem second).key := by
  have ids : first.id ≤ second.id → (dealItem first).id ≤ (dealItem second).id :=
    fun isLess => (Uuid.strictMono_surround "deal:" ":next-action").monotone isLess
  unfold Deal.key at less
  rw [nullsLast, Prod.Lex.toLex_le_toLex, Prod.Lex.toLex_le_toLex] at less
  have severity : (dealItem first).severity.order ≤ (dealItem second).severity.order := le_rfl
  apply Item.key_le severity
  unfold dealItem at ids ⊢
  dsimp only at ids ⊢
  cases isFirst : first.expectedCloseDate with
  | none =>
      rw [isFirst] at less
      cases isSecond : second.expectedCloseDate with
      | none =>
          rw [isSecond] at less
          simp only [lt_self_iff_false, true_and, false_or] at less
          exact Or.inr ⟨rfl, Or.inr ⟨rfl, ids less⟩⟩
      | some date =>
          rw [isSecond] at less
          rcases less with isLess | ⟨same, -⟩
          · exact absurd isLess (show ¬ true < false by decide)
          · exact absurd same (show ¬ true = false by decide)
  | some date =>
      rw [isFirst] at less
      cases isSecond : second.expectedCloseDate with
      | none => exact Or.inl (show false < true by decide)
      | some otherDate =>
          rw [isSecond] at less
          right
          simp only [Option.map_some, Option.isNone_some, Option.getD_some, true_and]
          rcases less with isLess | ⟨-, isEarlier | ⟨same, isLess⟩⟩
          · exact absurd isLess (lt_irrefl false)
          · have earlierText := Date.strictMono_isoformat (WithBot.coe_lt_coe.mp isEarlier)
            exact Or.inl (text_lt_text earlierText)
          · have sameDate : date = otherDate := WithBot.coe_inj.mp same
            rw [sameDate]
            exact Or.inr ⟨rfl, ids isLess⟩

/-! ### Selected rows -/

theorem nodup_ids_sortOn {Row RowKey : Type} [LinearOrder RowKey] {id : Row → Uuid}
    {rowKey : Row → RowKey} {rows : List Row} (keeps : Row → Bool)
    (ids : (rows.map id).Nodup) : ((sortOn rowKey (rows.filter keeps)).map id).Nodup := by
  rw [((perm_sortOn rowKey (rows.filter keeps)).map id).nodup_iff]
  exact ids.sublist (List.filter_sublist.map id)

variable (tables order request horizon)

theorem nodup_dueTasks : ((dueTasks tables request).map Task.id).Nodup :=
  nodup_ids_sortOn _ tables.taskIds

theorem nodup_deals : ((dealsWithoutNextAction tables order request).map Deal.id).Nodup :=
  nodup_ids_sortOn _ tables.dealIds

theorem nodup_take {Row : Type} {id : Row → Uuid} {rows : List Row} (count : Nat)
    (ids : (rows.map id).Nodup) : ((rows.take count).map id).Nodup :=
  ids.sublist ((List.take_sublist count rows).map id)

/-- The items that are not those of companies, as the inbox collects them. -/
def collectedOthers : List Item :=
  withoutCompanies tables request horizon ((dueTasks tables request).take maxItems)
    ((dealsWithoutNextAction tables order request).take maxItems)

theorem nodup_otherSignals : ((otherSignals tables order request horizon).map Item.id).Nodup :=
  nodup_ids_withoutCompanies (nodup_dueTasks tables request) (nodup_deals tables order request)

theorem collectedOthers_sublist :
    (collectedOthers tables order request horizon).Sublist
      (otherSignals tables order request horizon) := by
  unfold collectedOthers otherSignals withoutCompanies
  apply List.Sublist.append_right
  exact ((List.take_sublist _ _).map _).append ((List.take_sublist _ _).map _)

theorem length_collectedOthers :
    min maxItems (otherSignals tables order request horizon).length =
      min maxItems (collectedOthers tables order request horizon).length := by
  unfold collectedOthers otherSignals withoutCompanies
  simp only [List.length_append, List.length_map, List.length_take]
  omega

/-- Fewer items than the inbox shows are all items. -/
theorem take_eq_of_lt (few : (otherSignals tables order request horizon).length < maxItems) :
    (dueTasks tables request).take maxItems = dueTasks tables request ∧
      (dealsWithoutNextAction tables order request).take maxItems =
        dealsWithoutNextAction tables order request := by
  unfold otherSignals withoutCompanies at few
  simp only [List.length_append, List.length_map] at few
  constructor
  · exact List.take_of_length_le (by omega)
  · exact List.take_of_length_le (by omega)

/-! ### What is collected -/

variable {tables order request horizon}

theorem taskItem_mem_collected {task : Task} (isTask : task ∈ dueTasks tables request)
    (isFirst : taskItem request.now task ∈
      (sortOn Item.key (otherSignals tables order request horizon)).take maxItems) :
    task ∈ (dueTasks tables request).take maxItems := by
  have others := nodup_otherSignals tables order request horizon
  apply mem_take_of_sorts (keysDiffer others) (List.Nodup.of_map _ others) _ _
    (taskItem_sorts request.now) isTask isFirst
  · exact List.Nodup.of_map _ (nodup_ids_tasks (nodup_dueTasks tables request))
  · intro item member
    exact List.mem_append_left _ (List.mem_append_left _ member)

theorem dealItem_mem_iff {deal : Deal}
    (isDeal : deal ∈ dealsWithoutNextAction tables order request) :
    dealItem deal ∈ collectedOthers tables order request horizon ↔
      deal ∈ (dealsWithoutNextAction tables order request).take maxItems := by
  have distinct := List.Nodup.of_map _ (nodup_ids_deals (nodup_deals tables order request))
  rw [← mem_map_take_iff distinct isDeal]
  constructor
  · intro member
    have property : ∀ item ∈ collectedOthers tables order request horizon,
        item = dealItem deal → item ∈ ((dealsWithoutNextAction tables order request).take
          maxItems).map dealItem := by
      apply forall_mem_withoutCompanies
      · intro task _ same
        exact ((begins_taskItem request.now task).disjoint (same ▸ begins_dealItem deal)
          (by simp)).elim
      · exact fun other isOther _ => List.mem_map_of_mem isOther
      · intro item isGroup same
        exact ((begins_groupedItem isGroup).disjoint (same ▸ begins_dealItem deal) (by simp)).elim
    exact property _ member rfl
  · intro member
    exact List.mem_append_left _ (List.mem_append_right _ member)

theorem companyItem_notMem_collectedOthers (company : Company) :
    companyItem company ∉ collectedOthers tables order request horizon := by
  intro member
  have property : ∀ item ∈ collectedOthers tables order request horizon,
      item ≠ companyItem company := by
    apply forall_mem_withoutCompanies
    · intro task _ same
      exact (begins_taskItem request.now task).disjoint (same ▸ begins_companyItem company)
        (by simp)
    · intro deal _ same
      exact (begins_dealItem deal).disjoint (same ▸ begins_companyItem company) (by simp)
    · intro item isGroup same
      exact (begins_groupedItem isGroup).disjoint (same ▸ begins_companyItem company) (by simp)
  exact property _ member rfl

theorem id_of_companyItem_eq {first second : Company}
    (same : companyItem first = companyItem second) : first.id = second.id :=
  (Uuid.strictMono_surround "company:" ":follow-up").injective (congrArg Item.id same)

/-- The tasks and the grouped conditions of the first signals are always
collected, so the deals decide. -/
theorem take_collectedOthers_eq_iff :
    (sortOn Item.key (collectedOthers tables order request horizon)).take maxItems =
        (sortOn Item.key (otherSignals tables order request horizon)).take maxItems ↔
      ∀ deal ∈ dealsWithoutNextAction tables order request,
        dealItem deal ∈
            (sortOn Item.key (otherSignals tables order request horizon)).take maxItems →
          deal ∈ (dealsWithoutNextAction tables order request).take maxItems := by
  have ids := nodup_otherSignals tables order request horizon
  have distinct := List.Nodup.of_map _ ids
  have isPart := collectedOthers_sublist tables order request horizon
  rw [take_sortOn_eq_iff (keysDiffer ids) distinct (distinct.sublist isPart) isPart.subset]
  constructor
  · intro all deal isDeal isFirst
    exact (dealItem_mem_iff isDeal).mp (all _ isFirst)
  · intro all item isFirst
    have isSignal : item ∈ otherSignals tables order request horizon :=
      (mem_sortOn Item.key).mp (List.mem_of_mem_take isFirst)
    have property : ∀ item ∈ otherSignals tables order request horizon,
        item ∈ (sortOn Item.key (otherSignals tables order request horizon)).take maxItems →
          item ∈ collectedOthers tables order request horizon := by
      apply forall_mem_withoutCompanies
      · intro task isTask isFirst
        have isCollected := taskItem_mem_collected isTask isFirst
        exact List.mem_append_left _ (List.mem_append_left _ (List.mem_map_of_mem isCollected))
      · intro deal isDeal isFirst
        exact (dealItem_mem_iff isDeal).mpr (all deal isDeal isFirst)
      · intro item isGroup _
        exact List.mem_append_right _ isGroup
    exact property item isSignal isFirst

end Items

section Results

variable {Key : Type} [LinearOrder Key] {tables : Tables} {order : DatabaseOrder Key}
  {request : Request} {horizon : Date}

theorem nodup_companies (excluded : List Uuid) :
    ((companiesWithoutFollowUp tables order request excluded).map Company.id).Nodup :=
  nodup_ids_sortOn _ tables.companyIds

theorem mem_companiesWithoutFollowUp {company : Company} {excluded : List Uuid} :
    company ∈ companiesWithoutFollowUp tables order request excluded ↔
      company ∈ tables.companies ∧ needsFollowUp tables request company = true ∧
        company.id ∉ excluded := by
  unfold companiesWithoutFollowUp
  rw [mem_sortOn, List.mem_filter, Bool.and_eq_true, decide_eq_true_iff]

/-- The companies of the inbox before they are cut off. -/
def collectedCompanies (tables : Tables) (order : DatabaseOrder Key) (request : Request) :
    List Company :=
  (companiesWithoutFollowUp tables order request
    (dealCompanyIds ((dealsWithoutNextAction tables order request).take maxItems))).take maxItems

theorem sortOn_collectedItems :
    sortOn Item.key (collectedItems tables order request horizon) =
      sortOn Item.key (collectedOthers tables order request horizon) ++
        (sortOn Company.id (collectedCompanies tables order request)).map companyItem :=
  sortOn_collect (nodup_take _ (nodup_dueTasks tables request))
    (nodup_take _ (nodup_deals tables order request)) (nodup_take _ (nodup_companies _))

theorem sortOn_allSignals :
    sortOn Item.key (allSignals tables order request horizon) =
      sortOn Item.key (otherSignals tables order request horizon) ++
        (sortOn Company.id (followUps tables order request)).map companyItem :=
  sortOn_collect (nodup_dueTasks tables request) (nodup_deals tables order request)
    (nodup_companies _)

/-- With less than the inbox shows of other signals, companies alone are cut off. -/
theorem collected_of_few
    (few : (otherSignals tables order request horizon).length < maxItems) :
    collectedOthers tables order request horizon = otherSignals tables order request horizon ∧
      collectedCompanies tables order request = (followUps tables order request).take maxItems := by
  have ⟨tasks, deals⟩ := take_eq_of_lt tables order request horizon few
  unfold collectedOthers collectedCompanies followUps
  rw [tasks, deals]
  exact ⟨rfl, rfl⟩

theorem take_companies_eq_iff :
    ((sortOn Company.id (collectedCompanies tables order request)).map companyItem).take
        (maxItems - (collectedOthers tables order request horizon).length) =
      ((sortOn Company.id (followUps tables order request)).map companyItem).take
        (maxItems - (otherSignals tables order request horizon).length) ↔
      ∀ company ∈ (sortOn Company.id (followUps tables order request)).take
          (maxItems - (otherSignals tables order request horizon).length),
        company ∈ (followUps tables order request).take maxItems := by
  rcases lt_or_ge (otherSignals tables order request horizon).length maxItems with few | many
  · have ⟨others, companies⟩ := collected_of_few few
    have ids : ((followUps tables order request).map Company.id).Nodup := nodup_companies _
    have distinct := ids.of_map
    have differ : KeysDiffer Company.id (followUps tables order request) :=
      fun _ isFirst _ isSecond same => List.inj_on_of_nodup_map ids isFirst isSecond same
    have isPart := List.take_sublist maxItems (followUps tables order request)
    rw [others, companies, ← List.map_take, ← List.map_take, ← take_sortOn_eq_iff differ distinct
      (distinct.sublist isPart) isPart.subset]
    constructor
    · intro sameItems
      rw [take_sortOn_eq_iff differ distinct (distinct.sublist isPart) isPart.subset]
      intro company isFirst
      have isItem := sameItems ▸ List.mem_map_of_mem (f := companyItem) isFirst
      obtain ⟨other, isOther, same⟩ := List.mem_map.mp isItem
      have isCollected := (mem_sortOn Company.id).mp (List.mem_of_mem_take isOther)
      have isFollowUp := (mem_sortOn Company.id).mp (List.mem_of_mem_take isFirst)
      have sameCompany : other = company :=
        differ other (isPart.subset isCollected) company isFollowUp (id_of_companyItem_eq same)
      exact sameCompany ▸ isCollected
    · exact congrArg (List.map companyItem)
  · have long := length_collectedOthers tables order request horizon
    have noPlace : maxItems - (otherSignals tables order request horizon).length = 0 :=
      Nat.sub_eq_zero_of_le many
    have noPlaceCollected :
        maxItems - (collectedOthers tables order request horizon).length = 0 := by
      omega
    rw [noPlace, noPlaceCollected]
    simp

/-- The items are the first signals exactly if the orders of the database agree
with that of the inbox on them. -/
theorem items_eq_iff :
    (sortOn Item.key (collectedItems tables order request horizon)).take maxItems =
        (sortOn Item.key (allSignals tables order request horizon)).take maxItems ↔
      OrdersAgree tables order request horizon := by
  rw [sortOn_collectedItems, sortOn_allSignals, List.take_append, List.take_append,
    length_sortOn, length_sortOn]
  have lengths : ((sortOn Item.key (collectedOthers tables order request horizon)).take
      maxItems).length =
        ((sortOn Item.key (otherSignals tables order request horizon)).take maxItems).length := by
    rw [List.length_take, List.length_take, length_sortOn, length_sortOn]
    exact (length_collectedOthers tables order request horizon).symm
  constructor
  · intro same
    have ⟨others, companies⟩ := List.append_inj same lengths
    exact ⟨take_collectedOthers_eq_iff.mp others, take_companies_eq_iff.mp companies⟩
  · intro agree
    rw [take_collectedOthers_eq_iff.mpr agree.deals, take_companies_eq_iff.mpr agree.companies]

theorem mem_collectedItems {item : Item} :
    item ∈ collectedItems tables order request horizon ↔
      item ∈ collectedOthers tables order request horizon ∨
        ∃ company ∈ collectedCompanies tables order request, companyItem company = item := by
  rw [← List.mem_map, ← List.mem_append]
  exact (collect_perm tables request horizon _ _ _).mem_iff

/-- The deals that are collected raise their signals. -/
theorem dealItem_mem_collectedItems {deal : Deal}
    (isDeal : deal ∈ dealsWithoutNextAction tables order request) :
    dealItem deal ∈ collectedItems tables order request horizon ↔
      deal ∈ (dealsWithoutNextAction tables order request).take maxItems := by
  have others : dealItem deal ∈ collectedOthers tables order request horizon ↔ _ :=
    dealItem_mem_iff isDeal
  rw [mem_collectedItems, others]
  constructor
  · intro member
    rcases member with isFirst | ⟨company, -, same⟩
    · exact isFirst
    · exact ((begins_companyItem company).disjoint (same ▸ begins_dealItem deal) (by simp)).elim
  · exact Or.inl

/-- A follow-up is left out exactly for a deal whose item is collected. -/
theorem suppressed_iff {company : Company} (isCompany : company ∈ tables.companies)
    (needs : needsFollowUp tables request company = true) :
    company ∉ companiesWithoutFollowUp tables order request
        (dealCompanyIds ((dealsWithoutNextAction tables order request).take maxItems)) ↔
      ∃ deal ∈ dealsWithoutNextAction tables order request,
        dealItem deal ∈ collectedItems tables order request horizon ∧
          deal.company.id = company.id := by
  have excluded : company ∉ companiesWithoutFollowUp tables order request
      (dealCompanyIds ((dealsWithoutNextAction tables order request).take maxItems)) ↔
        ∃ deal ∈ (dealsWithoutNextAction tables order request).take maxItems,
          deal.company.id = company.id := by
    rw [mem_companiesWithoutFollowUp]
    simp only [isCompany, needs, true_and, not_not, dealCompanyIds, List.mem_map]
  rw [excluded]
  constructor
  · rintro ⟨deal, isFirst, same⟩
    have isDeal := List.mem_of_mem_take isFirst
    exact ⟨deal, isDeal, (dealItem_mem_collectedItems isDeal).mpr isFirst, same⟩
  · rintro ⟨deal, isDeal, isRaised, same⟩
    exact ⟨deal, (dealItem_mem_collectedItems isDeal).mp isRaised, same⟩

/-- No deal without a next action is beside the follow-up of its company. -/
theorem companyItem_notMem_items {deal : Deal}
    (isDeal : deal ∈ dealsWithoutNextAction tables order request) {company : Company}
    (sameId : deal.company.id = company.id) :
    companyItem company ∉
      (sortOn Item.key (collectedItems tables order request horizon)).take maxItems := by
  rw [sortOn_collectedItems, List.take_append, List.mem_append, length_sortOn]
  intro shown
  rcases shown with isOther | isCompany
  · exact companyItem_notMem_collectedOthers company
      ((mem_sortOn Item.key).mp (List.mem_of_mem_take isOther))
  · have place : (collectedOthers tables order request horizon).length < maxItems := by
      by_contra noPlace
      rw [Nat.sub_eq_zero_of_le (not_lt.mp noPlace)] at isCompany
      simp at isCompany
    have few : (otherSignals tables order request horizon).length < maxItems := by
      have long := length_collectedOthers tables order request horizon
      omega
    obtain ⟨other, isOther, same⟩ := List.mem_map.mp (List.mem_of_mem_take isCompany)
    rw [(collected_of_few few).2, mem_sortOn] at isOther
    have ⟨_, _, notExcluded⟩ := mem_companiesWithoutFollowUp.mp (List.mem_of_mem_take isOther)
    apply notExcluded
    rw [id_of_companyItem_eq same, ← sameId]
    exact List.mem_map_of_mem (f := fun deal : Deal => deal.company.id) isDeal

theorem activityInbox_items (tables : Tables) (order : DatabaseOrder Key) (request : Request)
    (inCalendar : request.today.addDays 30 = some horizon) :
    ∃ inbox, activityInbox tables order request = some inbox ∧ inbox.items =
      (sortOn Item.key (collectedItems tables order request horizon)).take maxItems := by
  unfold activityInbox
  rw [inCalendar, Option.map_some]
  exact ⟨_, rfl, rfl⟩

/-- For every database, user and time: the inbox shows the first of all signals
exactly if the follow-ups that come first by id, in the places that the other
signals leave, are among the first companies by name, and the deals of the
first signals are among the first that the database lists. -/
theorem showsTop_iff (tables : Tables) (order : DatabaseOrder Key) (request : Request)
    {inbox : Inbox} (inCalendar : request.today.addDays 30 = some horizon)
    (returned : activityInbox tables order request = some inbox) :
    ShowsTop tables order request horizon inbox ↔ OrdersAgree tables order request horizon := by
  obtain ⟨shown, isShown, isInbox⟩ := activityInbox_items tables order request inCalendar
  obtain rfl := Option.some.inj (returned.symm.trans isShown)
  rw [← items_eq_iff, ← isInbox]
  constructor
  · exact ShowsTop.items
  · intro items
    refine ⟨items, fun company isCompany needs => suppressed_iff isCompany needs, ?_⟩
    intro deal isDeal company sameId
    rw [isInbox]
    exact companyItem_notMem_items isDeal sameId

omit [LinearOrder Key] in
/-- On a database that lists nulls last, the deals of the first signals are among
the first that it lists. -/
theorem deals_agree_of_nullsLast (nullsLast : order.nullsFirst = false) {deal : Deal}
    (isDeal : deal ∈ dealsWithoutNextAction tables order request)
    (isFirst : dealItem deal ∈
      (sortOn Item.key (otherSignals tables order request horizon)).take maxItems) :
    deal ∈ (dealsWithoutNextAction tables order request).take maxItems := by
  have others := nodup_otherSignals tables order request horizon
  apply mem_take_of_sorts (keysDiffer others) (List.Nodup.of_map _ others) _ _
    (dealItem_sorts nullsLast) isDeal isFirst
  · exact List.Nodup.of_map _ (nodup_ids_deals (nodup_deals tables order request))
  · intro item member
    exact List.mem_append_left _ (List.mem_append_right _ member)

/-- The orders can disagree only on more rows than the inbox shows. -/
theorem ordersAgree_of_few
    (fewDeals : (dealsWithoutNextAction tables order request).length ≤ maxItems)
    (fewCompanies : (followUps tables order request).length ≤ maxItems) :
    OrdersAgree tables order request horizon := by
  constructor
  · intro deal isDeal _
    rwa [List.take_of_length_le fewDeals]
  · intro company isFirst
    rw [List.take_of_length_le fewCompanies]
    exact (mem_sortOn Company.id).mp (List.mem_of_mem_take isFirst)

end Results

/-! ### A deal with its company, and one company too many -/

/-- PostgreSQL with a collation by code points. -/
def byCodePoints : DatabaseOrder String where
  collate name := name
  nullsFirst := false

theorem length_numberedText (number : Nat) :
    ("5c6d7e8f-0000-4000-8000-0000000000" ++ String.ofList (padded 2 number)).length = 36 := by
  have width : (String.ofList (padded 2 number)).length = 2 := by
    rw [String.length_ofList, length_padded]
  rw [String.length_append, width]
  rfl

def numberedId (number : Nat) : Uuid :=
  ⟨"5c6d7e8f-0000-4000-8000-0000000000" ++ String.ofList (padded 2 number),
    length_numberedText number⟩

theorem numberedId_lt {first second : Nat} (less : first < second) (bound : second < 100) :
    numberedId first < numberedId second := by
  rw [Uuid.lt_iff_text, String.lt_iff_toList_lt]
  unfold numberedId
  dsimp only
  simp only [String.toList_append, String.toList_ofList]
  exact List.append_left_lt (padded_lt less bound)

theorem numberedId_injOn {first second : Nat} (firstBound : first < 100)
    (secondBound : second < 100)
    (same : numberedId first = numberedId second) : first = second := by
  rcases lt_trichotomy first second with less | equal | greater
  · exact absurd same (numberedId_lt less secondBound).ne
  · exact equal
  · exact absurd same (numberedId_lt greater firstBound).ne'

def member : Request where
  organization := numberedId 99
  user := 7
  canManageMembers := false
  now := ⟨⟨2026, 3, 16, by decide⟩, 9, 30, 0, 0⟩

/-- In 30 days. -/
def aprilDay : Date := ⟨2026, 4, 15, by decide⟩

theorem member_inCalendar : member.today.addDays 30 = some aprilDay := by
  decide +kernel

/-- Companies in the order of their names. The last of fifty-one has the first id. -/
def numberedCompany (index : Nat) : Company where
  id := numberedId ((index + 1) % 51)
  organization := numberedId 99
  name := "Company " ++ String.ofList (padded 2 index)
  assignedTo := some 7

/-- The first company has a deal without a next action, the second an overdue task. -/
def mixed : Tables where
  companies := [numberedCompany 1, numberedCompany 2, numberedCompany 3]
  deals := [{
    id := numberedId 60
    organization := numberedId 99
    company := numberedCompany 1
    title := "Renewal"
    assignedTo := some 7 }]
  tasks := [{
    id := numberedId 70
    organization := numberedId 99
    company := numberedCompany 2
    title := "Call"
    assignedTo := some 7
    dueAt := ⟨member.now.date, 8, 0, 0, 0⟩ }]
  companyIds := by decide +kernel

theorem showsTop_iff_mixed : ∃ inbox, activityInbox mixed byCodePoints member = some inbox ∧
    ShowsTop mixed byCodePoints member aprilDay inbox := by
  obtain ⟨inbox, returned, -⟩ := activityInbox_items mixed byCodePoints member member_inCalendar
  have agree : OrdersAgree mixed byCodePoints member aprilDay :=
    ordersAgree_of_few (by decide +kernel) (by decide +kernel)
  exact ⟨inbox, returned,
    (showsTop_iff mixed byCodePoints member member_inCalendar returned).mpr agree⟩

theorem nodup_numberedCompany :
    (((List.range 51).map numberedCompany).map Company.id).Nodup := by
  rw [List.map_map]
  apply List.Nodup.map_on _ List.nodup_range
  intro first isFirst second isSecond same
  rw [List.mem_range] at isFirst isSecond
  have sameNumber := numberedId_injOn (by omega) (by omega) same
  omega

def fiftyOne : Tables where
  companies := (List.range 51).map numberedCompany
  companyIds := nodup_numberedCompany

theorem numberedCompany_isFollowUp :
    numberedCompany 50 ∈ followUps fiftyOne byCodePoints member := by
  apply mem_companiesWithoutFollowUp.mpr
  exact ⟨List.mem_map_of_mem (List.mem_range.mpr (by decide)), by decide +kernel, by decide +kernel⟩

theorem numberedCompany_isFirst (company : Company)
    (isFollowUp : company ∈ followUps fiftyOne byCodePoints member) :
    (numberedCompany 50).id ≤ company.id := by
  have isCompany := (mem_companiesWithoutFollowUp.mp isFollowUp).1
  obtain ⟨index, -, rfl⟩ := List.mem_map.mp isCompany
  show numberedId 0 ≤ numberedId ((index + 1) % 51)
  rcases Nat.eq_zero_or_pos ((index + 1) % 51) with isZero | positive
  · rw [isZero]
  · exact (numberedId_lt positive (by omega)).le

theorem numberedCompany_isCutOff :
    numberedCompany 50 ∉ (followUps fiftyOne byCodePoints member).take maxItems := by
  decide +kernel

theorem otherSignals_fiftyOne :
    (otherSignals fiftyOne byCodePoints member aprilDay).length = 0 := by
  decide +kernel

/-- The inbox of fifty-one companies does not show the first signal. -/
theorem fiftyOne_not_shown : ¬ ∀ (tables : Tables) (request : Request) (horizon : Date)
    (inbox : Inbox), request.today.addDays 30 = some horizon →
      activityInbox tables byCodePoints request = some inbox →
        ShowsTop tables byCodePoints request horizon inbox := by
  intro always
  obtain ⟨inbox, returned, isInbox⟩ :=
    activityInbox_items fiftyOne byCodePoints member member_inCalendar
  have shows := (always fiftyOne member aprilDay inbox member_inCalendar returned).items
  rw [isInbox] at shows
  apply numberedCompany_isCutOff
  apply (items_eq_iff.mp shows).companies
  rw [otherSignals_fiftyOne]
  apply mem_take_of_least _ numberedCompany_isFollowUp numberedCompany_isFirst (by decide)
  intro first isFirst second isSecond same
  exact List.inj_on_of_nodup_map (nodup_companies _) isFirst isSecond same

end BubllioCrm.Organizations.ActivityInbox
