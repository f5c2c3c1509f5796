import BubllioCrm.Deals.Lanes
import BubllioCrm.Tenancy.Isolation

/-!
Owns the currency of cost lines along the runs of the CRM: a request on a cost
line and one on its deal each check the other side before they save, without a
lock, so that either may save what the other has left behind by then.
-/

namespace BubllioCrm.Tenancy

open BubllioCrm.Companies BubllioCrm.Costing BubllioCrm.Customers BubllioCrm.Foundations
open BubllioCrm.Onboarding.BusinessTransfer
open Customers.Records (oneWorkspace)
open Deals (Deal)

variable {database next : Database} {casing : Casing} {index now : Nat}

namespace Database

/-- Every cost line has the currency of its deal in upper case. -/
def OneCurrency (casing : Casing) (database : Database) : Prop :=
  ∀ line ∈ database.costLines, ∀ deal ∈ database.records.deals, deal.id = line.deal →
    line.currency = casing.upper deal.currency

instance (casing : Casing) : DecidablePred (OneCurrency casing) :=
  fun _ => inferInstanceAs (Decidable (∀ line ∈ _, ∀ deal ∈ _, _))

/-- The deals with an id have the currency, but for case. -/
def Priced (casing : Casing) (database : Database) (id : Nat) (currency : String) : Prop :=
  ∀ deal ∈ database.records.deals, deal.id = id → casing.upper deal.currency = currency

instance (casing : Casing) (database : Database) (id : Nat) (currency : String) :
    Decidable (database.Priced casing id currency) :=
  inferInstanceAs (Decidable (∀ deal ∈ _, _))

/-- A deal that has cost lines by now is saved in the currency of its row, but for case. -/
def KeepsDeal (casing : Casing) (database : Database) : Phase → Prop
  | .checked (.updateDeal deal) _ =>
      database.hasCostLines deal.id = true →
        database.Priced casing deal.id (casing.upper deal.currency)
  | _ => True

instance (casing : Casing) (database : Database) :
    (phase : Phase) → Decidable (database.KeepsDeal casing phase)
  | .checked (.updateDeal deal) _ =>
      inferInstanceAs (Decidable (database.hasCostLines deal.id = true → database.Priced ..))
  | .idle | .checked (.createContact ..) _ | .checked (.updateContact ..) _
  | .checked (.createDeal ..) _ | .checked (.createTask ..) _ | .checked (.updateTask ..) _
  | .checked (.createSubscription ..) _ | .checked (.updateSubscription ..) _ => isTrue trivial

/-- A cost line is saved while its deal still has the currency of the check. -/
def KeepsLine (casing : Casing) (database : Database) : Option LineWrite → Prop
  | some write => database.Priced casing write.line.deal write.line.currency
  | none => True

instance (casing : Casing) (database : Database) :
    (request : Option LineWrite) → Decidable (database.KeepsLine casing request)
  | some write => inferInstanceAs (Decidable (database.Priced casing write.line.deal _))
  | none => isTrue trivial

/-- No save relies on a currency, or on a lack of cost lines, that the tables
have left behind since its check. -/
def Keeps (casing : Casing) (database : Database) : Action → Prop
  | .save index _ => database.KeepsDeal casing (database.records.requests index)
  | .saveLine index => database.KeepsLine casing (database.lineRequests index)
  | _ => True

instance (casing : Casing) (database : Database) :
    (action : Action) → Decidable (database.Keeps casing action)
  | .save index _ =>
      inferInstanceAs (Decidable (database.KeepsDeal casing (database.records.requests index)))
  | .saveLine index =>
      inferInstanceAs (Decidable (database.KeepsLine casing (database.lineRequests index)))
  | .createWorkspace .. | .deleteWorkspace .. | .createSettings .. | .join .. | .removeMember ..
  | .createCounter .. | .createCompany .. | .deleteCompany .. | .check .. | .fail ..
  | .archiveContact ..
  | .restoreContact .. | .deleteContact .. | .archiveDeal .. | .moveDeal ..
  | .deleteDeal .. | .moveTask .. | .deleteTask .. | .bill .. | .ensureCharge ..
  | .recordPayment .. | .recordCompanyActivity .. | .recordContactActivity ..
  | .recordTimelineEvent .. | .createCatalogItem .. | .updateCatalogItem ..
  | .createCollaborator .. | .updateCollaborator .. | .createService .. | .updateService ..
  | .checkLine .. | .failLine .. | .deleteLine .. => isTrue trivial

end Database

/-! ### Deals -/

/-- The ids of deals with their currencies. -/
def currencies (deals : List Deal) : List (Nat × String) :=
  deals.map fun deal => (deal.id, deal.currency)

section Records

variable {records : Records} {seen : Related} {write : Write}

theorem deals_storeContacts {contacts : List Contacts.Contact} :
    (records.storeContacts seen contacts).deals = records.deals := by
  unfold Records.storeContacts
  split_ifs <;> rfl

/-- What a save does to the deals: nothing, or it inserts one with an id that is
free, or it writes a PATCH request onto the row. -/
theorem deals_resave : (records.resave seen now write).deals = records.deals ∨
    (∃ deal, deal.id ∉ records.deals.map Deal.id ∧
      (records.resave seen now write).deals = records.deals ++ [deal]) ∨
    ∃ deal, write = .updateDeal deal ∧
      (records.resave seen now write).deals = Deals.saveDeal deal records.deals := by
  cases write with
  | createContact attrs contact => exact Or.inl deals_storeContacts
  | updateContact attrs contact =>
      left
      unfold Records.resave
      dsimp only
      split_ifs
      · exact deals_storeContacts
      · exact deals_storeContacts
  | createDeal deal =>
      unfold Records.resave Records.save
      dsimp only
      split_ifs with taken
      · exact Or.inl rfl
      · exact Or.inr (Or.inl ⟨deal, taken, rfl⟩)
  | updateDeal deal =>
      unfold Records.resave Records.save
      dsimp only
      split_ifs with stored
      · exact Or.inr (Or.inr ⟨deal, rfl, rfl⟩)
      · exact Or.inr (Or.inl ⟨deal, stored, rfl⟩)
  | createTask task =>
      left
      unfold Records.resave Records.save
      dsimp only
      split_ifs <;> rfl
  | updateTask attrs workflowStatus user loaded => exact Or.inl rfl
  | createSubscription subscription =>
      left
      unfold Records.resave Records.save
      dsimp only
      split_ifs <;> rfl
  | updateSubscription attrs loaded => exact Or.inl rfl

end Records

/-! ### Actions that save no deal and no cost line -/

/-- No deal and no cost line is new or has another currency. -/
structure Fewer (next database : Database) : Prop where
  deals : (currencies next.records.deals).Sublist (currencies database.records.deals)
  lines : next.costLines ⊆ database.costLines

theorem Fewer.of_eq (deals : next.records.deals = database.records.deals)
    (lines : next.costLines = database.costLines) : Fewer next database :=
  ⟨deals ▸ .refl _, lines ▸ List.Subset.refl _⟩

theorem Fewer.withDeals {deals : List Deal} (same : currencies deals =
    currencies database.records.deals) : Fewer (database.withDeals deals) database :=
  ⟨same ▸ .refl _, List.Subset.refl _⟩

theorem fewer_draw {id organization : Nat} {insert : Database → Database}
    (keeps : Fewer (insert (database.issue id organization)) database) :
    Fewer (database.draw id organization insert) database := by
  unfold Database.draw
  split_ifs
  · exact keeps
  · exact .of_eq rfl rfl

theorem fewer_drawEntry {id subject : Nat} {owner : Option Nat}
    {insert : Entry → Database → Database}
    (keeps : ∀ entry organization, Fewer (insert entry (database.issue id organization)) database) :
    Fewer (database.drawEntry id subject owner insert) database := by
  unfold Database.drawEntry
  cases owner with
  | none => exact .of_eq rfl rfl
  | some organization => exact fewer_draw (keeps _ organization)

theorem currencies_bulkUpdate {stage : Deals.Stage} {changes : List (Nat × Nat)}
    {deals : List Deal} : currencies (Deals.bulkUpdate stage changes deals) = currencies deals := by
  unfold currencies Deals.bulkUpdate
  rw [List.map_map]
  apply List.map_congr_left
  intro deal _
  dsimp only [Function.comp_apply]
  split <;> rfl

theorem deals_check {organization user : Nat} {request : Request} {outside : Surroundings}
    {records : Records} :
    (records.step (.check index organization user now request outside)).deals = records.deals := by
  unfold Records.step
  dsimp only
  split
  · unfold Records.enter
    split <;> rfl
  · rfl

theorem fewer_attempt {action : Action} (notSave : ∀ index now, action ≠ .save index now)
    (notSaveLine : ∀ index, action ≠ .saveLine index) :
    Fewer (database.attempt casing action) database := by
  unfold Database.attempt
  cases action with
  | createWorkspace organization =>
      unfold Database.createWorkspace
      dsimp only
      split_ifs <;> exact .of_eq rfl rfl
  | createSettings organization id => exact fewer_draw (.of_eq rfl rfl)
  | join organization id => exact fewer_draw (.of_eq rfl rfl)
  | createCounter organization id => exact fewer_draw (.of_eq rfl rfl)
  | createCompany organization id => exact fewer_draw (.of_eq rfl rfl)
  | createCatalogItem organization id item => exact fewer_draw (.of_eq rfl rfl)
  | createCollaborator organization id name isActive => exact fewer_draw (.of_eq rfl rfl)
  | deleteCompany organization id =>
      unfold Database.deleteCompany
      dsimp only
      split_ifs <;> exact .of_eq rfl rfl
  | deleteWorkspace organization =>
      unfold Database.deleteWorkspace
      dsimp only
      split_ifs
      · exact .of_eq rfl rfl
      · exact ⟨List.filter_sublist.map _, List.filter_sublist.subset⟩
  | check index organization user now request outside =>
      dsimp only
      split
      · exact .of_eq deals_check rfl
      · exact fewer_draw (.of_eq deals_check rfl)
  | save index now => exact absurd rfl (notSave index now)
  | saveLine index => exact absurd rfl (notSaveLine index)
  | deleteContact organization id =>
      unfold Database.deleteContact Records.deleteContact
      dsimp only
      split_ifs
      · refine ⟨?_, List.Subset.refl _⟩
        unfold currencies
        rw [map_updateWhere (by intro row; rfl)]
      · exact .of_eq rfl rfl
  | archiveDeal organization id now =>
      apply Fewer.withDeals
      unfold currencies
      exact map_updateWhere (by intro row; rfl) _
  | moveDeal organization id stage position =>
      unfold Database.moveDeal
      dsimp only
      split
      · exact .of_eq rfl rfl
      · split_ifs
        · exact .withDeals currencies_bulkUpdate
        · exact .of_eq rfl rfl
  | deleteDeal organization id =>
      unfold Database.deleteDeal Records.deleteDeal
      dsimp only
      split_ifs
      · exact ⟨List.filter_sublist.map _, List.filter_sublist.subset⟩
      · exact .of_eq rfl rfl
  | deleteTask organization id =>
      unfold Records.deleteTask
      dsimp only
      split_ifs <;> exact .of_eq rfl rfl
  | ensureCharge id subscription => exact fewer_drawEntry fun _ _ => .of_eq rfl rfl
  | recordPayment id charge => exact fewer_drawEntry fun _ _ => .of_eq rfl rfl
  | recordCompanyActivity id company => exact fewer_drawEntry fun _ _ => .of_eq rfl rfl
  | recordContactActivity id contact => exact fewer_drawEntry fun _ _ => .of_eq rfl rfl
  | recordTimelineEvent id company => exact fewer_drawEntry fun _ _ => .of_eq rfl rfl
  | createService organization id attrs =>
      unfold Database.createService
      dsimp only
      split
      · exact .of_eq rfl rfl
      · split
        · exact .of_eq rfl rfl
        · exact fewer_draw (.of_eq rfl rfl)
  | updateService organization id attrs =>
      unfold Database.updateService
      dsimp only
      split
      · exact .of_eq rfl rfl
      · split <;> exact .of_eq rfl rfl
  | checkLine index organization deal request =>
      unfold Database.enterLine
      dsimp only
      split
      · exact .of_eq rfl rfl
      · exact fewer_draw (.of_eq rfl rfl)
      · exact .of_eq rfl rfl
  | deleteLine organization deal id => exact ⟨.refl _, List.filter_sublist.subset⟩
  | _ => exact .of_eq rfl rfl

theorem fewer_refuse {action : Action} : Fewer (database.refuse action) database := by
  unfold Database.refuse
  split <;> exact .of_eq rfl rfl

/-! ### Saves -/

theorem Database.OneCurrency.fewer (one : database.OneCurrency casing)
    (fewer : Fewer next database) : next.OneCurrency casing := by
  intro line isLine deal isDeal same
  obtain ⟨old, stored, pair⟩ := List.mem_map.mp (fewer.deals.subset (List.mem_map_of_mem isDeal))
  rw [Prod.mk.injEq] at pair
  rw [← pair.2]
  exact one line (fewer.lines isLine) old stored (pair.1.trans same)

/-- Every cost line has its deal. -/
theorem deal_of_line (keysHold : database.KeysHold) {line : DealCostLine}
    (stored : line ∈ database.costLines) : line.deal ∈ database.records.deals.map Deal.id := by
  have isRow : lineRow line ∈ database.tables .dealCostLines := List.mem_map_of_mem stored
  have isReference : (ForeignKey.deal, some line.deal) ∈ (lineRow line).references := by
    simp [lineRow, ownedRow]
  obtain ⟨row, isDeal, isTarget⟩ := keysHold _ _ isRow _ isReference line.deal rfl
  obtain ⟨deal, member, rfl⟩ := List.mem_map.mp isDeal
  exact List.mem_map.mpr ⟨deal, member, isTarget⟩

theorem Database.OneCurrency.save (one : database.OneCurrency casing) (keysHold : database.KeysHold)
    (keeps : database.KeepsDeal casing (database.records.requests index)) :
    Database.OneCurrency casing { database with
      records := database.records.refinish index now (database.records.requests index) } := by
  cases phase : database.records.requests index with
  | idle => exact one
  | checked write seen =>
      rw [phase] at keeps
      intro line isLine deal isDeal same
      replace isDeal : deal ∈ (database.records.resave seen now write).deals := isDeal
      rcases (deals_resave : (database.records.resave seen now write).deals = _ ∨ _) with
        kept | ⟨new, fresh, inserted⟩ | ⟨saved, rfl, updated⟩
      · rw [kept] at isDeal
        exact one line isLine deal isDeal same
      · rw [inserted, List.mem_append, List.mem_singleton] at isDeal
        rcases isDeal with old | rfl
        · exact one line isLine deal old same
        · rw [same] at fresh
          exact absurd (deal_of_line keysHold isLine) fresh
      · rw [updated] at isDeal
        rcases mem_updateWhere.mp isDeal with ⟨old, stored, ⟨hit, rfl⟩ | ⟨-, rfl⟩⟩
        · have hasLine : database.hasCostLines deal.id = true :=
            List.any_eq_true.mpr ⟨line, isLine, decide_eq_true same.symm⟩
          rw [one line isLine old stored (hit.trans same)]
          exact keeps hasLine old stored hit
        · exact one line isLine _ stored same

theorem mem_storeLine {line saved : DealCostLine} {lines : List DealCostLine}
    (stored : line ∈ Database.storeLine saved lines) : line ∈ lines ∨ line = saved := by
  unfold Database.storeLine at stored
  split_ifs at stored
  · rcases mem_updateWhere.mp stored with ⟨old, member, ⟨-, rfl⟩ | ⟨-, rfl⟩⟩
    · exact Or.inr rfl
    · exact Or.inl member
  · rw [List.mem_append, List.mem_singleton] at stored
    exact stored

theorem Database.OneCurrency.saveLine (one : database.OneCurrency casing)
    (keeps : database.KeepsLine casing (database.lineRequests index)) :
    (database.saveLine index).OneCurrency casing := by
  unfold Database.saveLine
  cases request : database.lineRequests index with
  | none => exact one
  | some write =>
      rw [request] at keeps
      intro line isLine deal isDeal same
      rcases mem_storeLine isLine with old | rfl
      · exact one line old deal isDeal same
      · exact (keeps deal isDeal same).symm

theorem Database.OneCurrency.attempt {action : Action} (one : database.OneCurrency casing)
    (keysHold : database.KeysHold) (keeps : database.Keeps casing action) :
    (database.attempt casing action).OneCurrency casing := by
  by_cases isSave : ∃ index now, action = .save index now
  · obtain ⟨index, now, rfl⟩ := isSave
    exact one.save keysHold keeps
  · by_cases isSaveLine : ∃ index, action = .saveLine index
    · obtain ⟨index, rfl⟩ := isSaveLine
      exact one.saveLine keeps
    · apply one.fewer
      exact fewer_attempt (fun index now same => isSave ⟨index, now, same⟩)
        fun index same => isSaveLine ⟨index, same⟩

theorem Database.OneCurrency.step {action : Action} (one : database.OneCurrency casing)
    (keysHold : database.KeysHold) (keeps : database.Keeps casing action) :
    (database.step casing action).OneCurrency casing := by
  unfold Database.step
  split_ifs
  · exact one.attempt keysHold keeps
  · exact one.fewer fewer_refuse

/-! ### Requests that save at once -/

/-- The ids of the deals are distinct. -/
def Distinct (database : Database) : Prop :=
  (database.records.deals.map Deal.id).Nodup

theorem map_fst_currencies {deals : List Deal} :
    (currencies deals).map Prod.fst = deals.map Deal.id := by
  unfold currencies
  rw [List.map_map]
  rfl

theorem Distinct.fewer (distinct : Distinct database) (fewer : Fewer next database) :
    Distinct next := by
  have sublist := fewer.deals.map Prod.fst
  rw [map_fst_currencies, map_fst_currencies] at sublist
  exact distinct.sublist sublist

theorem Distinct.resave {records : Records} {seen : Related} {write : Write}
    (distinct : (records.deals.map Deal.id).Nodup) :
    ((records.resave seen now write).deals.map Deal.id).Nodup := by
  rcases (deals_resave : (records.resave seen now write).deals = _ ∨ _) with
    kept | ⟨new, fresh, inserted⟩ | ⟨saved, -, updated⟩
  · rw [kept]
    exact distinct
  · rw [inserted, List.map_append, List.map_singleton, ← List.concat_eq_append]
    exact distinct.concat fresh
  · rw [updated, Deals.map_id_saveDeal]
    exact distinct

theorem Distinct.attempt {action : Action} (distinct : Distinct database) :
    Distinct (database.attempt casing action) := by
  by_cases isSave : ∃ index now, action = .save index now
  · obtain ⟨index, now, rfl⟩ := isSave
    show ((database.records.refinish index now (database.records.requests index)).deals.map
      Deal.id).Nodup
    cases database.records.requests index with
    | idle => exact distinct
    | checked write seen => exact Distinct.resave distinct
  · by_cases isSaveLine : ∃ index, action = .saveLine index
    · obtain ⟨index, rfl⟩ := isSaveLine
      show Distinct (database.saveLine index)
      unfold Database.saveLine
      split <;> exact distinct
    · apply distinct.fewer
      exact fewer_attempt (fun index now same => isSave ⟨index, now, same⟩)
        fun index same => isSaveLine ⟨index, same⟩

theorem Distinct.step {action : Action} (distinct : Distinct database) :
    Distinct (database.step casing action) := by
  unfold Database.step
  split_ifs
  · exact distinct.attempt
  · exact distinct.fewer fewer_refuse

theorem Distinct.priced (distinct : Distinct database) {deal : Deal}
    (stored : deal ∈ database.records.deals) :
    database.Priced casing deal.id (casing.upper deal.currency) := by
  intro other isOther same
  rw [Deals.eq_of_id_eq distinct isOther stored same]

theorem keepsLine_of_check {organization deal : Nat} {request : LineRequest} {write : LineWrite}
    (distinct : Distinct database)
    (isWrite : database.checkLine casing organization deal request = some write) :
    database.KeepsLine casing (some write) := by
  cases passesLine_of_check isWrite with
  | @create id attrs accepted loaded line isDeal valid isRow =>
      obtain ⟨-, -, currency⟩ := validateLine_ok valid
      obtain ⟨-, -, isPath, -, -, isCurrency⟩ := LineAttrs.toRow_columns isRow
      rw [currency, Option.getD_some, casing.upper_upper] at isCurrency
      show database.Priced casing line.deal line.currency
      rw [isPath, isCurrency, ← isDeal.2.1]
      exact distinct.priced isDeal.1
  | @patch id attrs accepted loaded line isDeal isLine valid =>
      obtain ⟨-, -, currency⟩ := validateLine_ok valid
      have isCurrency : (accepted.setOn casing line).currency = casing.upper loaded.currency := by
        show casing.upper (accepted.currency.getD line.currency) = _
        rw [currency, Option.getD_some, casing.upper_upper]
      show database.Priced casing line.deal (accepted.setOn casing line).currency
      rw [isLine.2.2.2, isCurrency, ← isDeal.2.1]
      exact distinct.priced isDeal.1

theorem keepsDeal_of_check {organization user id : Nat} {attrs : Deals.DealAttrs}
    {outside : Surroundings} {seen : Related} {write : Write} (distinct : Distinct database)
    (isWrite : database.records.check organization user now
      (database.surroundings casing outside) (.patchDeal id attrs) = some write) :
    database.KeepsDeal casing (.checked write seen) := by
  cases Records.passes_of_check isWrite with
  | patchDeal found valid =>
      intro hasLine other isOther same
      rw [Deals.eq_of_id_eq distinct isOther found.1 same]
      have accepts := Deals.validate_ok valid
      subst accepts
      exact Deals.currency_of_validate valid hasLine

/-! ### Runs -/

/-- In every state that the requests lead to, a request on a cost line or a deal
that is saved at once keeps to the condition. -/
theorem keeps_at_once (actions : List Action) :
    Always (Database.step casing) (fun database =>
      (∀ organization deal request write,
        database.checkLine casing organization deal request = some write →
          database.KeepsLine casing (some write)) ∧
      ∀ organization user now id attrs outside seen write,
        database.records.check organization user now (database.surroundings casing outside)
          (.patchDeal id attrs) = some write →
            database.KeepsDeal casing (.checked write seen)) {} actions := by
  have start : Distinct {} := List.nodup_nil
  have distinct : Always (Database.step casing) Distinct {} actions :=
    always_invariant Distinct (fun _ _ => Distinct.step) start actions
  exact distinct.imp fun _ isDistinct => ⟨fun _ _ _ _ => keepsLine_of_check isDistinct,
    fun _ _ _ _ _ _ _ _ => keepsDeal_of_check isDistinct⟩

/-- While no save relies on a check that the tables have left behind, every cost
line has the currency of its deal. -/
theorem one_currency (casing : Casing) (actions : List Action)
    (keeps : EveryStep (Database.step casing) (Database.Keeps casing) {} actions) :
    Always (Database.step casing) (Database.OneCurrency casing) {} actions := by
  have start : Database.KeysHold {} ∧ Database.OneCurrency casing {} :=
    ⟨keysHold_empty, fun line isLine => (List.not_mem_nil isLine).elim⟩
  have sound := always_guarded
    (fun database : Database => database.KeysHold ∧ database.OneCurrency casing)
    (fun _ _ holds isKept => ⟨keysHold_step holds.1, holds.2.step holds.1 isKept⟩) start keeps
  exact sound.imp fun _ => And.right

theorem toUpper_toUpper (char : Char) : char.toUpper.toUpper = char.toUpper := by
  by_cases small : 'a'.val ≤ char.val ∧ char.val ≤ 'z'.val
  · have isCapital : char.toUpper.val = char.val + ('A'.val - 'a'.val) := by
      unfold Char.toUpper
      rw [dif_pos small]
    have value : char.toUpper.toNat + 32 = char.toNat := by
      show char.toUpper.val.toNat + 32 = char.val.toNat
      simp only [UInt32.le_iff_toNat_le] at small
      rw [isCapital, UInt32.toNat_add]
      simp at small ⊢
      omega
    have large : ¬ ('a'.val ≤ char.toUpper.val ∧ char.toUpper.val ≤ 'z'.val) := by
      simp only [UInt32.le_iff_toNat_le] at small ⊢
      simp at small ⊢
      omega
    generalize char.toUpper = upper at large
    unfold Char.toUpper
    exact dif_neg large
  · have same : char.toUpper = char := by
      unfold Char.toUpper
      exact dif_neg small
    rw [same, same]

/-- Upper case among ASCII letters. -/
def asciiCasing : Casing where
  upper := String.toUpper
  upper_upper := by
    intro text
    unfold String.toUpper
    rw [String.map_map]
    congr 1
    funext char
    exact toUpper_toUpper char

/-- A workspace with a deal in euros and a collaborator. -/
def dealInEuros : List Action :=
  [.createWorkspace 1, .createCompany 1 2,
    .check 0 1 7 100 (.createDeal 3
      { company := some 2, title := some "Renewal", currency := some "EUR" }) oneWorkspace,
    .save 0 100, .createCollaborator 1 4 "Print shop" true]

/-- A cost line of the deal. -/
def printing : LineRequest :=
  .create 5 {
    collaborator := some 4
    serviceName := some "Printing"
    unitCost := some 12000
    currency := some "EUR" }

/-- A PATCH request on the currency of the deal. -/
def toDollars : Action :=
  .check 1 1 7 110 (.patchDeal 3 { currency := some "USD" }) oneWorkspace

/-- The PATCH request comes first, and the cost line is refused. -/
theorem one_currency_dollars : Always (Database.step asciiCasing)
    (Database.OneCurrency asciiCasing) {}
    (dealInEuros ++ [toDollars, .save 1 110, .checkLine 0 1 3 printing, .saveLine 0]) :=
  one_currency asciiCasing _ (by decide +kernel)

/-- A cost line in euros is saved after the deal has gone over to dollars, though
both requests have been checked. -/
theorem not_always_one_currency : ¬ ∀ actions : List Action,
    Always (Database.step asciiCasing) (Database.OneCurrency asciiCasing) {} actions := by
  intro always
  have one := (always (dealInEuros ++
    [.checkLine 0 1 3 printing, toDollars, .save 1 110, .saveLine 0])).at_end
  revert one
  decide +kernel

end BubllioCrm.Tenancy
